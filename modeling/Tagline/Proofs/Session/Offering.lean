import Tagline.Proofs.Record
import Tagline.Proofs.Rendering
import Tagline.Proofs.Session.Scan
import Tagline.Proofs.Suggestion

/-!
# What is recorded is offered

A line that can be read puts the values of its record under the keys of their fields.
Nothing but forgetting takes a value out of the history again: an addition leaves every
value where it is found, whether it is committed, recorded or scanned, and whether or
not the session could save it.  So the value is still there when the cursor comes to
its field, and a field offers whatever the history holds under its key.

* `contains_recordLine` — a recorded line is held;
* `within_perform`, `Later.within` — and stays held until something is forgotten;
* `recorded_is_offered` — so it is offered.
-/

namespace Tagline

namespace Session

variable {β : Type}

/-! ## Scans lose nothing -/

/-- Lines take nothing away. -/
theorem within_withLines (r : Registry) (d : Document) (lines : List Text) :
    d.Within (withLines r d lines) := by
  induction lines generalizing d with
  | nil => exact .refl d
  | cons line lines ih => exact (d.within_apply _).trans (ih _)

/-- Nor do they while they are scanned. -/
theorem within_ingestLines (s : Session β) (report : ScanReport) (lines : List Text) :
    s.history.document.Within (s.ingestLines report lines).1.history.document := by
  obtain ⟨_, hdocument, _⟩ := ingestLines_eq s report lines
  rw [hdocument]
  exact within_withLines _ _ lines

theorem within_ingestFiles (s : Session β) (report : ScanReport) (texts : List (Option Text)) :
    s.history.document.Within (s.ingestFiles report texts).1.history.document := by
  obtain ⟨hdocument, _⟩ := ingestFiles_eq s report texts
  rw [hdocument]
  exact within_withLines _ _ _

variable [Medium β]

/-! ## Changes -/

/-- **A recorded line is held.** -/
theorem contains_recordLine {s : Session β} {line : Text} {o : Outcome} {d : Database}
    (hparse : s.registry.parseTagLine line = .ok o)
    (hd : s.registry.database? o.record.database = some d) {e : Entry}
    (he : e ∈ o.record.entries d) :
    (s.recordLine line).1.history.document.contains e.database e.key e.value = true := by
  rw [document_recordLine]
  simp only [Change.lineDelta, hparse, hd]
  exact Document.contains_apply_diff he

/-- An operation that may take a value out of the history. -/
def Op.Forgets : Op → Prop
  | .change (.forget _ _ _) => True
  | .deleteHistory => True
  | _ => False

/-- **Only forgetting takes a value out**, whether or not an operation succeeds. -/
theorem within_perform (s : Session β) {op : Op} (hop : ¬ op.Forgets) :
    s.history.document.Within (s.perform op).1.history.document := by
  cases op with
  | change c =>
      change s.history.document.Within (s.change c).1.history.document
      by_cases h : c.Shown s.registry s.history.document
      · obtain ⟨answer, hchange, _⟩ := change_of_shown h
        rw [hchange]
        exact .refl _
      · obtain ⟨answer, hchange⟩ := change_of_not_shown h
        rw [hchange, document_saving]
        cases c with
        | commit delta => exact Document.within_apply _ delta
        | record line => exact Document.within_apply _ _
        | forget database key value => exact absurd trivial hop
  | scanText text =>
      have hscan := within_ingestLines s {} (Text.lines text)
      have hsaved := document_saving (s.ingestLines {} (Text.lines text)).1
        (s.ingestLines {} (Text.lines text)).2
      rwa [← hsaved] at hscan
  | scanFiles texts =>
      have hscan := within_ingestFiles s {} texts
      have hsaved := document_saving (s.ingestFiles {} texts).1 (s.ingestFiles {} texts).2
      rwa [← hsaved] at hscan
  | deleteHistory => exact absurd trivial hop

/-- The sessions that come about from another while nothing is forgotten and the
settings stay: by operations, successful or not, and by lines that are observed. -/
inductive Later (s : Session β) : Session β → Prop where
  | refl : Later s s
  | perform {t : Session β} (h : Later s t) {op : Op} (hop : ¬ op.Forgets) :
      Later s (t.perform op).1
  | observe {t : Session β} (h : Later s t) (line : Text) : Later s (t.observe line).1

/-- **A later session holds all that an earlier one held.** -/
theorem Later.within {s t : Session β} (h : Later s t) :
    t.registry = s.registry ∧ s.history.document.Within t.history.document := by
  induction h with
  | refl => exact ⟨rfl, .refl _⟩
  | @perform t _ op hop ih =>
      obtain ⟨hregistry, hwithin⟩ := ih
      exact ⟨(stepped_perform t op).registry.trans hregistry, hwithin.trans (within_perform t hop)⟩
  | @observe t _ line ih =>
      obtain ⟨hregistry, hwithin⟩ := ih
      have hsame : (t.observe line).1.registry = t.registry := by
        unfold Session.observe
        split <;> rfl
      rw [history_observe]
      exact ⟨hsame.trans hregistry, hwithin⟩

/-- **What is recorded is offered.**  A value of a field that remembers, in a line that
was recorded, is offered in some spelling wherever the cursor comes to the field and
nothing is typed, as long as nothing is forgotten in between: under a parameter for
the same type, and behind the slash for the type field. -/
theorem recorded_is_offered {settings : Settings} {s t u : Session β}
    (haccepted : Registry.ofSettings settings = .ok s.registry) {line : Text} {delta : Delta}
    (hrecord : s.recordLine line = (t, .ok delta)) {o : Outcome}
    (hparse : s.registry.parseTagLine line = .ok o) (hdaily : o.record.daily = false)
    {d : Database} (hd : s.registry.database? o.record.database = some d) {f : Field}
    (hf : f ∈ d.fields) {key : Text}
    (hkey : f.historyKey d.typeField.name o.record.typeValue = some key) {v : Text}
    (hv : v ∈ o.record.valuesOf f.name d.typeField.name) (hne : v ≠ []) (hlater : t.Later u)
    {next : Text} {cursor : Nat}
    (hasks : u.registry.Asks (next.take cursor) d f o.record.typeValue) :
    ∃ suggestions, u.suggest next cursor = some suggestions ∧
      ∃ x ∈ suggestions, Text.alike x.display (Text.normalize v) = true := by
  -- The value is an entry of the record, so it is held when the line is recorded.
  have htidy : o.record.Tidy := by
    unfold Registry.parseTagLine at hparse
    split at hparse
    · cases hparse
    · exact Registry.tidy_of_parse hparse hdaily
  have hentry := Record.mem_entries htidy hdaily hf hkey hv hne
  have hrecorded := contains_recordLine hparse hd hentry
  have ht : (s.recordLine line).1 = t := congrArg Prod.fst hrecord
  rw [ht] at hrecorded
  -- It is still held later, by a session with the same registry.
  obtain ⟨hregistry, hwithin⟩ := hlater.within
  have hheld := hwithin _ _ _ hrecorded
  have hsame : u.registry = s.registry := by
    rw [hregistry, ← ht]
    exact (stepped_change s (.record line)).registry
  -- The cursor is on its field, which is asked for its key.
  have hdatabase := Registry.accepted_of_ofSettings haccepted d (Registry.mem_of_database? hd)
  have hfound : u.registry.database? d.name = some d := by
    rw [hsame]
    exact Registry.database?_name hd hdatabase.trim_name
  obtain ⟨o', hparse', hdaily', hdatabase', hends, hempty⟩ := hasks
  obtain ⟨type, htype, hsuggest⟩ := Registry.suggest_of_endsAt hdatabase hfound hdaily'
    hdatabase' hends hempty u.history.document
  obtain ⟨x, hx, halike⟩ := Field.exists_suggest (htype.trans hkey) hheld
  obtain ⟨start, stop, hplaced⟩ := suggest_of_parse hparse' hdaily' hends.ne_database
  rw [hsuggest] at hplaced
  exact ⟨_, hplaced, x.place start stop, List.mem_map_of_mem hx, halike⟩

/-- A session that remembers nothing yet. -/
def freshSession : Session Memory where
  registry := workoutRegistry
  history := { medium := {} }

/-- The session after a line with gear. -/
def gearedSession : Session Memory :=
  (freshSession.recordLine "#Exercise/Run ;; goggles, swim-FINS").1

/-- That session after a scan and a line that is only observed. -/
def laterSession : Session Memory :=
  ((gearedSession.perform (.scanText "#Exercise/Run 45;;rope")).1.observe "#Exercise/Run 20").1

/-- The gear of one run is offered for the next one. -/
theorem recorded_is_offered_workout :
    ∃ delta suggestions,
      freshSession.recordLine "#Exercise/Run ;; goggles, swim-FINS" = (gearedSession, .ok delta) ∧
        gearedSession.Later laterSession ∧
        laterSession.suggest "#Exercise/Run 20; ; ;felt great" 20 = some suggestions ∧
        ∃ x ∈ suggestions, Text.alike x.display (Text.normalize "Swim-Fins") = true := by
  let equipment : Field :=
    { name := "Equipment", policy := .historyByType ⟨[], []⟩, multi := some "," }
  let exercise : Database :=
    { name := "Exercise"
      typeField := { name := "Type", policy := .fixed ⟨["Run", "Swim"], []⟩ }
      params :=
        [ { name := "Duration", policy := .history ⟨[], []⟩ }, { name := "Place" }, equipment,
          { name := "Description" } ] }
  let recorded : Outcome :=
    { record :=
        { database := "Exercise"
          typeValue := some "Run".toList
          params := [⟨"Equipment", .multi ["Goggles", "Swim-Fins"]⟩]
          location := some (.parameter "Equipment" " goggles, swim-FINS") } }
  let asked : Outcome :=
    { record :=
        { database := "Exercise"
          typeValue := some "Run".toList
          params := [⟨"Duration", .single "20"⟩]
          location := some (.parameter "Equipment" []) } }
  have hrecord : freshSession.recordLine "#Exercise/Run ;; goggles, swim-FINS"
      = (gearedSession, .ok ⟨[⟨"Exercise", "Run-Equipment", "Goggles"⟩,
          ⟨"Exercise", "Run-Equipment", "Swim-Fins"⟩]⟩) :=
    Prod.ext rfl (by decide +kernel)
  have hparse : freshSession.registry.parseTagLine "#Exercise/Run ;; goggles, swim-FINS"
      = .ok recorded := by decide +kernel
  have hd : freshSession.registry.database? recorded.record.database = some exercise := by rfl
  have hf : equipment ∈ exercise.params :=
    List.mem_cons_of_mem _ (List.mem_cons_of_mem _ List.mem_cons_self)
  have hlater : gearedSession.Later laterSession :=
    .observe (.perform .refl (by simp [Op.Forgets])) _
  have hregistry : laterSession.registry = workoutRegistry := hlater.within.1
  have hask : laterSession.registry.parseTagLine
      (("#Exercise/Run 20; ; ;felt great".toList).take 20) = .ok asked := by
    rw [hregistry]
    decide +kernel
  have hasks : laterSession.registry.Asks (("#Exercise/Run 20; ; ;felt great".toList).take 20)
      exercise equipment recorded.record.typeValue :=
    ⟨asked, hask, rfl, rfl, .parameter rfl hf rfl, by rw [hregistry]; decide +kernel⟩
  have hkey : equipment.historyKey exercise.typeField.name recorded.record.typeValue
      = some "Run-Equipment" := by decide +kernel
  have hv : "Swim-Fins".toList
      ∈ recorded.record.valuesOf equipment.name exercise.typeField.name := by decide +kernel
  obtain ⟨suggestions, hsuggest, hx⟩ := recorded_is_offered ofSettings_workout hrecord hparse rfl
    hd (List.mem_cons_of_mem _ hf) hkey hv (by decide) hlater hasks
  exact ⟨_, suggestions, hrecord, hlater, hsuggest, hx⟩

end Session

end Tagline
