import Tagline.Proofs.History.Persistence
import Tagline.Scan

/-!
# Runs of a session

What a session is asked to do with its history: to make one change, to scan
notes, or to forget everything.  A **change** is a commit, a recorded line or a
forgotten value; it does nothing where the history shows its effect already, and
otherwise changes the document and saves.  That is the whole of it, and everything
about runs is derived from it.

* `Change.Shown` — a document shows the effect of a change;
* `change_of_shown`, `change_of_not_shown` — what a change does;
* `Change.shown_applied` — the document that is saved shows the effect;
* `stepped_perform` — what one operation does to a session.
-/

namespace Tagline

/-! ## Documents that follow -/

namespace Document

/-- A document that comes about from another by additions and removals, and by
forgetting everything. -/
inductive Follows (d : Document) : Document → Prop where
  | refl : Follows d d
  | add {d' : Document} (h : Follows d d') (e : Entry) : Follows d (d'.add e)
  | remove {d' : Document} (h : Follows d d') (e : Entry) : Follows d (d'.remove e)
  | empty : Follows d Document.empty

theorem Follows.trans {d d' d'' : Document} (h : Follows d d') (h' : Follows d' d'') :
    Follows d d'' := by
  induction h' with
  | refl => exact h
  | add _ e ih => exact ih.add e
  | remove _ e ih => exact ih.remove e
  | empty => exact .empty

/-- A delta is added entry by entry. -/
theorem follows_apply (d : Document) (delta : Delta) : d.Follows (d.apply delta) :=
  apply_induction (fun _ e h => h.add e) .refl delta

/-- What follows from a document without repeats has none. -/
theorem NoRepeats.of_follows {d d' : Document} (h : d.NoRepeats) (hfollows : d.Follows d') :
    d'.NoRepeats := by
  induction hfollows with
  | refl => exact h
  | add _ e ih => exact ih.add e
  | remove _ e ih => exact ih.remove e
  | empty => exact noRepeats_empty

end Document

namespace Session

/-! ## Changes -/

/-- A request that changes the history and saves it, if it changes anything. -/
inductive Change where
  /-- To add the entries of a delta. -/
  | commit (delta : Delta)
  /-- To add the values of a line. -/
  | record (line : Text)
  /-- To take a value out. -/
  | forget (database key value : Text)

/-- What a session answers. -/
inductive Answer where
  /-- Whether anything changed. -/
  | flag (changed : Bool)
  /-- What a line added. -/
  | delta (added : Delta)
  /-- The totals of a scan. -/
  | report (totals : ScanReport)
  | done
deriving DecidableEq

namespace Change

/-- A document shows the effect of a change: the entries are there, the values of
the line are there, the forgotten value is absent. -/
def Shown (r : Registry) (d : Document) : Change → Prop
  | .commit delta => ∀ e ∈ delta.entries, d.contains e.database e.key e.value = true
  | .record line => ∀ outcome database, r.parseTagLine line = .ok outcome →
      r.database? outcome.record.database = some database →
        ∀ e ∈ outcome.record.entries database, d.contains e.database e.key e.value = true
  | .forget database key value => d.contains database key value = false

/-- What a line adds to a document; nothing if it cannot be read. -/
def lineDelta (r : Registry) (d : Document) (line : Text) : Delta :=
  match r.parseTagLine line with
  | .error _ => {}
  | .ok outcome =>
      match r.database? outcome.record.database with
      | none => {}
      | some database => d.diff database outcome.record

/-- The document that a change makes of another. -/
def applied (r : Registry) (d : Document) : Change → Document
  | .commit delta => d.apply delta
  | .record line => d.apply (lineDelta r d line)
  | .forget database key value => d.remove { database, key, value }

/-- What a change makes of a document follows from it. -/
theorem follows_applied (r : Registry) (d : Document) (c : Change) :
    d.Follows (c.applied r d) := by
  cases c with
  | commit delta => exact d.follows_apply delta
  | record line => exact d.follows_apply _
  | forget database key value => exact Document.Follows.refl.remove _

/-- A line adds nothing exactly where its values are there. -/
theorem shown_record_iff {r : Registry} {d : Document} {line : Text} :
    (Change.record line).Shown r d ↔ d.grows (lineDelta r d line) = false := by
  unfold Shown lineDelta
  cases hparse : r.parseTagLine line with
  | error e => simp [hparse, Document.grows]
  | ok outcome =>
      cases hdatabase : r.database? outcome.record.database with
      | none =>
          simp only [hdatabase, Document.grows, List.any_nil, iff_true]
          intro other database hother hsome
          rw [← Except.ok.inj (hparse.symm.trans hother), hdatabase] at hsome
          cases hsome
      | some database =>
          simp only [hdatabase, Document.grows_diff_eq_false]
          refine ⟨fun h => h outcome database hparse hdatabase, fun h other own hother hsome => ?_⟩
          obtain rfl := Except.ok.inj (hparse.symm.trans hother)
          rw [← Option.some.inj (hdatabase.symm.trans hsome)]
          exact h

/-- **The document that a change makes shows its effect.** -/
theorem shown_applied {r : Registry} {d : Document} (hd : d.NoRepeats) (c : Change) :
    c.Shown r (c.applied r d) := by
  cases c with
  | commit delta => exact fun e he => Document.contains_apply he
  | record line =>
      intro outcome database hparse hdatabase e he
      simp only [applied, lineDelta, hparse, hdatabase]
      exact Document.contains_apply_diff he
  | forget database key value =>
      exact Document.not_contains_remove hd { database, key, value }

end Change

variable {β : Type}

/-! ## What happens in memory -/

/-- What a scan does to a session before it saves. -/
structure Ingested (s t : Session β) : Prop where
  registry : t.registry = s.registry
  lastLine : t.lastLine = s.lastLine
  follows : s.history.document.Follows t.history.document

theorem Ingested.trans {s t u : Session β} (h : Ingested s t) (h' : Ingested t u) :
    Ingested s u :=
  ⟨h'.registry.trans h.registry, h'.lastLine.trans h.lastLine, h.follows.trans h'.follows⟩

/-- **A line is taken in** without a write, and the document only grows. -/
theorem ingested_ingestLine (s : Session β) (report : ScanReport) (line : Text) :
    Ingested s (s.ingestLine report line).1 := by
  unfold ingestLine
  split
  · exact ⟨rfl, rfl, .refl⟩
  · dsimp only
    split
    · exact ⟨rfl, rfl, .refl⟩
    · exact ⟨rfl, rfl, Document.follows_apply _ _⟩

theorem ingested_ingestLines (s : Session β) (report : ScanReport) (lines : List Text) :
    Ingested s (s.ingestLines report lines).1 := by
  induction lines generalizing s report with
  | nil => exact ⟨rfl, rfl, .refl⟩
  | cons line lines ih => exact (ingested_ingestLine s report line).trans (ih _ _)

theorem ingested_ingestFiles (s : Session β) (report : ScanReport) (texts : List (Option Text)) :
    Ingested s (s.ingestFiles report texts).1 := by
  induction texts generalizing s report with
  | nil => exact ⟨rfl, rfl, .refl⟩
  | cons text texts ih =>
      cases text with
      | none => exact ih s _
      | some text => exact (ingested_ingestLines s report (Text.lines text)).trans (ih _ _)

/-- A line that is only observed leaves the history. -/
theorem history_observe (s : Session β) (line : Text) : (s.observe line).1.history = s.history := by
  unfold observe
  split <;> rfl

/-- What the record of a line would add is what the line adds. -/
theorem pendingDelta_of_read {s : Session β} {line : Text} {outcome : Outcome}
    (h : s.registry.parseTagLine line = .ok outcome) :
    s.pendingDelta outcome.record
      = Change.lineDelta s.registry s.history.document line := by
  unfold pendingDelta Change.lineDelta
  cases hdatabase : s.registry.database? outcome.record.database <;>
    simp [h, hdatabase, Store.diff]

theorem history_reload (s : Session β) (settings : Settings) :
    (s.reload settings).1.history = s.history := by
  unfold reload
  split <;> rfl

/-! ## What a change does -/

variable [Medium β]

/-- Makes a change. -/
def change (s : Session β) : Change → Session β × Except SessionError Answer
  | .commit delta => ((s.commit delta).1, (s.commit delta).2.map .flag)
  | .record line => ((s.recordLine line).1, (s.recordLine line).2.map .delta)
  | .forget database key value =>
      ((s.forget database key value).1, (s.forget database key value).2.map .flag)

/-- A session with another document that is not saved yet. -/
def holding (s : Session β) (document : Document) : Session β :=
  { s with history := { s.history with document, dirty := true } }

/-- What is answered after a save does not change the save. -/
theorem saving_map {α γ : Type} (f : α → γ) (s : Session β) (answer : α) :
    ((s.saving answer).1, (s.saving answer).2.map f) = s.saving (f answer) := by
  unfold saving
  split <;> rfl

/-- A delta that adds nothing is not written. -/
theorem commit_of_not_grows {s : Session β} {delta : Delta}
    (h : s.history.document.grows delta = false) : s.commit delta = (s, .ok false) := by
  simp [commit, Store.apply, h, Document.apply_eq_self h]

/-- A delta that adds something is held, and then written. -/
theorem commit_of_grows {s : Session β} {delta : Delta}
    (h : s.history.document.grows delta = true) :
    s.commit delta = (s.holding (s.history.document.apply delta)).saving true := by
  simp [commit, Store.apply, h, holding]

/-- A line that cannot be read records nothing. -/
theorem recordLine_of_error {s : Session β} {line : Text} {e : LineError}
    (h : s.registry.parseTagLine line = .error e) :
    s.recordLine line = (s, .error (.line e)) := by
  simp [recordLine, parse, h, Except.mapError]

/-- A line that can be read is recorded by a commit of what it adds. -/
theorem recordLine_of_ok {s : Session β} {line : Text} {outcome : Outcome}
    (h : s.registry.parseTagLine line = .ok outcome) :
    s.recordLine line
      = ((s.commit (Change.lineDelta s.registry s.history.document line)).1,
        (s.commit (Change.lineDelta s.registry s.history.document line)).2.map fun _ =>
          Change.lineDelta s.registry s.history.document line) := by
  simp only [recordLine, parse, h, Except.mapError, pendingDelta_of_read h]

/-- **A change whose effect is shown does nothing**, and is refused only if it is a
line that cannot be read. -/
theorem change_of_shown {s : Session β} {c : Change}
    (h : c.Shown s.registry s.history.document) :
    ∃ answer, s.change c = (s, answer) ∧
      ∀ e, answer = .error e →
        ∃ line cause, c = .record line ∧ s.registry.parseTagLine line = .error cause ∧
          e = .line cause := by
  cases c with
  | commit delta =>
      have hidle := commit_of_not_grows (s := s) (Document.grows_eq_false.2 h)
      exact ⟨.ok (.flag false), by rw [change, hidle]; rfl, by simp⟩
  | record line =>
      have hidle := commit_of_not_grows (s := s) (Change.shown_record_iff.1 h)
      cases hparse : s.registry.parseTagLine line with
      | error cause =>
          have hrefused := recordLine_of_error hparse
          refine ⟨.error (.line cause), by rw [change, hrefused]; rfl, ?_⟩
          rintro e ⟨⟩
          exact ⟨line, cause, rfl, hparse, rfl⟩
      | ok outcome =>
          have hread := recordLine_of_ok hparse
          rw [hidle] at hread
          exact ⟨.ok (.delta _), by rw [change, hread]; rfl, by simp⟩
  | forget database key value =>
      have hidle : s.forget database key value = (s, .ok false) := by
        simp only [Change.Shown] at h
        simp [forget, Store.removeValue, h]
      exact ⟨.ok (.flag false), by rw [change, hidle]; rfl, by simp⟩

/-- **Any other change is made in memory and saved.** -/
theorem change_of_not_shown {s : Session β} {c : Change}
    (h : ¬ c.Shown s.registry s.history.document) :
    ∃ answer, s.change c
      = (s.holding (c.applied s.registry s.history.document)).saving answer := by
  cases c with
  | commit delta =>
      have hnew : s.history.document.grows delta = true := by
        simpa using mt Document.grows_eq_false.1 h
      have hgrows := commit_of_grows hnew
      exact ⟨.flag true, by rw [change, hgrows, saving_map]; rfl⟩
  | record line =>
      have hgrows := commit_of_grows (s := s) (by simpa using mt Change.shown_record_iff.2 h)
      cases hparse : s.registry.parseTagLine line with
      | error e =>
          refine absurd ?_ h
          intro outcome database hread
          rw [hparse] at hread
          cases hread
      | ok outcome =>
          have hread := recordLine_of_ok hparse
          rw [hgrows, saving_map] at hread
          exact ⟨.delta _, by rw [change, hread, saving_map]; rfl⟩
  | forget database key value =>
      have hheld : s.history.document.contains database key value = true := by
        simpa [Change.Shown] using h
      have hmade : s.forget database key value
          = (s.holding (s.history.document.remove { database, key, value })).saving true := by
        simp [forget, Store.removeValue, hheld, holding]
      exact ⟨.flag true, by rw [change, hmade, saving_map]; rfl⟩

/-! ## Operations -/

/-- What a session may be asked to do with its history. -/
inductive Op where
  | change (c : Change)
  | scanText (text : Text)
  /-- To add the values of files; `none` is a file that cannot be read. -/
  | scanFiles (texts : List (Option Text))
  | deleteHistory

/-- Does what a session is asked to do. -/
def perform (s : Session β) : Op → Session β × Except SessionError Answer
  | .change c => s.change c
  | .scanText text => ((s.scanText text).1, (s.scanText text).2.map .report)
  | .scanFiles texts => ((s.scanFiles texts).1, (s.scanFiles texts).2.map .report)
  | .deleteHistory => (s.deleteHistory.1, s.deleteHistory.2.map fun _ => .done)

/-- What one operation does to a session: it leaves the history alone, or it saves
a store whose document follows from that of the session, and answers with the error
of the medium if that fails. -/
structure Stepped (s t : Session β) (answer : Except SessionError Answer) : Prop where
  registry : t.registry = s.registry
  lastLine : t.lastLine = s.lastLine ∨ t.lastLine = none
  history : (t.history = s.history ∧ ∀ e, answer ≠ .error (.history e)) ∨
    ∃ store : Store β, s.history.document.Follows store.document ∧ t.history = store.save.1 ∧
      ∀ e, answer = .error (.history e) ↔ store.save.2 = .error e

/-- **A save is a step**, if what is saved follows from the document before. -/
theorem stepped_saving {s t : Session β} (hregistry : t.registry = s.registry)
    (hline : t.lastLine = s.lastLine)
    (hfollows : s.history.document.Follows t.history.document) (answer : Answer) :
    Stepped s (t.saving answer).1 (t.saving answer).2 := by
  have hsaving : (t.saving answer).1 = { t with history := t.history.save.1 } ∧
      ∀ e, (t.saving answer).2 = .error (.history e) ↔ t.history.save.2 = .error e := by
    unfold saving
    split
    · next history hsave =>
        rw [hsave]
        exact ⟨rfl, by simp⟩
    · next history e hsave =>
        rw [hsave]
        exact ⟨rfl, by simp⟩
  rw [hsaving.1]
  exact ⟨hregistry, Or.inl hline, Or.inr ⟨t.history, hfollows, rfl, hsaving.2⟩⟩

/-- A change is a step, whether or not it shows already. -/
theorem stepped_change (s : Session β) (c : Change) :
    Stepped s (s.change c).1 (s.change c).2 := by
  by_cases h : c.Shown s.registry s.history.document
  · obtain ⟨answer, hchange, hanswer⟩ := change_of_shown h
    rw [hchange]
    refine ⟨rfl, Or.inl rfl, Or.inl ⟨rfl, fun e he => ?_⟩⟩
    obtain ⟨_, _, _, _, hline⟩ := hanswer _ he
    cases hline
  · obtain ⟨answer, hchange⟩ := change_of_not_shown h
    rw [hchange]
    exact stepped_saving (s := s) (t := s.holding (c.applied s.registry s.history.document)) rfl rfl
      (c.follows_applied _ _) answer

/-- So is a save after lines have been taken in. -/
theorem stepped_of_ingested {s t : Session β} (h : Ingested s t) (report : ScanReport) :
    Stepped s (t.saving report).1 ((t.saving report).2.map .report) := by
  have hstep := stepped_saving h.registry h.lastLine h.follows (.report report)
  rwa [← saving_map] at hstep

/-- Forgetting everything saves the empty document, and drops the waiting line if
that succeeds. -/
theorem stepped_deleteHistory (s : Session β) :
    Stepped s s.deleteHistory.1 (s.deleteHistory.2.map fun _ => .done) := by
  obtain ⟨store, hstore, hempty⟩ : ∃ store : Store β,
      s.history.deleteHistory = store.save ∧ store.document = Document.empty := ⟨_, rfl, rfl⟩
  have hfollows : s.history.document.Follows store.document := by
    rw [hempty]
    exact .empty
  unfold deleteHistory
  rw [hstore]
  cases hsave : store.save with
  | mk history result =>
      cases result with
      | ok _ =>
          refine ⟨rfl, Or.inr rfl, Or.inr ⟨store, hfollows, by rw [hsave], fun e => ?_⟩⟩
          simp [hsave, Except.map]
      | error cause =>
          refine ⟨rfl, Or.inl rfl, Or.inr ⟨store, hfollows, by rw [hsave], fun e => ?_⟩⟩
          simp [hsave, Except.map]

/-- **What one operation does**, whichever it is and whether or not it fails. -/
theorem stepped_perform (s : Session β) (op : Op) :
    Stepped s (s.perform op).1 (s.perform op).2 := by
  cases op with
  | change c => exact stepped_change s c
  | scanText text =>
      exact stepped_of_ingested (ingested_ingestLines s {} (Text.lines text)) _
  | scanFiles texts => exact stepped_of_ingested (ingested_ingestFiles s {} texts) _
  | deleteHistory => exact stepped_deleteHistory s

/-- No step makes a value repeat. -/
theorem Stepped.noRepeats {s t : Session β} {answer : Except SessionError Answer}
    (h : Stepped s t answer) (hs : s.history.document.NoRepeats) :
    t.history.document.NoRepeats := by
  rcases h.history with ⟨hsame, _⟩ | ⟨store, hfollows, hsave, _⟩
  · rw [hsame]
    exact hs
  · rw [hsave, Store.document_save]
    exact hs.of_follows hfollows

/-! ## Sessions that are reached -/

/-- A session is opened as its history is, with nothing observed yet. -/
theorem openOn_eq_ok {registry : Registry} {medium : β} {s : Session β} :
    Session.openOn registry medium = .ok s ↔
      Store.openOn medium = .ok s.history ∧ s.registry = registry ∧ s.lastLine = none := by
  unfold Session.openOn
  cases Store.openOn medium with
  | error e => simp
  | ok history =>
      obtain ⟨own, store, line⟩ := s
      simp only [Except.ok.injEq, Session.mk.injEq]
      exact ⟨fun ⟨hregistry, hhistory, hline⟩ => ⟨hhistory, hregistry.symm, hline.symm⟩,
        fun ⟨hhistory, hregistry, hline⟩ => ⟨hregistry.symm, hhistory, hline.symm⟩⟩

/-- A session whose medium opens as its history. -/
def Settled (s : Session β) : Prop :=
  Store.openOn s.history.medium = .ok s.history

/-- The sessions that come about from an opening: by operations, successful or not,
by lines that are observed, and by new settings. -/
inductive Reached : Session β → Prop where
  | opened {registry : Registry} {medium : β} {s : Session β}
      (h : Session.openOn registry medium = .ok s) : Reached s
  | perform {s : Session β} (h : Reached s) (op : Op) : Reached (s.perform op).1
  | observe {s : Session β} (h : Reached s) (line : Text) : Reached (s.observe line).1
  | reload {s : Session β} (h : Reached s) (settings : Settings) : Reached (s.reload settings).1

/-- The document of every session is without repeats. -/
theorem Reached.noRepeats {s : Session β} (h : Reached s) : s.history.document.NoRepeats := by
  induction h with
  | opened hopen => exact Store.noRepeats_of_openOn (openOn_eq_ok.1 hopen).1
  | perform _ op ih => exact (stepped_perform _ op).noRepeats ih
  | observe _ line ih =>
      rw [history_observe]
      exact ih
  | reload _ settings ih =>
      rw [history_reload]
      exact ih

end Session

end Tagline
