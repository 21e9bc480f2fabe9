import Tagline.Proofs.History.Gathering
import Tagline.Proofs.History.Removing
import Tagline.Proofs.Session.Completed

/-!
# Forgetting a value from the shell

The command `forget` takes a database, a key and a value.  The database and the key each end
at the first blank behind them, and what is left is the value.  Of a recorded entry the
database has no blanks and the value neither begins nor ends with one, so those two are read
back however they are spaced.  The key need not be: a second blank in front of it ends an empty
key, and a blank inside it ends its first word.  Neither is a variant of the key, so the
command asks for a value of another list, and the entry stays.  Only an empty key is not cut
off too early by a wide gap.

* `Document.stored?_remove_of_mem` — what removing an entry by its own names does;
* `Session.worded_recordLines` — what the parts of a recorded entry look like;
* `Shell.feed_forget`, `Shell.forget_of_parts` — how the command line is taken apart;
* `Shell.forget_of_fits`, `Shell.forget_of_not_fits` — which key is read;
* `Shell.forgets_iff` — when the command takes the entry out.
-/

namespace Tagline

/-! ## Removing an entry by its own names -/

namespace Document

/-- Exact names are found first, where they stand. -/
theorem place_of_stored? {d : Document} {name key : Text} {list : List Text}
    (h : d.stored? name key = some list) : d.place name key = (name, key) := by
  obtain ⟨buckets, hbuckets, hlist⟩ := Option.bind_eq_some_iff.1 h
  have hfound : d.found? name key = some ((name, key), list) := by
    rw [found?, SortedMap.find?_of_get? hbuckets, Option.bind_some,
      SortedMap.find?_of_get? hlist, Option.map_some]
  exact (found?_eq_some hfound).1.symm

/-- The values of a list that stands under exact names are its own. -/
theorem values_of_stored?_self {d : Document} {name key : Text} {list : List Text}
    (h : d.stored? name key = some list) : d.values name key = list := by
  rw [values, bucket?_of_stored? h, Option.getD_some]

/-- **Removing an entry by its own names** takes its value out of its list, and leaves all
other lists alone. -/
theorem stored?_remove_of_mem {d : Document} (hrepeats : d.NoRepeats) {e : Entry}
    (he : e ∈ d.entries) (name key : Text) :
    (d.remove e).stored? name key =
      if (name, key) = (e.database, e.key) then (d.stored? name key).map (·.erase e.value)
      else d.stored? name key := by
  obtain ⟨list, hlist, hvalue⟩ := mem_entries.1 he
  have hplace := place_of_stored? hlist
  by_cases hown : (name, key) = (e.database, e.key)
  · obtain ⟨rfl, rfl⟩ := Prod.mk.inj hown
    have hvalues := values_of_stored?_self hlist
    have hheld : d.contains e.database e.key e.value = true :=
      contains_eq_true.2 ⟨e.value, hvalues ▸ hvalue, Text.alike_refl _⟩
    have herase : ((d.values e.database e.key).eraseP fun v => Text.alike v e.value)
        = list.erase e.value := by
      rw [(hrepeats.values _ _).eraseP_eq_erase (hvalues ▸ hvalue), hvalues]
    rw [remove, if_pos hheld, stored?_setBucket,
      if_pos ⟨(congrArg Prod.fst hplace).symm, (congrArg Prod.snd hplace).symm⟩, if_pos rfl,
      hlist, herase, Option.map_some]
  · rw [if_neg hown, stored?_remove_of_ne (hplace ▸ hown)]

/-- After its removal an entry is not there. -/
theorem not_mem_entries_remove {d : Document} (hrepeats : d.NoRepeats) {e : Entry}
    (he : e ∈ d.entries) : e ∉ (d.remove e).entries := by
  obtain ⟨list, hlist, _⟩ := mem_entries.1 he
  intro hafter
  obtain ⟨rest, hrest, hvalue⟩ := mem_entries.1 hafter
  rw [stored?_remove_of_mem hrepeats he, if_pos rfl, hlist, Option.map_some] at hrest
  have hnodup : list.Nodup := by
    rw [← values_of_stored?_self hlist]
    exact (hrepeats.values _ _).nodup
  rw [← Option.some.inj hrest, hnodup.mem_erase_iff] at hvalue
  exact hvalue.1 rfl

/-- A removal under a key that is no variant of that of an entry leaves the entry. -/
theorem mem_entries_remove_of_not_alike {d : Document} {e : Entry} (he : e ∈ d.entries)
    {key : Text} (hkey : Text.alike key e.key = false) (value : Text) :
    e ∈ (d.remove ⟨e.database, key, value⟩).entries := by
  obtain ⟨list, hlist, hvalue⟩ := mem_entries.1 he
  refine mem_entries.2 ⟨list, ?_, hvalue⟩
  rw [stored?_remove_of_ne, hlist]
  intro hplace
  have hname : e.key = (d.bucketsAt e.database).spelling key := congrArg Prod.snd hplace
  have hspelling := (d.bucketsAt e.database).alike_spelling key
  rw [← hname] at hspelling
  rw [Text.alike_symm hspelling] at hkey
  cases hkey

end Document

/-! ## Recorded entries -/

/-- The database is one word, and the value neither is empty nor has blanks around it. -/
structure Entry.Worded (e : Entry) : Prop where
  database_ne : e.database ≠ []
  database_char : ∀ c ∈ e.database, Text.isBlank c = false
  value_ne : e.value ≠ []
  value_trimmed : Text.Trimmed e.value

/-- Variants look the same. -/
theorem Entry.Worded.of_lower_eq {e x : Entry} (h : e.Worded) (heq : x.lower = e.lower) :
    x.Worded := by
  have hdatabase := isSpelling_of_alike (Text.alike_iff.2 (congrArg Entry.database heq))
    (Text.trimmed_of_no_blank h.database_char) h.database_ne
  have hvalue := isSpelling_of_alike (Text.alike_iff.2 (congrArg Entry.value heq))
    h.value_trimmed h.value_ne
  exact ⟨hdatabase.ne, hdatabase.blank h.database_char, hvalue.ne, hvalue.trimmed⟩

/-- The entries of a record are worded. -/
theorem Record.worded_of_mem_entries {r : Record} {d : Database} (hd : d.Accepted) {e : Entry}
    (h : e ∈ r.entries d) : e.Worded := by
  obtain ⟨_, _, _, _, _, _, v, _, hne, rfl⟩ := mem_entries_iff.1 h
  exact ⟨hd.name_ne, fun c hc => (hd.name_char c hc).2, hne, Text.trimmed_normalize v⟩

/-- A delta of worded entries leaves a document of such. -/
theorem Document.worded_apply {d : Document} {delta : Delta} (h : ∀ e ∈ d.entries, e.Worded)
    (hdelta : ∀ e ∈ delta.entries, e.Worded) : ∀ e ∈ (d.apply delta).entries, e.Worded := by
  intro e he
  rcases mem_gathered_apply.1 (mem_gathered.2 ⟨e, he, rfl⟩) with hold | ⟨x, hx, heq⟩
  · obtain ⟨x, hx, heq⟩ := mem_gathered.1 hold
    exact (h x hx).of_lower_eq heq.symm
  · exact (hdelta x hx).of_lower_eq heq.symm

namespace Session

/-- What a line adds is worded. -/
theorem worded_lineDelta {r : Registry} (haccepted : ∀ d ∈ r.databases, d.Accepted)
    (d : Document) (line : Text) : ∀ e ∈ (Change.lineDelta r d line).entries, e.Worded := by
  unfold Change.lineDelta
  split
  · simp
  · split
    · simp
    · next database hdatabase =>
        intro e he
        exact Record.worded_of_mem_entries
          (haccepted database (Registry.mem_of_database? hdatabase)) (Document.mem_diff.1 he).1

/-- So are all entries when lines have been taken in. -/
theorem worded_withLines {r : Registry} (haccepted : ∀ d ∈ r.databases, d.Accepted)
    {d : Document} (h : ∀ e ∈ d.entries, e.Worded) (lines : List Text) :
    ∀ e ∈ (withLines r d lines).entries, e.Worded := by
  induction lines generalizing d with
  | nil => exact h
  | cons line lines ih => exact ih (Document.worded_apply h (worded_lineDelta haccepted d line))

/-- Lines bring no repeats. -/
theorem noRepeats_withLines (r : Registry) {d : Document} (h : d.NoRepeats)
    (lines : List Text) : (withLines r d lines).NoRepeats := by
  induction lines generalizing d with
  | nil => exact h
  | cons line lines ih => exact ih (h.apply _)

variable {β : Type} [Medium β]

/-- Records several lines, one after another, whether or not they can be read and saved. -/
def recordLines (s : Session β) (lines : List Text) : Session β :=
  lines.foldl (fun s line => (s.recordLine line).1) s

/-- A line that is recorded leaves the databases. -/
theorem registry_recordLine (s : Session β) (line : Text) :
    (s.recordLine line).1.registry = s.registry :=
  (stepped_perform s (.change (.record line))).registry

/-- Recording lines takes them in, one by one. -/
theorem document_recordLines (s : Session β) (lines : List Text) :
    (s.recordLines lines).history.document
      = withLines s.registry s.history.document lines := by
  induction lines generalizing s with
  | nil => rfl
  | cons line lines ih =>
      rw [recordLines, List.foldl_cons, ← recordLines, ih, registry_recordLine,
        document_recordLine]
      rfl

/-- **The entries of a history that was built by recording lines** are worded. -/
theorem worded_recordLines {settings : Settings} {s : Session β}
    (hsettings : Registry.ofSettings settings = .ok s.registry)
    (hempty : s.history.document = Document.empty) (lines : List Text) :
    (∀ e ∈ (s.recordLines lines).history.document.entries, e.Worded) ∧
      (s.recordLines lines).history.document.NoRepeats := by
  rw [document_recordLines, hempty]
  refine ⟨worded_withLines (Registry.accepted_of_ofSettings hsettings) ?_ lines,
    noRepeats_withLines _ Document.noRepeats_empty lines⟩
  intro e he
  obtain ⟨list, hlist, _⟩ := Document.mem_entries.1 he
  cases hlist

/-- What forgetting does to the document, saved or not. -/
theorem document_forget (s : Session β) (database key value : Text) :
    (s.forget database key value).1.history.document
      = s.history.document.remove ⟨database, key, value⟩ := by
  have hremoved := s.history.document_removeValue database key value
  unfold forget
  dsimp only
  split
  · rw [document_saving, hremoved]
  · exact hremoved

end Session

/-! ## The command line -/

/-- A text is cut at its first character of a class. -/
theorem cutWhere_append {p : Char → Bool} {front : Text} {c : Char}
    (hfront : ∀ x ∈ front, p x = false) (hc : p c = true) (behind : Text) :
    cutWhere p (front ++ c :: behind) = some (front, behind) := by
  have htake : (front ++ c :: behind).takeWhile (fun x => !p x) = front := by
    rw [List.takeWhile_append_of_pos fun x hx => by simp [hfront x hx]]
    simp [hc]
  have hdrop : (front ++ c :: behind).dropWhile (fun x => !p x) = c :: behind := by
    rw [List.dropWhile_append_of_pos fun x hx => by simp [hfront x hx]]
    simp [hc]
  rw [cutWhere, hdrop, htake]

/-- A text that holds a blank holds a first one. -/
theorem Text.exists_first_blank {t : Text} (h : ∃ c ∈ t, isBlank c = true) :
    ∃ word c rest, t = word ++ c :: rest ∧ (∀ x ∈ word, isBlank x = false) ∧
      isBlank c = true := by
  obtain ⟨c, hfind⟩ := Option.isSome_iff_exists.1 (List.find?_isSome.2 h)
  obtain ⟨hc, word, rest, ht, hword⟩ := List.find?_eq_some_iff_append.1 hfind
  exact ⟨word, c, rest, ht, fun x hx => by simpa using hword x hx, hc⟩

/-- Blanks, at least one. -/
def Text.IsGap (t : Text) : Prop :=
  t ≠ [] ∧ ∀ c ∈ t, isBlank c = true

instance (t : Text) : Decidable t.IsGap :=
  decidable_of_iff (t ≠ [] ∧ t.all Text.isBlank = true) (by rw [Text.IsGap, List.all_eq_true])

/-- A gap is a blank with others behind it, or none. -/
theorem Text.IsGap.exists_cons {t : Text} (h : t.IsGap) :
    ∃ b rest, t = b :: rest ∧ isBlank b = true ∧ ∀ c ∈ rest, isBlank c = true := by
  obtain ⟨b, rest, rfl⟩ := List.exists_cons_of_ne_nil h.1
  exact ⟨b, rest, rfl, List.forall_mem_cons.1 h.2⟩

namespace Shell

variable {s : Shell}

/-- **How the command is found**: the argument is what stands behind the blanks. -/
theorem feed_forget (hfinished : s.finished = false) (hquestion : s.question = none)
    {gap argument : Text} (hgap : gap.IsGap) (hargument : Text.Trimmed argument)
    (hne : argument ≠ []) :
    s.feed ("\\forget" ++ gap ++ argument) = s.forget argument := by
  have hword : "\\forget".toList.any Text.isBlank = false := by decide
  have hname : ∀ c ∈ "\\forget".toList, Text.isBlank c = false := fun c hc =>
    Bool.eq_false_iff.2 (List.any_eq_false.1 hword c hc)
  have htrim : Text.trim ("\\forget" ++ gap ++ argument) = "\\forget" ++ gap ++ argument :=
    Text.trim_of_trimmed (Text.trimmed_word_append hname (by decide) hargument hne gap)
  obtain ⟨b, gap, rfl, hb, hblanks⟩ := hgap.exists_cons
  have hsplit : splitCommand ("\\forget" ++ (b :: gap) ++ argument)
      = ("\\forget".toList, argument) := by
    rw [splitCommand, List.append_assoc, List.cons_append, cutWhere_append hname hb]
    exact congrArg _ (Text.trim_append_of_trimmed hblanks hargument)
  have hcommand : s.command ("\\forget" ++ (b :: gap) ++ argument) = s.forget argument := by
    rw [command, hsplit]
    rfl
  rw [feed, hfinished, hquestion]
  simp only [Bool.false_eq_true, if_false]
  rw [takeLine, htrim]
  exact hcommand

/-- **How the argument is taken apart**: at the first blank, and again at the first blank
behind it. -/
theorem forget_of_parts {database key rest : Text} {b c : Char}
    (hdatabase : ∀ x ∈ database, Text.isBlank x = false) (hb : Text.isBlank b = true)
    (hkey : ∀ x ∈ key, Text.isBlank x = false) (hc : Text.isBlank c = true) :
    s.forget (database ++ b :: (key ++ c :: rest))
      = s.report (s.session.forget database key (Text.trim rest))
          (forgotten database key (Text.trim rest)) := by
  rw [forget, cutWhere_append hdatabase hb]
  simp only [Option.bind_eq_bind, Option.bind_some, cutWhere_append hkey hc]
  rfl

/-- The key that is read behind a gap is the key that stands there: it is a single word
behind a single blank, or it is empty. -/
def KeyFits (gap key : Text) : Prop :=
  key = [] ∨ gap.length = 1 ∧ ∀ c ∈ key, Text.isBlank c = false

instance (gap key : Text) : Decidable (KeyFits gap key) :=
  decidable_of_iff (key = [] ∨ gap.length = 1 ∧ key.any Text.isBlank = false) (by simp [KeyFits])

section Argument

variable {e : Entry} (he : e.Worded) {gap gap' : Text} (hgap : gap.IsGap)

include he hgap

/-- **A key that fits is read**, with the value behind it. -/
theorem forget_of_fits (hgap' : gap'.IsGap) (hfits : KeyFits gap e.key) :
    s.forget (e.database ++ gap ++ e.key ++ gap' ++ e.value)
      = s.report (s.session.forget e.database e.key e.value)
          (forgotten e.database e.key e.value) := by
  obtain ⟨b, gap, rfl, hb, hblanks⟩ := hgap.exists_cons
  rcases hfits with hnil | ⟨hone, hkey⟩
  · -- The blanks on both sides of the empty key are one gap, which two cuts shorten.
    have hboth : Text.IsGap (gap ++ gap') :=
      ⟨List.append_ne_nil_of_right_ne_nil gap hgap'.1,
        by simpa [or_imp, forall_and] using And.intro hblanks hgap'.2⟩
    obtain ⟨c, blanks, hrest, hc, hblanks⟩ := hboth.exists_cons
    have hline : e.database ++ b :: gap ++ e.key ++ gap' ++ e.value
        = e.database ++ b :: ([] ++ c :: (blanks ++ e.value)) := by
      rw [hnil, List.append_nil, List.append_assoc _ (b :: gap), List.cons_append, hrest]
      simp
    rw [hline, forget_of_parts he.database_char hb (by simp) hc,
      Text.trim_append_of_trimmed hblanks he.value_trimmed, hnil]
  · obtain rfl : gap = [] := by simpa using hone
    obtain ⟨c, blanks, rfl, hc, hblanks'⟩ := hgap'.exists_cons
    have hline : e.database ++ [b] ++ e.key ++ c :: blanks ++ e.value
        = e.database ++ b :: (e.key ++ c :: (blanks ++ e.value)) := by simp
    rw [hline, forget_of_parts he.database_char hb hkey hc,
      Text.trim_append_of_trimmed hblanks' he.value_trimmed]

/-- **Of any other key** an empty beginning is read, or its first word, and neither is a
variant of the key. -/
theorem forget_of_not_fits (hnot : ¬ KeyFits gap e.key) :
    ∃ key value, Text.alike key e.key = false ∧
      s.forget (e.database ++ gap ++ e.key ++ gap' ++ e.value)
        = s.report (s.session.forget e.database key value)
            (forgotten e.database key value) := by
  rw [KeyFits, not_or, not_and_or] at hnot
  obtain ⟨b, gap, rfl, hb, hblanks⟩ := hgap.exists_cons
  cases gap with
  | cons c gap =>
      refine ⟨[], Text.trim (gap ++ e.key ++ gap' ++ e.value), ?_, ?_⟩
      · rw [← Bool.not_eq_true]
        exact fun halike => hnot.1 ((Text.eq_nil_iff_of_alike halike).1 rfl)
      · have hline : e.database ++ b :: c :: gap ++ e.key ++ gap' ++ e.value
            = e.database ++ b :: ([] ++ c :: (gap ++ e.key ++ gap' ++ e.value)) := by simp
        rw [hline]
        exact forget_of_parts he.database_char hb (by simp) (hblanks c List.mem_cons_self)
  | nil =>
      have hblank : ∃ c ∈ e.key, Text.isBlank c = true := by
        simpa using hnot.2.resolve_left (by simp)
      obtain ⟨word, c, rest, hkey, hword, hc⟩ :
          ∃ word c rest, e.key = word ++ c :: rest ∧ (∀ x ∈ word, Text.isBlank x = false) ∧
            Text.isBlank c = true :=
        Text.exists_first_blank hblank
      refine ⟨word, Text.trim (rest ++ gap' ++ e.value), ?_, ?_⟩
      · rw [← Bool.not_eq_true]
        intro halike
        have hmem : c ∈ word := (Text.mem_iff_of_alike halike (Text.isMark_of_isBlank hc)).2
          (by simp [hkey])
        rw [hword c hmem] at hc
        cases hc
      · have hline : e.database ++ [b] ++ e.key ++ gap' ++ e.value
            = e.database ++ b :: (word ++ c :: (rest ++ gap' ++ e.value)) := by simp [hkey]
        rw [hline]
        exact forget_of_parts he.database_char hb hword hc

end Argument

/-- The command line for an entry, with gaps between its words. -/
def forgetLine (e : Entry) (gap₁ gap₂ gap₃ : Text) : Text :=
  "\\forget" ++ gap₁ ++ (e.database ++ gap₂ ++ e.key ++ gap₃ ++ e.value)

/-- What the shell remembers. -/
def document (s : Shell) : Document :=
  s.session.history.document

/-- The document of a shell is what a request leaves of it. -/
theorem document_report {α : Type} (s : Shell)
    (result : Session HistoryFile × Except SessionError α) (onSuccess : α → Printed) :
    (s.report result onSuccess).1.document = result.1.history.document := by
  rw [shell_report]
  rfl

/-- **When the shell forgets an entry.**  In a history that was built by recording lines, the
command with the database, the key and the value of an entry takes the entry out exactly if
the key is a single word behind a single blank, or empty; the other gaps may be as wide as
they like.  Then the command does what the session does when it is asked to forget the entry,
and nothing else changes in the history. -/
theorem forgets_iff {β : Type} [Medium β] {settings : Settings} {recorder : Session β}
    (hsettings : Registry.ofSettings settings = .ok recorder.registry)
    (hempty : recorder.history.document = Document.empty) (lines : List Text)
    (hdocument : s.document = (recorder.recordLines lines).history.document)
    (hfinished : s.finished = false) (hquestion : s.question = none) {e : Entry}
    (he : e ∈ s.document.entries) {gap₁ gap₂ gap₃ : Text} (hgap₁ : gap₁.IsGap)
    (hgap₂ : gap₂.IsGap) (hgap₃ : gap₃.IsGap) :
    (e ∉ (s.feed (forgetLine e gap₁ gap₂ gap₃)).1.document.entries ↔ KeyFits gap₂ e.key) ∧
    (KeyFits gap₂ e.key →
      s.feed (forgetLine e gap₁ gap₂ gap₃)
        = s.report (s.session.forget e.database e.key e.value)
            (forgotten e.database e.key e.value) ∧
      ∀ name key, (s.feed (forgetLine e gap₁ gap₂ gap₃)).1.document.stored? name key =
        if (name, key) = (e.database, e.key) then (s.document.stored? name key).map (·.erase e.value)
        else s.document.stored? name key) := by
  obtain ⟨hworded, hrepeats⟩ := Session.worded_recordLines hsettings hempty lines
  rw [← hdocument] at hworded hrepeats
  have hwords := hworded e he
  have hargument : Text.Trimmed (e.database ++ gap₂ ++ e.key ++ gap₃ ++ e.value) := by
    have h := Text.trimmed_word_append hwords.database_char hwords.database_ne
      hwords.value_trimmed hwords.value_ne (gap₂ ++ e.key ++ gap₃)
    simpa using h
  have hfeed : s.feed (forgetLine e gap₁ gap₂ gap₃)
      = s.forget (e.database ++ gap₂ ++ e.key ++ gap₃ ++ e.value) :=
    feed_forget hfinished hquestion hgap₁ hargument (by simp [hwords.database_ne])
  by_cases hfits : KeyFits gap₂ e.key
  · have hforget := forget_of_fits hwords hgap₂ hgap₃ hfits (s := s)
    rw [hfeed, hforget, document_report, Session.document_forget]
    exact ⟨iff_of_true (Document.not_mem_entries_remove hrepeats he) hfits,
      fun _ => ⟨rfl, Document.stored?_remove_of_mem hrepeats he⟩⟩
  · obtain ⟨key, value, hkey, hforget⟩ := forget_of_not_fits hwords hgap₂ hfits (s := s)
    rw [hfeed, hforget, document_report, Session.document_forget]
    have hstays := Document.mem_entries_remove_of_not_alike he hkey value
    exact ⟨iff_of_false (not_not_intro hstays) hfits, fun h => absurd h hfits⟩

/-- Settings with two remembered parameters, one of which has a name of two words. -/
def pulseSettings : Settings where
  databases :=
    [ { database := "Gym"
        params := ["Gear", "Heart Rate"]
        fields := SortedMap.ofList
          [("Gear", { allowed := some .history }), ("Heart Rate", { allowed := some .history })] } ]

/-- A fresh session with those settings. -/
def pulseSession : Session Memory where
  registry :=
    { databases :=
        [ { name := "Gym"
            typeField := { name := "Type" }
            params :=
              [ { name := "Gear", policy := .history ⟨[], []⟩ },
                { name := "Heart Rate", policy := .history ⟨[], []⟩ } ] } ] }
  history := { medium := {} }

/-- A shell with what was recorded in the session. -/
def pulseShell : Shell where
  session :=
    { registry := pulseSession.registry
      history :=
        { medium := ⟨"history.json", ⟨[]⟩⟩
          document := (pulseSession.recordLines ["#Gym jump rope;120"]).history.document } }
  settingsPath := "settings.json"
  format := .table
  confirm := false

/-- A value of two words, under a key of one word. -/
def ropeEntry : Entry := ⟨"Gym", "Gear", "Jump Rope"⟩

/-- A value under a key of two words. -/
def pulseEntry : Entry := ⟨"Gym", "Heart Rate", "120"⟩

/-- A value of two words is forgotten, with wide gaps in front of the database and behind the
key; with a wide gap in front of the key it stays, and so does the value of a key of two
words. -/
theorem forgets_iff_pulse :
    Registry.ofSettings pulseSettings = .ok pulseSession.registry ∧
      ropeEntry ∈ pulseShell.document.entries ∧ pulseEntry ∈ pulseShell.document.entries ∧
      ropeEntry ∉ (pulseShell.feed "\\forget  Gym Gear   Jump Rope").1.document.entries ∧
      ropeEntry ∈ (pulseShell.feed "\\forget Gym  Gear Jump Rope").1.document.entries ∧
      pulseEntry ∈ (pulseShell.feed "\\forget Gym Heart Rate 120").1.document.entries := by
  have hsettings : Registry.ofSettings pulseSettings = .ok pulseSession.registry := rfl
  have hrope : ropeEntry ∈ pulseShell.document.entries := by decide +kernel
  have hpulse : pulseEntry ∈ pulseShell.document.entries := by decide +kernel
  have hone : Text.IsGap " " := by decide
  have htwo : Text.IsGap "  " := by decide
  have hthree : Text.IsGap "   " := by decide
  have hfits : KeyFits " " ropeEntry.key := by decide
  have hwide : ¬ KeyFits "  " ropeEntry.key := by decide
  have hwords : ¬ KeyFits " " pulseEntry.key := by decide
  have hgear : forgetLine ropeEntry "  " " " "   "
      = "\\forget  Gym Gear   Jump Rope".toList := by decide
  have hgap : forgetLine ropeEntry " " "  " " " = "\\forget Gym  Gear Jump Rope".toList := by
    decide
  have hrate : forgetLine pulseEntry " " " " " " = "\\forget Gym Heart Rate 120".toList := by
    decide
  obtain ⟨hgone, _⟩ := forgets_iff hsettings rfl _ (s := pulseShell) rfl rfl rfl hrope
    htwo hone hthree
  obtain ⟨hstays, _⟩ := forgets_iff hsettings rfl _ (s := pulseShell) rfl rfl rfl hrope
    hone htwo hone
  obtain ⟨hstays', _⟩ := forgets_iff hsettings rfl _ (s := pulseShell) rfl rfl rfl hpulse
    hone hone hone
  rw [hgear] at hgone
  rw [hgap] at hstays
  rw [hrate] at hstays'
  exact ⟨hsettings, hrope, hpulse, hgone.2 hfits, not_not.1 fun h => hwide (hstays.1 h),
    not_not.1 fun h => hwords (hstays'.1 h)⟩

end Shell

end Tagline
