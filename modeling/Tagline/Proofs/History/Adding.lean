import Tagline.Proofs.History.Lookup
import Tagline.Proofs.Record

/-!
# Adding a record

A record is added in two steps: first what the document does not hold is found, then it is
put in its place.  Each step looks for the lists of the record in its own way, and while the
second one is under way the document changes: the fields of a record may share a list, also
one whose key is spelled in two ways, and the document may hold several spellings of a name.

In between stands the question whether the document **remembers** the record: whether it
holds, ignoring case, each value of each field that has a list.  Nothing is found exactly if
the document remembers the record (`Document.diff_eq_empty_iff`), and whatever is found is
remembered afterwards, since an addition never hides a value.  So a record that has been added
finds nothing when it comes again.

* `Document.foldl_grow` — the additions as one loop over a growing document, which notes
  whether a list grew;
* `Document.diff_eq_empty_iff` — a record adds nothing if it is remembered;
* `Store.adding_settles` — what an addition does, and that a second one does nothing.
-/

namespace Tagline

namespace Document

/-! ## Additions as a loop -/

/-- Adds an entry to the list under the spellings that are found, unless that list holds it,
and notes that a list grew. -/
def grow : Document × Bool → Entry → Document × Bool
  | (d, grew), e =>
      let list := (d.stored? (d.databases.spelling e.database)
        ((d.bucketsAt e.database).spelling e.key)).getD []
      if list.any fun v => Text.alike v e.value then (d, grew)
      else (d.setBucket e.database e.key (list ++ [e.value]), true)

theorem grow_eq (d : Document) (grew : Bool) (e : Entry) :
    grow (d, grew) e = (d.add e, grew || !d.contains e.database e.key e.value) := by
  have hlist : (d.stored? (d.databases.spelling e.database)
      ((d.bucketsAt e.database).spelling e.key)).getD [] = d.values e.database e.key := by
    rw [values, bucket?_eq_stored?]
  have hany : (d.values e.database e.key).any (fun v => Text.alike v e.value)
      = d.contains e.database e.key e.value := rfl
  simp only [grow, hlist, hany]
  cases hheld : d.contains e.database e.key e.value with
  | true => simp [add_eq_self hheld]
  | false => simp [add, hheld]

/-- **The loop makes the document of `apply`** and notes what `grows` says beforehand. -/
theorem foldl_grow (d : Document) (grew : Bool) (es : List Entry) :
    es.foldl grow (d, grew) = (d.apply ⟨es⟩, grew || d.grows ⟨es⟩) := by
  induction es generalizing d grew with
  | nil => simp [apply, grows]
  | cons e es ih =>
      rw [List.foldl_cons, grow_eq, ih]
      refine Prod.ext rfl ?_
      cases hheld : d.contains e.database e.key e.value with
      | true => simp [add_eq_self hheld, grows, hheld]
      | false => simp [grows, hheld]

/-! ## Records that are remembered -/

/-- A document remembers a record if it holds, ignoring case, the normal spelling of every
value that is not blank, for every field that remembers and has a key. -/
def Remembers (doc : Document) (d : Database) (r : Record) : Prop :=
  r.daily = false → ∀ f ∈ d.fields, f.policy.recordsHistory = true →
    ∀ key, f.historyKey d.typeField.name r.typeValue = some key →
      ∀ v ∈ r.valuesOf f.name d.typeField.name, Text.trim v ≠ [] →
        ∃ w ∈ doc.values d.name key, Text.alike w (Text.normalize v) = true

variable {doc : Document} {d : Database} {r : Record}

theorem remembers_iff :
    doc.Remembers d r ↔ ∀ e ∈ r.entries d, doc.contains e.database e.key e.value = true := by
  constructor
  · intro h e he
    obtain ⟨hdaily, f, hf, hremembers, key, hkey, v, hv, hne, rfl⟩ := Record.mem_entries_iff.1 he
    exact contains_eq_true.2 (h hdaily f hf hremembers key hkey v hv
      (mt Text.normalize_eq_nil_iff.2 hne))
  · intro h hdaily f hf hremembers key hkey v hv hne
    have hentry : (⟨d.name, key, Text.normalize v⟩ : Entry) ∈ r.entries d :=
      Record.mem_entries_iff.2 ⟨hdaily, f, hf, hremembers, key, hkey, v, hv,
        mt Text.normalize_eq_nil_iff.1 hne, rfl⟩
    exact contains_eq_true.1 (h _ hentry)

/-- **A record adds nothing** exactly if it is remembered. -/
theorem diff_eq_empty_iff : doc.diff d r = {} ↔ doc.Remembers d r := by
  rw [remembers_iff]
  constructor
  · intro hnone e he
    by_contra hnew
    have hmem := mem_diff.2 ⟨he, Bool.eq_false_iff.2 hnew⟩
    rw [hnone] at hmem
    exact List.not_mem_nil hmem
  · intro hheld
    have hnone : (doc.diff d r).entries = [] := by
      refine List.eq_nil_iff_forall_not_mem.2 fun e he => ?_
      obtain ⟨hmem, hnew⟩ := mem_diff.1 he
      rw [hheld e hmem] at hnew
      cases hnew
    exact congrArg Delta.mk hnone

/-- What a record adds makes a list grow if it is anything. -/
theorem grows_diff_iff : doc.grows (doc.diff d r) = true ↔ doc.diff d r ≠ {} := by
  rw [Ne, diff_eq_empty_iff, remembers_iff, ← grows_diff_eq_false, Bool.not_eq_false]

/-- **A record that has been added is remembered.** -/
theorem remembers_apply_diff : (doc.apply (doc.diff d r)).Remembers d r :=
  remembers_iff.2 fun _ he => contains_apply_diff he

end Document

/-- A value of a record that comes from a line is blank only if it is empty. -/
theorem Registry.trim_ne_nil_of_parse {registry : Registry} {line : Text} {o : Outcome}
    (h : registry.parse line = .ok o) (hdaily : o.record.daily = false) {field typeField v : Text}
    (hv : v ∈ o.record.valuesOf field typeField) (hne : v ≠ []) : Text.trim v ≠ [] := by
  rwa [Text.trim_of_trimmed ((Registry.tidy_of_parse h hdaily).of_mem_valuesOf hv)]

namespace Store

variable {β : Type}

theorem apply_of_diff_eq_empty {s : Store β} {d : Database} {r : Record} (h : s.diff d r = {}) :
    s.apply (s.diff d r) = (s, false) := by
  rw [h]
  simp [apply, Document.grows, Document.apply]

/-- **Adding a record is finding what is new and putting it in its place, and doing so again
changes nothing.**  The answer that a list grew is given, and the store becomes dirty, exactly
if something is found; if nothing is found, the store stays as it is.  The answer is the same
if each entry is looked for when its turn comes.  Afterwards the document remembers the
record: each value that is not empty, if the record comes from a line.  So the record finds
nothing when it is added again. -/
theorem adding_settles (s : Store β) (d : Database) (r : Record) :
    s.addRecord d r = ((s.apply (s.diff d r)).1, s.diff d r) ∧
    ((s.apply (s.diff d r)).2 = true ↔ s.diff d r ≠ {}) ∧
    (s.diff d r).entries.foldl Document.grow (s.document, false)
      = ((s.addRecord d r).1.document, (s.apply (s.diff d r)).2) ∧
    ((s.addRecord d r).1.dirty = true ↔ s.dirty = true ∨ s.diff d r ≠ {}) ∧
    (s.diff d r = {} → (s.addRecord d r).1 = s) ∧
    (s.addRecord d r).1.document.Remembers d r ∧
    (∀ (registry : Registry) line o, registry.parse line = .ok o → o.record = r →
      r.daily = false → ∀ field, ∀ v ∈ r.valuesOf field d.typeField.name,
        v ≠ [] → Text.trim v ≠ []) ∧
    (s.addRecord d r).1.diff d r = {} ∧
    (s.addRecord d r).1.addRecord d r = ((s.addRecord d r).1, {}) := by
  have hremembers : (s.addRecord d r).1.document.Remembers d r := Document.remembers_apply_diff
  have hnone : (s.addRecord d r).1.diff d r = {} := Document.diff_eq_empty_iff.2 hremembers
  have hgrew : (s.apply (s.diff d r)).2 = true ↔ s.diff d r ≠ {} := Document.grows_diff_iff
  refine ⟨rfl, hgrew, ?_, ?_, fun h => ?_, hremembers, ?_, hnone, ?_⟩
  · rw [Document.foldl_grow, Bool.false_or]
    rfl
  · rw [← hgrew, addRecord, apply, Bool.or_eq_true]
  · rw [addRecord, apply_of_diff_eq_empty h]
  · rintro registry line o h rfl hdaily field v hv hne
    exact Registry.trim_ne_nil_of_parse h hdaily hv hne
  · rw [addRecord, apply_of_diff_eq_empty hnone, hnone]

/-- Two fields that share a list for a run, since the key of one is a variant of the name of
the other. -/
def lampDatabase : Database where
  name := "Exercise"
  typeField := { name := "Type" }
  params :=
    [ { name := "Gear", policy := .historyByType ⟨[], []⟩ },
      { name := "run-gear", policy := .history ⟨[], []⟩ } ]

/-- A run with the same lamp in both fields. -/
def lampRecord : Record where
  database := "Exercise"
  typeValue := some "Run"
  params := [⟨"Gear", .single "lamp"⟩, ⟨"run-gear", .single "LAMP"⟩]

/-- Both fields name the lamp as new, the list gets it once, and it is new no more. -/
theorem adding_settles_lamp :
    (Store.diff { medium := () } lampDatabase lampRecord).entries
        = [⟨"Exercise", "Run-Gear", "Lamp"⟩, ⟨"Exercise", "run-gear", "Lamp"⟩] ∧
      ((Store.addRecord { medium := () } lampDatabase lampRecord).1.values "exercise" "RUN-GEAR")
        = ["Lamp".toList] ∧
      (Store.addRecord { medium := () } lampDatabase lampRecord).1.dirty = true ∧
      (Store.addRecord { medium := () } lampDatabase lampRecord).1.diff lampDatabase lampRecord
        = {} := by
  have hdiff : (Store.diff { medium := () } lampDatabase lampRecord).entries
      = [⟨"Exercise", "Run-Gear", "Lamp"⟩, ⟨"Exercise", "run-gear", "Lamp"⟩] := by
    decide +kernel
  obtain ⟨_, _, _, hdirty, _, _, _, hnone, _⟩ :=
    adding_settles { medium := () } lampDatabase lampRecord
  refine ⟨hdiff, by decide +kernel, hdirty.2 (Or.inr fun h => ?_), hnone⟩
  rw [h] at hdiff
  cases hdiff

end Store

end Tagline
