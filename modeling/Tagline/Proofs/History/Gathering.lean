import Mathlib.Data.Finset.Insert
import Tagline.Proofs.History.Growth
import Tagline.Proofs.History.Lookup
import Tagline.Proofs.Record

/-!
# What a history gathers

Two histories that were fed the same records in another order hold other documents:
a name keeps the spelling in which it came first, and of two variants of a value the
first is stored.  What they have **gathered** is the same: the set of their entries
with all parts lower-cased.  Adding an entry puts its lower-cased form into that set,
whether or not the entry is stored, so a record contributes the same whatever the
history holds already.

This needs no assumption on the names of the document.  A look-up may miss a variant
of a name and store a value a second time, but only under another variant of the
names under which it stands.

Nothing is ever taken away: every list stays where it stands and only grows at its
end.

* `mem_entries_grown`, `gathered_add` — what one entry adds to the entries and to the
  set;
* `mem_gathered_apply_diff`, `Record.contributes_iff` — what one record adds;
* `Extends.add` — lists grow at their ends;
* `Store.mem_gathered_addRecords` — what a list of records adds.
-/

namespace Tagline

/-- An entry with its parts lower-cased. -/
def Entry.lower (e : Entry) : Entry :=
  ⟨Text.lower e.database, Text.lower e.key, Text.lower e.value⟩

/-- Variants are one entry in lower case. -/
theorem Entry.Variant.lower_eq {e x : Entry} (h : e.Variant x) : e.lower = x.lower := by
  rw [Entry.lower, Entry.lower, Text.alike_iff.1 h.database, Text.alike_iff.1 h.key,
    Text.alike_iff.1 h.value]

/-- What a record contributes to a history on its own: the lower-cased name of the
database, key of a field that remembers and normal spelling of one of its values.  A
value of nothing but blanks has an empty normal spelling and is left out. -/
def Record.Contributes (r : Record) (d : Database) (x : Entry) : Prop :=
  r.daily = false ∧ ∃ f ∈ d.fields, f.policy.recordsHistory = true ∧
    ∃ key, f.historyKey d.typeField.name r.typeValue = some key ∧
      ∃ v ∈ r.valuesOf f.name d.typeField.name, Text.normalize v ≠ [] ∧
        x = ⟨Text.lower d.name, Text.lower key, Text.lower (Text.normalize v)⟩

/-- What a record contributes are its entries in lower case. -/
theorem Record.contributes_iff {r : Record} {d : Database} {x : Entry} :
    r.Contributes d x ↔ ∃ e ∈ r.entries d, e.lower = x := by
  constructor
  · rintro ⟨hdaily, f, hf, hremembers, key, hkey, v, hv, hne, rfl⟩
    exact ⟨_, mem_entries_iff.2 ⟨hdaily, f, hf, hremembers, key, hkey, v, hv, hne, rfl⟩, rfl⟩
  · rintro ⟨e, he, rfl⟩
    obtain ⟨hdaily, f, hf, hremembers, key, hkey, v, hv, hne, rfl⟩ := mem_entries_iff.1 he
    exact ⟨hdaily, f, hf, hremembers, key, hkey, v, hv, hne, rfl⟩

namespace Document

/-! ## The set of entries -/

/-- All entries of a document, under the names as they stand. -/
def entries (d : Document) : List Entry :=
  d.databases.entries.flatMap fun b => b.2.entries.flatMap fun l => l.2.map (⟨b.1, l.1, ·⟩)

/-- An entry stands in the list of its own names. -/
theorem mem_entries {d : Document} {e : Entry} :
    e ∈ d.entries ↔ ∃ list, d.stored? e.database e.key = some list ∧ e.value ∈ list := by
  simp only [entries, List.mem_flatMap, List.mem_map, Prod.exists, stored?,
    Option.bind_eq_some_iff, SortedMap.mem_entries_iff]
  constructor
  · rintro ⟨name, buckets, hbuckets, key, list, hlist, v, hv, rfl⟩
    exact ⟨list, ⟨buckets, hbuckets, hlist⟩, hv⟩
  · rintro ⟨list, ⟨buckets, hbuckets, hlist⟩, hv⟩
    exact ⟨_, buckets, hbuckets, _, list, hlist, _, hv, rfl⟩

/-- The set of the entries of a document, with their parts lower-cased. -/
def gathered (d : Document) : Finset Entry :=
  (d.entries.map Entry.lower).toFinset

/-- What is gathered are the entries in lower case. -/
theorem mem_gathered {d : Document} {x : Entry} :
    x ∈ d.gathered ↔ ∃ e ∈ d.entries, e.lower = x := by
  simp [gathered]

/-- An entry under the spellings under which a document finds its names. -/
def placed (d : Document) (e : Entry) : Entry :=
  ⟨d.databases.spelling e.database, (d.bucketsAt e.database).spelling e.key, e.value⟩

/-- An entry keeps its lower case where it is placed. -/
theorem lower_placed (d : Document) (e : Entry) : (d.placed e).lower = e.lower :=
  Entry.Variant.lower_eq ⟨d.databases.alike_spelling _,
    (d.bucketsAt e.database).alike_spelling _, Text.alike_refl _⟩

/-- The values that a look-up finds stand under the spellings it finds. -/
theorem placed_mem_entries {d : Document} {e : Entry} (h : e.value ∈ d.values e.database e.key) :
    d.placed e ∈ d.entries := by
  cases hstored : d.stored? (d.databases.spelling e.database)
      ((d.bucketsAt e.database).spelling e.key) with
  | none =>
      rw [values, bucket?_eq_stored?, hstored] at h
      exact absurd h List.not_mem_nil
  | some list =>
      rw [values_of_stored? hstored] at h
      exact mem_entries.2 ⟨list, hstored, h⟩

/-- What a document holds it has gathered. -/
theorem lower_mem_gathered {d : Document} {e : Entry}
    (h : d.contains e.database e.key e.value = true) : e.lower ∈ d.gathered := by
  obtain ⟨v, hv, halike⟩ := contains_eq_true.1 h
  have hvariant : Entry.Variant ⟨e.database, e.key, v⟩ e :=
    ⟨Text.alike_refl _, Text.alike_refl _, halike⟩
  exact mem_gathered.2 ⟨_, placed_mem_entries hv, (d.lower_placed _).trans hvariant.lower_eq⟩

/-- The entries after a change: those of the list that was put, and those that stand
elsewhere. -/
theorem mem_entries_setBucket {d : Document} {database key : Text} {list : List Text}
    {e : Entry} :
    e ∈ (d.setBucket database key list).entries ↔
      (e.database = d.databases.spelling database ∧
        e.key = (d.bucketsAt database).spelling key ∧ e.value ∈ list) ∨
      ¬ (e.database = d.databases.spelling database ∧
        e.key = (d.bucketsAt database).spelling key) ∧ e ∈ d.entries := by
  rw [mem_entries, mem_entries, stored?_setBucket]
  by_cases h : e.database = d.databases.spelling database ∧
      e.key = (d.bucketsAt database).spelling key
  · simp [h]
  · rw [if_neg h, and_iff_right h, or_iff_right fun hplace => h ⟨hplace.1, hplace.2.1⟩]

/-- The entries once a list has grown: one more, under the spellings that were found. -/
theorem mem_entries_grown {d : Document} {e y : Entry} :
    y ∈ (d.setBucket e.database e.key (d.values e.database e.key ++ [e.value])).entries ↔
      y = d.placed e ∨ y ∈ d.entries := by
  obtain ⟨name, key, v⟩ := y
  rw [mem_entries_setBucket]
  by_cases hplace : name = d.databases.spelling e.database ∧
      key = (d.bucketsAt e.database).spelling e.key
  · obtain ⟨rfl, rfl⟩ := hplace
    have hold : ⟨d.databases.spelling e.database, (d.bucketsAt e.database).spelling e.key, v⟩
        ∈ d.entries ↔ v ∈ d.values e.database e.key := by
      refine ⟨fun h => ?_, fun h => placed_mem_entries (e := ⟨e.database, e.key, v⟩) h⟩
      obtain ⟨list, hlist, hv⟩ := mem_entries.1 h
      rwa [values_of_stored? hlist]
    simp [hold, placed, or_comm]
  · have hne : (⟨name, key, v⟩ : Entry) ≠ d.placed e := by
      rintro heq
      exact hplace ⟨congrArg Entry.database heq, congrArg Entry.key heq⟩
    rw [or_iff_right fun h => hplace ⟨h.1, h.2.1⟩, and_iff_right hplace, or_iff_right hne]

/-- **What one entry adds to the set**: its lower-cased form, be it stored or not. -/
theorem gathered_add (d : Document) (e : Entry) :
    (d.add e).gathered = insert e.lower d.gathered := by
  rw [add]
  split
  · next hheld => rw [Finset.insert_eq_of_mem (lower_mem_gathered hheld)]
  · ext x
    simp only [Finset.mem_insert, mem_gathered, mem_entries_grown, or_and_right, exists_or,
      exists_eq_left, lower_placed, eq_comm]

/-- **A delta is gathered beside what was there.** -/
theorem mem_gathered_apply {d : Document} {delta : Delta} {x : Entry} :
    x ∈ (d.apply delta).gathered ↔ x ∈ d.gathered ∨ ∃ e ∈ delta.entries, e.lower = x := by
  rw [apply]
  generalize delta.entries = es
  induction es generalizing d with
  | nil => simp
  | cons e es ih =>
      rw [List.foldl_cons, ih, gathered_add, Finset.mem_insert, List.exists_mem_cons_iff,
        eq_comm (a := x), or_assoc, or_left_comm]

/-- **What one record adds to the set**, whatever of it the document holds. -/
theorem mem_gathered_apply_diff {doc : Document} {d : Database} {r : Record} {x : Entry} :
    x ∈ (doc.apply (doc.diff d r)).gathered ↔ x ∈ doc.gathered ∨ r.Contributes d x := by
  rw [mem_gathered_apply, Record.contributes_iff]
  constructor
  · rintro (hold | ⟨e, he, rfl⟩)
    · exact Or.inl hold
    · exact Or.inr ⟨e, (mem_diff.1 he).1, rfl⟩
  · rintro (hold | ⟨e, he, rfl⟩)
    · exact Or.inl hold
    · cases hheld : doc.contains e.database e.key e.value with
      | true => exact Or.inl (lower_mem_gathered hheld)
      | false => exact Or.inr ⟨e, mem_diff.2 ⟨he, hheld⟩, rfl⟩

/-! ## Lists that grow -/

/-- Every list of a document stands in another one under the same names, and is a
beginning of the list there. -/
def Extends (d d' : Document) : Prop :=
  ∀ name key list, d.stored? name key = some list →
    ∃ grown, d'.stored? name key = some grown ∧ list <+: grown

theorem Extends.refl (d : Document) : d.Extends d :=
  fun _ _ list h => ⟨list, h, List.prefix_rfl⟩

theorem Extends.trans {d d' d'' : Document} (h : d.Extends d') (h' : d'.Extends d'') :
    d.Extends d'' := by
  intro name key list hlist
  obtain ⟨grown, hgrown, hfirst⟩ := h name key list hlist
  obtain ⟨more, hmore, hsecond⟩ := h' name key grown hgrown
  exact ⟨more, hmore, hfirst.trans hsecond⟩

/-- **An addition lets one list grow at its end** and leaves all others as they are. -/
theorem extends_add (d : Document) (e : Entry) : d.Extends (d.add e) := by
  rw [add]
  split
  · exact .refl d
  · intro name key list hlist
    rw [stored?_setBucket]
    split
    · next hplace =>
        rw [hplace.1, hplace.2] at hlist
        have hvalues := values_of_stored? hlist
        exact ⟨_, rfl, hvalues ▸ List.prefix_append _ _⟩
    · exact ⟨list, hlist, List.prefix_rfl⟩

/-- A delta extends the lists. -/
theorem extends_apply (d : Document) (delta : Delta) : d.Extends (d.apply delta) :=
  apply_induction (fun _ e h => h.trans (extends_add _ e)) (.refl d) delta

end Document

/-! ## Records, one after another -/

namespace Store

variable {β : Type}

/-- Adds records, each of a database of its own. -/
def addRecords (s : Store β) (records : List (Database × Record)) : Store β :=
  records.foldl (fun s p => (s.addRecord p.1 p.2).1) s

/-- **Records are gathered beside what was there**, whichever comes first. -/
theorem mem_gathered_addRecords {s : Store β} {records : List (Database × Record)} {x : Entry} :
    x ∈ (s.addRecords records).document.gathered ↔
      x ∈ s.document.gathered ∨ ∃ p ∈ records, p.2.Contributes p.1 x := by
  induction records generalizing s with
  | nil => simp [addRecords]
  | cons p records ih =>
      have hfirst : x ∈ (s.addRecord p.1 p.2).1.document.gathered ↔
          x ∈ s.document.gathered ∨ p.2.Contributes p.1 x := Document.mem_gathered_apply_diff
      rw [addRecords, List.foldl_cons, ← addRecords, ih, hfirst, List.exists_mem_cons_iff,
        or_assoc]

/-- They extend the lists. -/
theorem extends_addRecords (s : Store β) (records : List (Database × Record)) :
    s.document.Extends (s.addRecords records).document := by
  induction records generalizing s with
  | nil => exact .refl _
  | cons p records ih => exact (s.document.extends_apply _).trans (ih (s.addRecord p.1 p.2).1)

/-- **Recording only adds, and in no particular order.**  After any records a history
has gathered what it had gathered before and what each of the records contributes on
its own.  So records that are the same up to order and repetition gather the same.
Every list stays under its names and is a beginning of what it has become. -/
theorem recording_gathers (s : Store β) (records : List (Database × Record)) :
    (∀ x, x ∈ (s.addRecords records).document.gathered ↔
      x ∈ s.document.gathered ∨ ∃ p ∈ records, p.2.Contributes p.1 x) ∧
    (∀ others : List (Database × Record), (∀ p, p ∈ others ↔ p ∈ records) →
      (s.addRecords others).document.gathered = (s.addRecords records).document.gathered) ∧
    s.document.Extends (s.addRecords records).document := by
  refine ⟨fun x => mem_gathered_addRecords, fun others hsame => ?_, s.extends_addRecords records⟩
  ext x
  rw [mem_gathered_addRecords, mem_gathered_addRecords]
  simp only [hsame]

/-- A database whose places are remembered. -/
def gear : Database where
  name := "GEAR"
  typeField := { name := "Type" }
  params := [{ name := "Place", policy := .history ⟨[], []⟩ }]

/-- A record of gear in a place. -/
def gearAt (place : Text) : Database × Record :=
  (gear, { database := "GEAR", params := [⟨"Place", .single place⟩] })

/-- Two spellings of a place come in one order and in the other, one of them twice.
The documents differ and have gathered the same. -/
theorem recording_gathers_gear :
    (twiceNamedStore.addRecords [gearAt "1e3", gearAt "1E3"]).document
        ≠ (twiceNamedStore.addRecords [gearAt "1E3", gearAt "1e3", gearAt "1E3"]).document ∧
      (twiceNamedStore.addRecords [gearAt "1E3", gearAt "1e3", gearAt "1E3"]).document.gathered
        = (twiceNamedStore.addRecords [gearAt "1e3", gearAt "1E3"]).document.gathered ∧
      twiceNamedStore.document.Extends
        (twiceNamedStore.addRecords [gearAt "1e3", gearAt "1E3"]).document := by
  obtain ⟨_, hsame, hextends⟩ := recording_gathers twiceNamedStore [gearAt "1e3", gearAt "1E3"]
  refine ⟨by decide +kernel, hsame _ fun p => ?_, hextends⟩
  simp only [List.mem_cons, List.not_mem_nil, or_false]
  exact ⟨fun h => h.elim Or.inr id, fun h => h.elim (Or.inr ∘ Or.inl) Or.inl⟩

end Store

end Tagline
