import Tagline.Proofs.History.Gathering

/-!
# Records in one go

What several records would add can be found for all of them before anything is added,
brought together into one delta, and applied at once.  Each part of such a **batch** is
found in the history as it is at the start, so it lists more than the record would
add in its turn: also what a record before it brings, in the same spelling or in a
variant.  The merging leaves out the first and keeps the second.

This makes no difference.  An entry that is listed in vain is held when its turn comes,
since a history that grows loses nothing, and is passed over.  So either way the
document becomes what it would be if all entries of all records were added in order.

* `apply_merge` — a merged delta does what its parts do one after another;
* `apply_diff_of_within` — what a record would add to an earlier document does what all
  its entries do;
* `grew_apply_iff` — a document says that it grows exactly if a list gets longer;
* `Store.batch_is_recording` — a batch does what the records do one after another.
-/

namespace Tagline

namespace Document

/-! ## Deltas one after another -/

/-- Entries are added one batch after another. -/
theorem apply_append (d : Document) (es fs : List Entry) :
    d.apply ⟨es ++ fs⟩ = (d.apply ⟨es⟩).apply ⟨fs⟩ :=
  List.foldl_append

/-- An entry that is pushed is added last, and if it is there, it has been added. -/
theorem apply_push (d : Document) (delta : Delta) (e : Entry) :
    d.apply (delta.push e) = (d.apply delta).add e := by
  rw [Delta.push]
  split
  · next hthere =>
      have hmem : e ∈ delta.entries := by simpa using hthere
      rw [add_eq_self (contains_apply hmem)]
  · exact d.apply_append delta.entries [e]

/-- Entries that are pushed into a delta are added behind its own. -/
theorem apply_foldl_push (d : Document) (delta : Delta) (es : List Entry) :
    d.apply (es.foldl Delta.push delta) = (d.apply delta).apply ⟨es⟩ := by
  induction es generalizing delta with
  | nil => rfl
  | cons e es ih =>
      rw [List.foldl_cons, ih, apply_push]
      rfl

/-- **A merged delta** does what its parts do one after another. -/
theorem apply_merge (d : Document) (delta other : Delta) :
    d.apply (delta.merge other) = (d.apply delta).apply other :=
  d.apply_foldl_push delta other.entries

/-! ## Entries that are held -/

/-- Entries that were held earlier may be left out. -/
theorem apply_filter_of_within {d d' : Document} (h : d.Within d') (es : List Entry) :
    d'.apply ⟨es.filter fun e => !d.contains e.database e.key e.value⟩ = d'.apply ⟨es⟩ := by
  induction es generalizing d' with
  | nil => rfl
  | cons e es ih =>
      cases hheld : d.contains e.database e.key e.value with
      | true =>
          have hpassed : d'.apply ⟨e :: es⟩ = (d'.add e).apply ⟨es⟩ := rfl
          rw [List.filter_cons_of_neg (by simp [hheld]), ih h, hpassed,
            add_eq_self (h _ _ _ hheld)]
      | false =>
          rw [List.filter_cons_of_pos (by simp [hheld])]
          exact ih (h.trans (d'.within_apply ⟨[e]⟩))

/-- **What a record would add to an earlier document** does what all its entries do. -/
theorem apply_diff_of_within {d d' : Document} (h : d.Within d') (database : Database)
    (r : Record) : d'.apply (d.diff database r) = d'.apply ⟨r.entries database⟩ := by
  rw [diff, apply_foldl_push]
  exact apply_filter_of_within h (r.entries database)

/-- **What is missing of a record is all that it adds.** -/
theorem apply_diff (d : Document) (database : Database) (r : Record) :
    d.apply (d.diff database r) = d.apply ⟨r.entries database⟩ :=
  apply_diff_of_within (.refl d) database r

/-- A list of what a record would add names nothing twice. -/
theorem nodup_foldl_push {es : List Entry} {delta : Delta} (h : delta.entries.Nodup) :
    (es.foldl Delta.push delta).entries.Nodup := by
  induction es generalizing delta with
  | nil => exact h
  | cons e es ih =>
      refine ih ?_
      rw [Delta.push]
      split
      · exact h
      · next hnew =>
          have hmem : e ∉ delta.entries := by simpa using hnew
          exact List.nodup_append.2 ⟨h, List.nodup_singleton e, by
            rintro x hx y hy rfl
            exact hmem (List.mem_singleton.1 hy ▸ hx)⟩

/-- Entries without repeats are all pushed. -/
theorem foldl_push_of_nodup {es : List Entry} {delta : Delta}
    (h : (delta.entries ++ es).Nodup) : es.foldl Delta.push delta = ⟨delta.entries ++ es⟩ := by
  induction es generalizing delta with
  | nil => simp
  | cons e es ih =>
      have hnew : ¬ delta.entries.contains e = true := by
        rw [List.contains_iff_mem]
        exact fun hmem => (List.nodup_append.1 h).2.2 e hmem e List.mem_cons_self rfl
      have hpushed : delta.push e = ⟨delta.entries ++ [e]⟩ := if_neg hnew
      rw [List.foldl_cons, hpushed, ih (by simpa using h)]
      simp

/-! ## Lists that get longer -/

/-- Some list of `d'` is longer than the one that stands in its place in `d`; a list
that is not there counts as empty. -/
def Grew (d d' : Document) : Prop :=
  ∃ name key, ((d.stored? name key).getD []).length < ((d'.stored? name key).getD []).length

/-- A list that is extended does not get shorter. -/
theorem Extends.length_le {d d' : Document} (h : d.Extends d') (name key : Text) :
    ((d.stored? name key).getD []).length ≤ ((d'.stored? name key).getD []).length := by
  cases hlist : d.stored? name key with
  | none => exact Nat.zero_le _
  | some list =>
      obtain ⟨grown, hgrown, hprefix⟩ := h name key list hlist
      rw [hgrown]
      exact hprefix.length_le

/-- **Of a document that grows in two steps** a list gets longer exactly if it does in
one of them. -/
theorem grew_iff_of_extends {d d' d'' : Document} (h : d.Extends d') (h' : d'.Extends d'') :
    d.Grew d'' ↔ d.Grew d' ∨ d'.Grew d'' := by
  constructor
  · rintro ⟨name, key, hlonger⟩
    rcases Nat.lt_or_ge ((d.stored? name key).getD []).length
        ((d'.stored? name key).getD []).length with hfirst | hfirst
    · exact Or.inl ⟨name, key, hfirst⟩
    · exact Or.inr ⟨name, key, Nat.lt_of_le_of_lt hfirst hlonger⟩
  · rintro (⟨name, key, hlonger⟩ | ⟨name, key, hlonger⟩)
    · exact ⟨name, key, Nat.lt_of_lt_of_le hlonger (h'.length_le name key)⟩
    · exact ⟨name, key, Nat.lt_of_le_of_lt (h.length_le name key) hlonger⟩

theorem not_grew_self (d : Document) : ¬ d.Grew d :=
  fun ⟨_, _, hlonger⟩ => Nat.lt_irrefl _ hlonger

/-- An entry that is not held makes the list longer in which it is put. -/
theorem grew_add {d : Document} {e : Entry}
    (h : d.contains e.database e.key e.value = false) : d.Grew (d.add e) := by
  refine ⟨d.databases.spelling e.database, (d.bucketsAt e.database).spelling e.key, ?_⟩
  have hnew : ¬ d.contains e.database e.key e.value = true := by simp [h]
  rw [add, if_neg hnew, stored?_setBucket, if_pos ⟨rfl, rfl⟩, ← bucket?_eq_stored?, ← values,
    Option.getD_some, List.length_append]
  exact Nat.lt_succ_self _

/-- **A document says that it grows** exactly if a list gets longer. -/
theorem grew_apply_iff {d : Document} {delta : Delta} :
    d.Grew (d.apply delta) ↔ d.grows delta = true := by
  constructor
  · intro hgrew
    by_contra hnot
    rw [apply_eq_self (Bool.eq_false_iff.2 hnot)] at hgrew
    exact d.not_grew_self hgrew
  · intro hgrows
    obtain ⟨es⟩ := delta
    induction es with
    | nil => cases hgrows
    | cons e es ih =>
        cases hheld : d.contains e.database e.key e.value with
        | true =>
            have hpassed : d.apply ⟨e :: es⟩ = (d.add e).apply ⟨es⟩ := rfl
            rw [hpassed, add_eq_self hheld]
            refine ih ?_
            simpa [grows, hheld] using hgrows
        | false =>
            refine (grew_iff_of_extends (extends_add d e) (extends_apply _ ⟨es⟩)).2 ?_
            exact Or.inl (grew_add hheld)

end Document

/-! ## Batches -/

namespace Store

variable {β : Type}

/-- What some records would add to a store as it is, in one delta. -/
def batch (s : Store β) (records : List (Database × Record)) : Delta :=
  (records.map fun p => s.diff p.1 p.2).foldl Delta.merge {}

/-- The entries of some records, in order. -/
def entriesOf (records : List (Database × Record)) : List Entry :=
  records.flatMap fun p => p.2.entries p.1

/-- The entries of the first record are added first. -/
theorem apply_entriesOf_cons (d : Document) (p : Database × Record)
    (records : List (Database × Record)) :
    d.apply ⟨entriesOf (p :: records)⟩
      = (d.apply ⟨p.2.entries p.1⟩).apply ⟨entriesOf records⟩ := by
  rw [entriesOf, List.flatMap_cons, Document.apply_append, entriesOf]

/-- **Records one after another** add all their entries in order. -/
theorem document_addRecords (s : Store β) (records : List (Database × Record)) :
    (s.addRecords records).document = s.document.apply ⟨entriesOf records⟩ := by
  induction records generalizing s with
  | nil => rfl
  | cons p records ih =>
      have hfirst : (s.addRecord p.1 p.2).1.document
          = s.document.apply ⟨p.2.entries p.1⟩ := s.document.apply_diff p.1 p.2
      rw [addRecords, List.foldl_cons, ← addRecords, ih, hfirst, apply_entriesOf_cons]

/-- **Parts that are merged onto a delta** add all entries of their records in order.
They were found in the document from which the delta leads on. -/
theorem apply_foldl_merge (d : Document) (delta : Delta) (records : List (Database × Record)) :
    d.apply ((records.map fun p => d.diff p.1 p.2).foldl Delta.merge delta)
      = (d.apply delta).apply ⟨entriesOf records⟩ := by
  induction records generalizing delta with
  | nil => rfl
  | cons p records ih =>
      rw [List.map_cons, List.foldl_cons, ih, Document.apply_merge,
        Document.apply_diff_of_within (d.within_apply delta), apply_entriesOf_cons]

/-- **A batch makes the document** that the records make one by one. -/
theorem document_apply_batch (s : Store β) (records : List (Database × Record)) :
    (s.apply (s.batch records)).1.document = (s.addRecords records).document := by
  rw [document_addRecords]
  exact apply_foldl_merge s.document {} records

/-! ## Records that make a list longer -/

theorem addRecords_append (s : Store β) (records more : List (Database × Record)) :
    s.addRecords (records ++ more) = (s.addRecords records).addRecords more :=
  List.foldl_append

/-- **A list gets longer** over some records exactly if it does with one of them. -/
theorem grew_addRecords_iff {s : Store β} {records : List (Database × Record)} :
    s.document.Grew (s.addRecords records).document ↔
      ∃ before p after, records = before ++ p :: after ∧
        (s.addRecords before).document.Grew (s.addRecords (before ++ [p])).document := by
  constructor
  · -- From the end: a list got longer before the last record, or with it.
    intro hgrew
    induction records using List.reverseRecOn with
    | nil => exact absurd hgrew s.document.not_grew_self
    | append_singleton records p ih =>
        rw [addRecords_append, Document.grew_iff_of_extends (s.extends_addRecords records)
          (extends_addRecords _ [p]), ← addRecords_append] at hgrew
        rcases hgrew with hearlier | hlast
        · obtain ⟨before, q, after, rfl, hone⟩ := ih hearlier
          exact ⟨before, q, after ++ [p], by simp, hone⟩
        · exact ⟨records, p, [], rfl, hlast⟩
  · rintro ⟨before, p, after, rfl, hone⟩
    rw [List.append_cons, addRecords_append, Document.grew_iff_of_extends
      (s.extends_addRecords _) (extends_addRecords _ after)]
    left
    rw [addRecords_append, Document.grew_iff_of_extends (s.extends_addRecords before)
      (extends_addRecords _ [p]), ← addRecords_append]
    exact Or.inr hone

/-- A delta leaves something to save where it makes the document grow. -/
theorem dirty_apply {s : Store β} {delta : Delta} :
    (s.apply delta).1.dirty = true ↔
      s.dirty = true ∨ s.document.Grew (s.apply delta).1.document := by
  have hgrew : s.document.Grew (s.apply delta).1.document ↔ s.document.grows delta = true :=
    Document.grew_apply_iff
  rw [hgrew, apply, Bool.or_eq_true]

/-- So do records, whichever of them it is. -/
theorem dirty_addRecords {s : Store β} {records : List (Database × Record)} :
    (s.addRecords records).dirty = true ↔
      s.dirty = true ∨ s.document.Grew (s.addRecords records).document := by
  induction records generalizing s with
  | nil => exact (or_iff_left s.document.not_grew_self).symm
  | cons p records ih =>
      have hsteps := Document.grew_iff_of_extends (s.document.extends_apply (s.diff p.1 p.2))
        ((s.addRecord p.1 p.2).1.extends_addRecords records)
      have hfirst : (s.addRecord p.1 p.2).1.dirty = true ↔
          s.dirty = true ∨ s.document.Grew (s.addRecord p.1 p.2).1.document := dirty_apply
      rw [addRecords, List.foldl_cons, ← addRecords, ih, hfirst, or_assoc, hsteps]
      rfl

/-- Records that are added are not written. -/
theorem medium_addRecords (s : Store β) (records : List (Database × Record)) :
    (s.addRecords records).medium = s.medium := by
  induction records generalizing s with
  | nil => rfl
  | cons p records ih => exact ih (s.addRecord p.1 p.2).1

/-- **A batch does what its records do one after another.**  What several records would
add to a store, found for each of them in the store as it is, merged, and applied at
once, makes the same store as adding the records in turn: the same document, on the
same medium, and dirty or not.  The answer that a list grew is given exactly if some
record makes a list longer in its turn.  It does not matter whether the merging begins
with nothing or with what the first record would add. -/
theorem batch_is_recording (s : Store β) (records : List (Database × Record)) :
    (s.apply (s.batch records)).1 = s.addRecords records ∧
    ((s.apply (s.batch records)).2 = true ↔
      ∃ before p after, records = before ++ p :: after ∧
        (s.addRecords before).document.Grew (s.addRecords (before ++ [p])).document) ∧
    ∀ p rest, s.batch (p :: rest)
      = (rest.map fun q => s.diff q.1 q.2).foldl Delta.merge (s.diff p.1 p.2) := by
  have hdocument := s.document_apply_batch records
  have hgrew : (s.apply (s.batch records)).2 = true ↔
      s.document.Grew (s.addRecords records).document := by
    rw [← hdocument]
    exact Document.grew_apply_iff.symm
  refine ⟨?_, hgrew.trans grew_addRecords_iff, fun p rest => ?_⟩
  · have hdirty : (s.apply (s.batch records)).1.dirty = (s.addRecords records).dirty := by
      rw [Bool.eq_iff_iff, dirty_apply, dirty_addRecords, hdocument]
    have hmedium := s.medium_addRecords records
    cases hadded : s.addRecords records with
    | mk medium document dirty =>
        rw [hadded] at hdocument hdirty hmedium
        obtain rfl : medium = s.medium := hmedium
        obtain rfl : (s.apply (s.batch records)).1.document = document := hdocument
        obtain rfl : (s.apply (s.batch records)).1.dirty = dirty := hdirty
        rfl
  · have hfirst : Delta.merge {} (s.diff p.1 p.2) = s.diff p.1 p.2 :=
      Document.foldl_push_of_nodup (Document.nodup_foldl_push List.nodup_nil)
    rw [batch, List.map_cons, List.foldl_cons, hfirst]

/-- Two spellings of a place make two entries of a batch and one value. -/
example : (Store.batch { medium := () } [gearAt "1e3", gearAt "1E3"]).entries.length = 2 ∧
    (Store.addRecords { medium := () } [gearAt "1e3", gearAt "1E3"]).document.valueCount = 1 := by
  decide +kernel

end Store

end Tagline
