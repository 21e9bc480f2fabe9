import Tagline.Proofs.History.Document

/-!
# How a document grows

An addition stores one value or none, so the number of values grows by the number of
**additions**: the entries that the document does not hold when their turn comes.
Two entries are **variants** when their databases, keys and values are alike.  A
delta without variants is all additions; a delta with variants is not, where the
names of the document differ, because the first of two variants is found when the
turn of the second comes.

* `bucket?_setBucket_cases` — what any look-up finds after a change;
* `valueCount_apply` — a document grows by its additions;
* `additions_eq_self` — without variants every entry is an addition;
* `noVariants_of_additions_eq` — and with variants not, where names differ.
-/

namespace Tagline

/-- Entries that differ at most in case. -/
structure Entry.Variant (e x : Entry) : Prop where
  database : Text.alike e.database x.database = true
  key : Text.alike e.key x.key = true
  value : Text.alike e.value x.value = true

instance (e x : Entry) : Decidable (e.Variant x) :=
  decidable_of_iff (Text.alike e.database x.database = true ∧ Text.alike e.key x.key = true ∧
      Text.alike e.value x.value = true)
    ⟨fun ⟨hdatabase, hkey, hvalue⟩ => ⟨hdatabase, hkey, hvalue⟩,
      fun ⟨hdatabase, hkey, hvalue⟩ => ⟨hdatabase, hkey, hvalue⟩⟩

/-- No two entries of a delta are variants. -/
def Delta.NoVariants (delta : Delta) : Prop :=
  delta.entries.Pairwise fun e x => ¬ e.Variant x

instance (delta : Delta) : Decidable delta.NoVariants :=
  inferInstanceAs (Decidable (delta.entries.Pairwise fun e x => ¬ e.Variant x))

namespace Document

/-! ## Look-ups after a change -/

/-- **What any look-up in a database finds after a change**: what it found before, or
the new list, if its key is alike to the changed one and found the changed list. -/
theorem bucket?_setBucket_cases (d : Document) (database key other : Text) (list : List Text) :
    (d.setBucket database key list).bucket? database other = d.bucket? database other ∨
      Text.alike key other = true ∧
        (d.setBucket database key list).bucket? database other = some list ∧
        d.bucket? database other = d.bucket? database key := by
  rcases d.found?_setBucket_cases database key database other list with hsame | ⟨hnew, hold⟩
  · left
    rw [bucket?_eq_found?, hsame, ← bucket?_eq_found?]
  · right
    have hother := (alike_of_found? hnew).2
    have hkey := (d.bucketsAt database).alike_spelling key
    refine ⟨Text.alike_trans (Text.alike_symm hkey) hother, ?_, ?_⟩
    · rw [bucket?_eq_found?, hnew, Option.map_some]
    · rw [bucket?_eq_found?, hold, ← bucket?_eq_found?]

/-- **A change of one bucket leaves the others alone**: those of its database whose
keys are not alike. -/
theorem values_setBucket_of_not_alike {d : Document} {database key other : Text}
    (h : Text.alike key other = false) (list : List Text) :
    (d.setBucket database key list).values database other = d.values database other := by
  rcases d.bucket?_setBucket_cases database key other list with hsame | ⟨halike, _⟩
  · rw [values, hsame, values]
  · rw [h] at halike
    cases halike

/-- A value that is held after an addition was held before, or is a variant of what
was added. -/
theorem contains_of_contains_add {d : Document} {e : Entry} {other value : Text}
    (h : (d.add e).contains e.database other value = true) :
    d.contains e.database other value = true ∨
      Text.alike e.key other = true ∧ Text.alike e.value value = true := by
  rw [add] at h
  split at h
  · exact Or.inl h
  · obtain ⟨v, hv, halike⟩ := contains_eq_true.1 h
    rcases d.bucket?_setBucket_cases e.database e.key other
        (d.values e.database e.key ++ [e.value]) with hsame | ⟨hkey, hlist, hsame⟩
    · rw [values, hsame] at hv
      exact Or.inl (contains_eq_true.2 ⟨v, hv, halike⟩)
    · rw [values, hlist, Option.getD_some, List.mem_append, List.mem_singleton] at hv
      rcases hv with hv | rfl
      · left
        refine contains_eq_true.2 ⟨v, ?_, halike⟩
        rwa [values, hsame]
      · exact Or.inr ⟨hkey, halike⟩

/-- Where names differ, a value that is held is held under every variant of its key
and in every variant of its spelling. -/
theorem NamesDiffer.contains_of_alike {d : Document} (h : d.NamesDiffer)
    {database key other value variant : Text} (hkey : Text.alike key other = true)
    (hvalue : Text.alike value variant = true) (hheld : d.contains database key value = true) :
    d.contains database other variant = true := by
  obtain ⟨v, hv, halike⟩ := contains_eq_true.1 hheld
  cases hbucket : d.bucket? database key with
  | none => simp [values, hbucket] at hv
  | some list =>
      obtain ⟨name, buckets, k, hname, hfind⟩ := bucket?_eq_some.1 hbucket
      have hmem : buckets ∈ d.databases.values :=
        List.mem_map.2 ⟨_, SortedMap.mem_entries_iff.2 (SortedMap.find?_eq_some hname).1, rfl⟩
      have hother := SortedMap.find?_of_alike (h.keys _ hmem) hkey hfind
      have hfound : d.bucket? database other = some list :=
        bucket?_eq_some.2 ⟨name, buckets, k, hname, hother⟩
      refine contains_eq_true.2 ⟨v, ?_, Text.alike_trans halike hvalue⟩
      rwa [values, hfound, ← hbucket]

/-! ## The number of values -/

theorem valueCount_eq_total (d : Document) :
    d.valueCount = d.databases.total (SortedMap.total List.length) := by
  have hlists : ∀ maps : List Buckets,
      (maps.flatMap SortedMap.values).flatten.length
        = (maps.map (SortedMap.total List.length)).sum := by
    intro maps
    induction maps with
    | nil => rfl
    | cons m maps ih =>
        rw [List.flatMap_cons, List.flatten_append, List.length_append, ih, List.map_cons,
          List.sum_cons, List.length_flatten]
        rfl
  exact hlists d.databases.values

/-- A changed list counts instead of the one that was there. -/
theorem valueCount_setBucket (d : Document) (database key : Text) (list : List Text) :
    (d.setBucket database key list).valueCount + (d.values database key).length
      = d.valueCount + list.length := by
  have houter := d.databases.total_insert (SortedMap.total List.length) database
    ((d.bucketsAt database).insert ((d.bucketsAt database).spelling key) list)
  have hinner := (d.bucketsAt database).total_insert List.length key list
  have hbuckets : ((d.databases.find? database).map fun e =>
      SortedMap.total List.length e.2).getD 0 = (d.bucketsAt database).total List.length := by
    cases hfind : d.databases.find? database with
    | none =>
        rw [bucketsAt_eq_empty hfind]
        rfl
    | some e =>
        rw [bucketsAt_of_find? hfind]
        rfl
  have hlist : (((d.bucketsAt database).find? key).map fun e => e.2.length).getD 0
      = (d.values database key).length := by
    rw [values, bucket?_eq]
    cases (d.bucketsAt database).find? key <;> rfl
  rw [hbuckets] at houter
  rw [hlist] at hinner
  rw [valueCount_eq_total, valueCount_eq_total, setBucket_eq]
  dsimp only
  omega

/-- An entry that is not held is one value more. -/
theorem valueCount_add {d : Document} {e : Entry}
    (h : d.contains e.database e.key e.value = false) :
    (d.add e).valueCount = d.valueCount + 1 := by
  have hcount := d.valueCount_setBucket e.database e.key (d.values e.database e.key ++ [e.value])
  rw [List.length_append, List.length_singleton] at hcount
  have hnew : ¬ d.contains e.database e.key e.value = true := by simp [h]
  rw [add, if_neg hnew]
  omega

/-! ## Additions -/

/-- The entries that a document does not hold when their turn comes. -/
def additions (d : Document) : List Entry → List Entry
  | [] => []
  | e :: es =>
      if d.contains e.database e.key e.value then d.additions es
      else e :: (d.add e).additions es

theorem additions_sublist (d : Document) (es : List Entry) : (d.additions es).Sublist es := by
  induction es generalizing d with
  | nil => exact List.Sublist.slnil
  | cons e es ih =>
      rw [additions]
      split
      · exact (ih d).cons e
      · exact (ih (d.add e)).cons_cons e

/-- **A document grows by its additions**, each of them one value. -/
theorem valueCount_apply (d : Document) (es : List Entry) :
    (d.apply ⟨es⟩).valueCount = d.valueCount + (d.additions es).length := by
  induction es generalizing d with
  | nil => rfl
  | cons e es ih =>
      have hstep : d.apply ⟨e :: es⟩ = (d.add e).apply ⟨es⟩ := rfl
      have hrest := ih (d.add e)
      rw [hstep, hrest, additions]
      split
      · next hheld => rw [add_eq_self hheld]
      · next hnew =>
          have hone := valueCount_add (Bool.not_eq_true _ ▸ hnew)
          rw [List.length_cons]
          omega

/-- Entries of one database that are new and no variants of each other are additions. -/
theorem additions_eq_self {d : Document} {database : Text} {es : List Entry}
    (hdatabase : ∀ e ∈ es, e.database = database)
    (hnew : ∀ e ∈ es, d.contains e.database e.key e.value = false)
    (hdiffer : Delta.NoVariants ⟨es⟩) : d.additions es = es := by
  induction es generalizing d with
  | nil => rfl
  | cons e es ih =>
      obtain ⟨hfirst, hrest⟩ := List.pairwise_cons.1 hdiffer
      have hstay : ∀ x ∈ es, (d.add e).contains x.database x.key x.value = false := by
        intro x hx
        have hsame : x.database = e.database := by
          rw [hdatabase x (List.mem_cons_of_mem _ hx), hdatabase e List.mem_cons_self]
        rw [← Bool.not_eq_true]
        intro hheld
        rw [hsame] at hheld
        rcases contains_of_contains_add hheld with hold | ⟨hkey, hvalue⟩
        · have hx := hnew x (List.mem_cons_of_mem _ hx)
          rw [hsame, hold] at hx
          cases hx
        · exact hfirst x hx ⟨by rw [hsame, Text.alike_refl], hkey, hvalue⟩
      have htail := ih (fun x hx => hdatabase x (List.mem_cons_of_mem _ hx)) hstay hrest
      rw [additions, hnew e List.mem_cons_self, htail]
      rfl

/-- Where every entry is an addition, none is held at the start. -/
theorem not_contains_of_additions_eq {d : Document} {es : List Entry}
    (h : d.additions es = es) : ∀ x ∈ es, d.contains x.database x.key x.value = false := by
  intro x hx
  rw [← Bool.not_eq_true]
  intro hheld
  induction es generalizing d with
  | nil => cases hx
  | cons e es ih =>
      rw [additions] at h
      split at h
      · -- One entry less cannot be all of them.
        have hshort := (d.additions_sublist es).length_le
        rw [h, List.length_cons] at hshort
        omega
      · next hnew =>
          have htail : (d.add e).additions es = es := (List.cons.inj h).2
          rcases List.mem_cons.1 hx with rfl | hx
          · exact hnew hheld
          · exact ih htail hx (contains_add hheld e)

/-- Where names differ, entries of one database that are all additions hold no
variants. -/
theorem noVariants_of_additions_eq {d : Document} (hnames : d.NamesDiffer) {database : Text}
    {es : List Entry} (hdatabase : ∀ e ∈ es, e.database = database)
    (h : d.additions es = es) : Delta.NoVariants ⟨es⟩ := by
  induction es generalizing d with
  | nil => exact List.Pairwise.nil
  | cons e es ih =>
      have hnew := not_contains_of_additions_eq h e List.mem_cons_self
      have htail : (d.add e).additions es = es := by
        rw [additions, hnew] at h
        exact (List.cons.inj h).2
      have hrest := fun x hx => hdatabase x (List.mem_cons_of_mem _ hx)
      refine List.pairwise_cons.2 ⟨fun x hx hvariant => ?_, ih (hnames.add e) hrest htail⟩
      have hsame : e.database = x.database := by
        rw [hrest x hx, hdatabase e List.mem_cons_self]
      have hheld := (hnames.add e).contains_of_alike hvariant.key hvariant.value
        (d.contains_add_self e)
      rw [hsame, not_contains_of_additions_eq htail x hx] at hheld
      cases hheld

end Document

end Tagline
