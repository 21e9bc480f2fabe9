import Tagline.Text.Case

/-!
# Maps sorted by name

A finite map from texts to values whose entries ascend by name.  The order is
that of the code points, which is also the order of the UTF-8 bytes, so an
enumeration of a map is always the same.

Beside the look-up of an exact name there is one that ignores case: `find?`
prefers the exact name and otherwise takes the first name that is alike.

Main statements: `get?_insert` says what an insertion changes; `ext_get?` says
that a map is determined by its look-ups.
-/

namespace Tagline

/-- The order that the entries of a map keep. -/
def Ascending {α : Type} (entries : List (Text × α)) : Prop :=
  entries.Pairwise fun a b => a.1 < b.1

/-- A finite map whose entries ascend by name. -/
structure SortedMap (α : Type) where
  entries : List (Text × α)
  ascending : Ascending entries

namespace SortedMap

variable {α β : Type}

instance [DecidableEq α] : DecidableEq (SortedMap α) := fun m n =>
  if h : m.entries = n.entries then
    isTrue (by cases m; cases n; cases h; rfl)
  else isFalse fun heq => h (congrArg entries heq)

/-- The map without entries. -/
def empty : SortedMap α := ⟨[], List.Pairwise.nil⟩

instance : Inhabited (SortedMap α) := ⟨empty⟩

/-- The names in ascending order. -/
def names (m : SortedMap α) : List Text :=
  m.entries.map (·.1)

/-- The values in the order of their names. -/
def values (m : SortedMap α) : List α :=
  m.entries.map (·.2)

/-- Whether a map has no entries. -/
def isEmpty (m : SortedMap α) : Bool :=
  m.entries.isEmpty

/-- The value of exactly this name in a list of entries. -/
def getIn (name : Text) : List (Text × α) → Option α
  | [] => none
  | (k, v) :: rest => if k = name then some v else getIn name rest

/-- The value of exactly this name. -/
def get? (m : SortedMap α) (name : Text) : Option α :=
  getIn name m.entries

/-- Puts an entry in its place, instead of the one with its name. -/
def insertIn (name : Text) (value : α) : List (Text × α) → List (Text × α)
  | [] => [(name, value)]
  | (k, v) :: rest =>
      if name < k then (name, value) :: (k, v) :: rest
      else if name = k then (name, value) :: rest
      else (k, v) :: insertIn name value rest

/-- An insertion brings one entry at most. -/
theorem mem_insertIn {name : Text} {value : α} {entries : List (Text × α)} {e : Text × α}
    (h : e ∈ insertIn name value entries) : e = (name, value) ∨ e ∈ entries := by
  induction entries with
  | nil => simpa [insertIn] using h
  | cons a rest ih =>
      obtain ⟨k, v⟩ := a
      unfold insertIn at h
      split at h
      · simpa using h
      · split at h
        · rcases List.mem_cons.1 h with h | h
          · exact Or.inl h
          · exact Or.inr (List.mem_cons_of_mem _ h)
        · rcases List.mem_cons.1 h with h | h
          · exact Or.inr (h ▸ List.mem_cons_self)
          · rcases ih h with h | h
            · exact Or.inl h
            · exact Or.inr (List.mem_cons_of_mem _ h)

/-- Of two different names one is smaller. -/
theorem lt_of_not_lt_of_ne {s t : Text} (h : ¬ s < t) (hne : s ≠ t) : t < s := by
  apply Classical.byContradiction
  intro h'
  exact hne (List.le_antisymm (List.not_lt.1 h') (List.not_lt.1 h))

/-- **An insertion keeps the order.** -/
theorem ascending_insertIn (name : Text) (value : α) {entries : List (Text × α)}
    (h : Ascending entries) : Ascending (insertIn name value entries) := by
  induction entries with
  | nil => simp [insertIn, Ascending]
  | cons a rest ih =>
      obtain ⟨k, v⟩ := a
      obtain ⟨hk, hrest⟩ := List.pairwise_cons.1 h
      unfold insertIn
      split
      · next hlt =>
          refine List.pairwise_cons.2 ⟨?_, h⟩
          intro e he
          rcases List.mem_cons.1 he with he | he
          · rw [he]; exact hlt
          · exact List.lt_trans hlt (hk e he)
      · next hnlt =>
          split
          · next heq =>
              subst heq
              exact List.pairwise_cons.2 ⟨hk, hrest⟩
          · next hne =>
              refine List.pairwise_cons.2 ⟨?_, ih hrest⟩
              intro e he
              rcases mem_insertIn he with he | he
              · rw [he]; exact lt_of_not_lt_of_ne hnlt hne
              · exact hk e he

/-- Puts a value under a name, instead of the one it had. -/
def insert (m : SortedMap α) (name : Text) (value : α) : SortedMap α :=
  ⟨insertIn name value m.entries, ascending_insertIn name value m.ascending⟩

/-- The map of a list of entries; of several with one name the last counts. -/
def ofList (entries : List (Text × α)) : SortedMap α :=
  entries.foldl (fun m e => m.insert e.1 e.2) empty

/-- Applies a function to every value. -/
def mapValues (f : α → β) (m : SortedMap α) : SortedMap β where
  entries := m.entries.map fun e => (e.1, f e.2)
  ascending := by
    have h := m.ascending
    unfold Ascending at h ⊢
    exact List.pairwise_map.2 h

/-- The entry of a name, ignoring case: the exact name if it is there, and the
first that is alike otherwise. -/
def find? (m : SortedMap α) (name : Text) : Option (Text × α) :=
  match m.get? name with
  | some v => some (name, v)
  | none => m.entries.find? fun e => Text.alike e.1 name

/-- The name under which `find?` finds an entry; the name itself if it finds
none. -/
def spelling (m : SortedMap α) (name : Text) : Text :=
  match m.find? name with
  | some (k, _) => k
  | none => name

@[simp] theorem get?_empty (name : Text) : (empty : SortedMap α).get? name = none := rfl

/-- What is inserted is found under its name, and all else is found as before. -/
theorem getIn_insertIn (name other : Text) (value : α) (entries : List (Text × α)) :
    getIn other (insertIn name value entries)
      = if name = other then some value else getIn other entries := by
  induction entries with
  | nil => rfl
  | cons a rest ih =>
      obtain ⟨k, v⟩ := a
      unfold insertIn
      split
      · rfl
      · split
        · next heq =>
            subst heq
            by_cases h : name = other <;> simp [getIn, h]
        · next hne =>
            by_cases h : k = other
            · subst h
              simp [getIn, hne]
            · simp only [getIn, if_neg h]
              exact ih

/-- **What an insertion changes.**  The new name has the new value, and every
other name has what it had. -/
theorem get?_insert (m : SortedMap α) (name other : Text) (value : α) :
    (m.insert name value).get? other = if name = other then some value else m.get? other :=
  getIn_insertIn name other value m.entries

/-- Nothing is found in front of the first name. -/
theorem getIn_eq_none {entries : List (Text × α)} {name : Text}
    (h : ∀ e ∈ entries, name < e.1) : getIn name entries = none := by
  induction entries with
  | nil => rfl
  | cons a rest ih =>
      obtain ⟨k, v⟩ := a
      have hk : name < k := h (k, v) List.mem_cons_self
      have hne : k ≠ name := fun heq => List.lt_irrefl name (heq ▸ hk)
      simp only [getIn, if_neg hne]
      exact ih fun e he => h e (List.mem_cons_of_mem _ he)

/-- Two lists in order in which the same is found are the same list. -/
theorem entries_eq_of_getIn {xs ys : List (Text × α)} (hx : Ascending xs) (hy : Ascending ys)
    (h : ∀ name, getIn name xs = getIn name ys) : xs = ys := by
  induction xs generalizing ys with
  | nil =>
      cases ys with
      | nil => rfl
      | cons b ys =>
          have hb := h b.1
          simp [getIn] at hb
  | cons a xs ih =>
      cases ys with
      | nil =>
          have ha := h a.1
          simp [getIn] at ha
      | cons b ys =>
          obtain ⟨k, v⟩ := a
          obtain ⟨l, w⟩ := b
          obtain ⟨hk, hx'⟩ := List.pairwise_cons.1 hx
          obtain ⟨hl, hy'⟩ := List.pairwise_cons.1 hy
          have hkl : k = l := by
            apply Classical.byContradiction
            intro hne
            by_cases hlt : k < l
            · have hnone : getIn k ((l, w) :: ys) = none := by
                refine getIn_eq_none ?_
                intro e he
                rcases List.mem_cons.1 he with he | he
                · rw [he]; exact hlt
                · exact List.lt_trans hlt (hl e he)
              have hh := h k
              rw [hnone] at hh
              simp [getIn] at hh
            · have hgt := lt_of_not_lt_of_ne hlt hne
              have hnone : getIn l ((k, v) :: xs) = none := by
                refine getIn_eq_none ?_
                intro e he
                rcases List.mem_cons.1 he with he | he
                · rw [he]; exact hgt
                · exact List.lt_trans hgt (hk e he)
              have hh := h l
              rw [hnone] at hh
              simp [getIn] at hh
          subst hkl
          have hvw : v = w := by simpa [getIn] using h k
          subst hvw
          congr 1
          refine ih hx' hy' ?_
          intro name
          by_cases hname : k = name
          · subst hname
            rw [getIn_eq_none hk, getIn_eq_none hl]
          · have hh := h name
            simpa only [getIn, if_neg hname] using hh

/-- **A map is determined by its look-ups.** -/
theorem ext_get? {m n : SortedMap α} (h : ∀ name, m.get? name = n.get? name) : m = n := by
  have heq := entries_eq_of_getIn m.ascending n.ascending h
  cases m
  cases n
  cases heq
  rfl

end SortedMap

end Tagline
