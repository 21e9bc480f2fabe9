import Tagline.SortedMap
import Mathlib.Algebra.GroupWithZero.Nat
import Mathlib.Data.List.Basic
import Mathlib.Data.List.Nodup

/-!
# Texts that differ ignoring case, and maps found ignoring case

A look-up in a map takes the exact name first and then the first name that is
alike.  An insertion under the **spelling** that such a look-up finds therefore
never puts a second variant of a name into a map that has none, and a look-up
that found something before finds the same name afterwards.

* `allDiffer_iff_nodup` — texts differ ignoring case when their lower-cased forms
  are pairwise different;
* `mem_entries_insert` — the entries after an insertion;
* `find?_insert_self`, `find?_insert_of_find?` — look-ups after an insertion under
  a spelling;
* `allDiffer_names_insert` — such an insertion keeps the names different;
* `ofList_entries` — a map is the map of its entries.
-/

namespace Tagline

namespace Text

/-- Texts that are pairwise different also when case is ignored. -/
def AllDiffer (ts : List Text) : Prop :=
  ts.Pairwise fun s t => alike s t = false

instance : DecidablePred AllDiffer := fun ts =>
  inferInstanceAs (Decidable (ts.Pairwise fun s t => alike s t = false))

theorem alike_eq_false_iff {s t : Text} : alike s t = false ↔ lower s ≠ lower t := by
  rw [← Bool.not_eq_true, alike_iff]

/-- Texts differ where no form in lower case comes twice. -/
theorem allDiffer_iff_nodup {ts : List Text} : AllDiffer ts ↔ (ts.map lower).Nodup := by
  rw [AllDiffer, List.Nodup, List.pairwise_map]
  simp only [alike_eq_false_iff]

theorem allDiffer_nil : AllDiffer [] := List.Pairwise.nil

theorem AllDiffer.sublist {ss ts : List Text} (h : AllDiffer ts) (hsub : ss.Sublist ts) :
    AllDiffer ss :=
  List.Pairwise.sublist hsub h

/-- A text that is alike to none of the others is put at the end. -/
theorem AllDiffer.concat {ts : List Text} {t : Text} (h : AllDiffer ts)
    (hnew : ∀ s ∈ ts, alike s t = false) : AllDiffer (ts ++ [t]) := by
  refine List.pairwise_append.2 ⟨h, List.pairwise_singleton _ _, fun s hs u hu => ?_⟩
  rw [List.mem_singleton.1 hu]
  exact hnew s hs

/-- Of texts that differ, two that are alike are one. -/
theorem AllDiffer.eq_of_alike {ts : List Text} (h : AllDiffer ts) {s t : Text} (hs : s ∈ ts)
    (ht : t ∈ ts) (halike : alike s t = true) : s = t :=
  List.inj_on_of_nodup_map (allDiffer_iff_nodup.1 h) hs ht (alike_iff.1 halike)

/-- Of texts that differ, the first that is alike to a given one is the only one. -/
theorem AllDiffer.eraseP_eq_filter {ts : List Text} (h : AllDiffer ts) (u : Text) :
    (ts.eraseP fun t => alike t u) = ts.filter fun t => !alike t u := by
  induction ts with
  | nil => rfl
  | cons t ts ih =>
      obtain ⟨ht, hts⟩ := List.pairwise_cons.1 h
      cases halike : alike t u with
      | false => simp [halike, ih hts]
      | true =>
          have hothers : ∀ s ∈ ts, (!alike s u) = true := by
            intro s hs
            rw [Bool.not_eq_true', ← Bool.not_eq_true]
            intro hsame
            have hdiffer := ht s hs
            rw [alike_trans halike (alike_symm hsame)] at hdiffer
            cases hdiffer
          simp [halike, List.filter_eq_self.2 hothers]

/-- Texts that differ in more than case are different texts. -/
theorem AllDiffer.nodup {ts : List Text} (h : AllDiffer ts) : ts.Nodup :=
  h.imp fun hst heq => by
    rw [heq, alike_refl] at hst
    cases hst

/-- Of texts that differ, the only one that is alike to one of them is that text. -/
theorem AllDiffer.eraseP_eq_erase {ts : List Text} (h : AllDiffer ts) {u : Text} (hu : u ∈ ts) :
    (ts.eraseP fun t => alike t u) = ts.erase u := by
  rw [h.eraseP_eq_filter, h.nodup.erase_eq_filter]
  refine List.filter_congr fun t ht => ?_
  rw [Bool.eq_iff_iff, Bool.not_eq_true', bne_iff_ne, ← Bool.not_eq_true, not_iff_not]
  refine ⟨h.eq_of_alike ht hu, ?_⟩
  rintro rfl
  exact alike_refl _

/-- Different texts of which no two are alike differ also when case is ignored. -/
theorem allDiffer_of_nodup {ts : List Text} (hnodup : ts.Nodup)
    (h : ∀ s ∈ ts, ∀ t ∈ ts, alike s t = true → s = t) : AllDiffer ts :=
  allDiffer_iff_nodup.2 <|
    hnodup.map_on fun s hs t ht heq => h s hs t ht (alike_iff.2 heq)

end Text

namespace SortedMap

variable {α β : Type}

/-! ## Entries and exact names -/

/-- The names ascend, so that none comes twice. -/
theorem nodup_names (m : SortedMap α) : m.names.Nodup := by
  refine List.pairwise_map.2 (m.ascending.imp ?_)
  intro a b hlt heq
  rw [heq] at hlt
  exact List.lt_irrefl _ hlt

theorem mem_names {m : SortedMap α} {name : Text} :
    name ∈ m.names ↔ ∃ v, (name, v) ∈ m.entries := by
  simp [names]

/-- What is found is an entry. -/
theorem mem_of_getIn {name : Text} {v : α} {entries : List (Text × α)}
    (h : getIn name entries = some v) : (name, v) ∈ entries := by
  induction entries with
  | nil => simp [getIn] at h
  | cons a rest ih =>
      obtain ⟨k, w⟩ := a
      rw [getIn] at h
      split at h
      · next heq =>
          cases h
          rw [heq]
          exact List.mem_cons_self
      · exact List.mem_cons_of_mem _ (ih h)

/-- **Each entry is found**, as the names ascend. -/
theorem getIn_of_mem {name : Text} {v : α} {entries : List (Text × α)}
    (hasc : Ascending entries) (h : (name, v) ∈ entries) : getIn name entries = some v := by
  induction entries with
  | nil => simp at h
  | cons a rest ih =>
      obtain ⟨k, w⟩ := a
      obtain ⟨hk, hrest⟩ := List.pairwise_cons.1 hasc
      rw [getIn]
      rcases List.mem_cons.1 h with h | h
      · cases h
        rw [if_pos rfl]
      · have hne : k ≠ name := fun heq => List.lt_irrefl _ (heq ▸ hk _ h)
        rw [if_neg hne]
        exact ih hrest h

/-- The entries are what is found under the names. -/
theorem mem_entries_iff {m : SortedMap α} {name : Text} {v : α} :
    (name, v) ∈ m.entries ↔ m.get? name = some v :=
  ⟨getIn_of_mem m.ascending, mem_of_getIn⟩

/-- Nothing is found under a name that does not stand there. -/
theorem get?_eq_none_iff {m : SortedMap α} {name : Text} : m.get? name = none ↔ name ∉ m.names := by
  rw [mem_names, Option.eq_none_iff_forall_ne_some, not_exists]
  exact forall_congr' fun v => not_congr mem_entries_iff.symm

/-- An insertion replaces the entry of its own name, and no other. -/
theorem mem_entries_insert {m : SortedMap α} {name : Text} {value : α} {e : Text × α} :
    e ∈ (m.insert name value).entries ↔ e = (name, value) ∨ e.1 ≠ name ∧ e ∈ m.entries := by
  obtain ⟨k, v⟩ := e
  rw [mem_entries_iff, get?_insert, mem_entries_iff]
  by_cases h : name = k
  · subst h
    simp [eq_comm]
  · simp [h, Ne.symm h]

/-- An insertion adds its own name at most. -/
theorem mem_names_insert {m : SortedMap α} {name other : Text} {value : α} :
    other ∈ (m.insert name value).names ↔ other = name ∨ other ∈ m.names := by
  by_cases h : other = name <;> simp [mem_names, mem_entries_insert, h]

/-! ## Look-ups that ignore case -/

/-- What is found ignoring case stands under a name that is alike. -/
theorem find?_eq_some {m : SortedMap α} {name k : Text} {v : α} (h : m.find? name = some (k, v)) :
    m.get? k = some v ∧ Text.alike k name = true := by
  unfold find? at h
  cases hget : m.get? name with
  | some w =>
      rw [hget] at h
      cases h
      exact ⟨hget, Text.alike_refl _⟩
  | none =>
      rw [hget] at h
      exact ⟨mem_entries_iff.1 (List.mem_of_find?_eq_some h), by simpa using List.find?_some h⟩

/-- Nothing is found ignoring case if no name is alike. -/
theorem find?_eq_none {m : SortedMap α} {name : Text} :
    m.find? name = none ↔ ∀ k ∈ m.names, Text.alike k name = false := by
  unfold find?
  cases hget : m.get? name with
  | some w =>
      have hmem : name ∈ m.names := mem_names.2 ⟨w, mem_entries_iff.2 hget⟩
      simp only [reduceCtorEq, false_iff]
      intro h
      simpa using h name hmem
  | none => simp [names]

/-- A name that is not found ignoring case is no name of the map. -/
theorem get?_of_find?_none {m : SortedMap α} {name : Text} (h : m.find? name = none) :
    m.get? name = none := by
  rw [get?_eq_none_iff]
  intro hmem
  have hdiffer := find?_eq_none.1 h name hmem
  rw [Text.alike_refl] at hdiffer
  cases hdiffer

/-- The spelling of a name is the one under which something is found. -/
theorem spelling_of_find? {m : SortedMap α} {name k : Text} {v : α}
    (h : m.find? name = some (k, v)) : m.spelling name = k := by
  rw [spelling, h]

theorem spelling_of_find?_none {m : SortedMap α} {name : Text} (h : m.find? name = none) :
    m.spelling name = name := by
  rw [spelling, h]

/-- An exact name is found first. -/
theorem find?_of_get? {m : SortedMap α} {name : Text} {v : α} (h : m.get? name = some v) :
    m.find? name = some (name, v) := by
  rw [find?, h]

/-- A name of the map is its own spelling. -/
theorem spelling_of_mem {m : SortedMap α} {name : Text} (h : name ∈ m.names) :
    m.spelling name = name := by
  obtain ⟨v, hmem⟩ := mem_names.1 h
  exact spelling_of_find? (find?_of_get? (mem_entries_iff.1 hmem))

/-- What is found stands under the spelling. -/
theorem get?_spelling (m : SortedMap α) (name : Text) :
    m.get? (m.spelling name) = (m.find? name).map (·.2) := by
  cases hfind : m.find? name with
  | some e => rw [spelling_of_find? hfind, (find?_eq_some hfind).1, Option.map_some]
  | none => rw [spelling_of_find?_none hfind, get?_of_find?_none hfind, Option.map_none]

/-- Where names differ, a name that is alike is the spelling. -/
theorem spelling_eq_of_alike {m : SortedMap α} (hdiffer : Text.AllDiffer m.names)
    {name k : Text} (hk : k ∈ m.names) (h : Text.alike k name = true) : m.spelling name = k := by
  cases hfind : m.find? name with
  | none =>
      have hnot := find?_eq_none.1 hfind k hk
      rw [h] at hnot
      cases hnot
  | some e =>
      obtain ⟨k', v⟩ := e
      obtain ⟨hget, halike⟩ := find?_eq_some hfind
      rw [spelling_of_find? hfind]
      exact hdiffer.eq_of_alike (mem_names.2 ⟨v, mem_entries_iff.2 hget⟩) hk
        (Text.alike_trans halike (Text.alike_symm h))

/-- A spelling is alike to the name. -/
theorem alike_spelling (m : SortedMap α) (name : Text) :
    Text.alike (m.spelling name) name = true := by
  cases hfind : m.find? name with
  | none => rw [spelling_of_find?_none hfind, Text.alike_refl]
  | some e => rw [spelling_of_find? hfind, (find?_eq_some hfind).2]

/-- Names that are found under one spelling find one entry. -/
theorem find?_of_spelling {m : SortedMap α} {name other k : Text} {v : α}
    (h : m.find? other = some (k, v)) (hk : k = m.spelling name) :
    m.find? name = some (k, v) := by
  have hget := (find?_eq_some h).1
  cases hname : m.find? name with
  | none =>
      -- A name that is not found is its own spelling, and then it is no name.
      rw [spelling_of_find?_none hname] at hk
      have hdiffer := find?_eq_none.1 hname k (mem_names.2 ⟨v, mem_entries_iff.2 hget⟩)
      rw [hk, Text.alike_refl] at hdiffer
      cases hdiffer
  | some e =>
      rw [spelling_of_find? hname] at hk
      have hown := (find?_eq_some hname).1
      rw [← hk, hget] at hown
      rw [hk, Option.some.inj hown]

/-- A spelling that is alike to a name that is found is a name of the map. -/
theorem mem_names_of_alike_spelling {m : SortedMap α} {name other : Text} {e : Text × α}
    (halike : Text.alike (m.spelling name) other = true) (h : m.find? other = some e) :
    m.spelling name ∈ m.names := by
  cases hname : m.find? name with
  | some found =>
      rw [spelling_of_find? hname]
      exact mem_names.2 ⟨found.2, mem_entries_iff.2 (find?_eq_some hname).1⟩
  | none =>
      rw [spelling_of_find?_none hname] at halike
      have hk := find?_eq_some h
      have hdiffer := find?_eq_none.1 hname e.1 (mem_names.2 ⟨e.2, mem_entries_iff.2 hk.1⟩)
      rw [Text.alike_trans hk.2 (Text.alike_symm halike)] at hdiffer
      cases hdiffer

/-- **No second variant of a name.**  An insertion under the spelling that is found
keeps the names different. -/
theorem allDiffer_names_insert {m : SortedMap α} (h : Text.AllDiffer m.names) (name : Text)
    (value : α) : Text.AllDiffer (m.insert (m.spelling name) value).names := by
  have hother : ∀ k ∈ m.names, Text.alike k (m.spelling name) = true → k = m.spelling name := by
    intro k hk halike
    exact (spelling_eq_of_alike h hk (Text.alike_trans halike (m.alike_spelling name))).symm
  refine Text.allDiffer_of_nodup (nodup_names _) fun a ha b hb hab => ?_
  rcases mem_names_insert.1 ha with rfl | ha <;> rcases mem_names_insert.1 hb with rfl | hb
  · rfl
  · exact (hother b hb (Text.alike_symm hab)).symm
  · exact hother a ha hab
  · exact h.eq_of_alike ha hb hab

/-- An entry whose name fails a test does not show in a search by the test. -/
theorem find?_insertIn_of_not {p : Text → Bool} {entries : List (Text × α)} {name : Text}
    (value : α) (hname : p name = false) :
    ((insertIn name value entries).find? fun e => p e.1) = entries.find? fun e => p e.1 := by
  induction entries with
  | nil => simp [insertIn, hname]
  | cons a rest ih =>
      obtain ⟨l, u⟩ := a
      unfold insertIn
      split
      · simp only [List.find?_cons (a := (name, value)), hname]
      · split
        · next heq =>
            subst heq
            simp only [List.find?_cons, hname]
        · simp only [List.find?_cons, ih]

/-- A search finds the same name after the value of some name was replaced. -/
theorem find?_insertIn_of_mem {p : Text → Bool} {entries : List (Text × α)} {name k : Text}
    {v w : α} (value : α) (hasc : Ascending entries) (hmem : (name, w) ∈ entries)
    (h : (entries.find? fun e => p e.1) = some (k, v)) :
    ((insertIn name value entries).find? fun e => p e.1)
      = some (k, if k = name then value else v) := by
  induction entries with
  | nil => simp at h
  | cons a rest ih =>
      obtain ⟨l, u⟩ := a
      obtain ⟨hl, hrest⟩ := List.pairwise_cons.1 hasc
      unfold insertIn
      split
      · next hlt =>
          rcases List.mem_cons.1 hmem with heq | hmem
          · cases heq
            exact absurd hlt (List.lt_irrefl _)
          · exact absurd (List.lt_trans hlt (hl _ hmem)) (List.lt_irrefl _)
      · split
        · next heq =>
            subst heq
            cases hp : p name with
            | true =>
                simp only [List.find?_cons, hp] at h ⊢
                cases h
                rw [if_pos rfl]
            | false =>
                simp only [List.find?_cons, hp] at h ⊢
                have hne : k ≠ name := fun heq =>
                  List.lt_irrefl _ (heq ▸ hl _ (List.mem_of_find?_eq_some h))
                rw [h, if_neg hne]
        · next hne =>
            have hmem : (name, w) ∈ rest := by
              rcases List.mem_cons.1 hmem with heq | hmem
              · exact absurd (congrArg Prod.fst heq) hne
              · exact hmem
            cases hp : p l with
            | true =>
                simp only [List.find?_cons, hp] at h ⊢
                cases h
                rw [if_neg (Ne.symm hne)]
            | false =>
                simp only [List.find?_cons, hp] at h ⊢
                exact ih hrest hmem h

/-- **What was found is found again** after an insertion under a spelling: under the
name it had, with the new value if that is the spelling. -/
theorem find?_insert_of_find? {m : SortedMap α} {other k : Text} {v : α} (name : Text)
    (value : α) (h : m.find? other = some (k, v)) :
    (m.insert (m.spelling name) value).find? other
      = some (k, if k = m.spelling name then value else v) := by
  rw [find?, get?_insert]
  cases hget : m.get? other with
  | some w =>
      rw [find?, hget] at h
      cases h
      by_cases heq : m.spelling name = other
      · simp [heq]
      · simp [heq, Ne.symm heq]
  | none =>
      have hfind : (m.entries.find? fun e => Text.alike e.1 other) = some (k, v) := by
        rw [find?, hget] at h
        exact h
      have hne : m.spelling name ≠ other := by
        intro heq
        have halike : Text.alike (m.spelling name) other = true := by
          rw [heq, Text.alike_refl]
        have hmem := mem_names_of_alike_spelling halike h
        rw [heq] at hmem
        exact get?_eq_none_iff.1 hget hmem
      rw [if_neg hne]
      cases halike : Text.alike (m.spelling name) other with
      | false =>
          have hk : k ≠ m.spelling name := by
            rintro rfl
            rw [(find?_eq_some h).2] at halike
            cases halike
          rw [if_neg hk]
          exact (find?_insertIn_of_not (p := (Text.alike · other)) value halike).trans hfind
      | true =>
          obtain ⟨w, hw⟩ := mem_names.1 (mem_names_of_alike_spelling halike h)
          exact find?_insertIn_of_mem (p := (Text.alike · other)) value m.ascending hw hfind

/-- What is put under the spelling of a name is found under the name. -/
theorem find?_insert_self (m : SortedMap α) (name : Text) (value : α) :
    (m.insert (m.spelling name) value).find? name = some (m.spelling name, value) := by
  cases h : m.find? name with
  | some e => rw [find?_insert_of_find? name value h, spelling_of_find? h, if_pos rfl]
  | none =>
      rw [spelling_of_find?_none h, find?, get?_insert, if_pos rfl]

/-- **A look-up after an insertion under a spelling** finds what it found before, or
it finds the new value where it found what the look-up of the name found. -/
theorem find?_insert_cases (m : SortedMap α) (name other : Text) (value : α) :
    (m.insert (m.spelling name) value).find? other = m.find? other ∨
      (m.insert (m.spelling name) value).find? other = some (m.spelling name, value) ∧
        m.find? other = m.find? name := by
  cases hother : m.find? other with
  | some e =>
      obtain ⟨k, v⟩ := e
      have hnew := find?_insert_of_find? name value hother
      by_cases hk : k = m.spelling name
      · right
        rw [hnew, if_pos hk, find?_of_spelling hother hk, hk]
        exact ⟨rfl, rfl⟩
      · left
        rw [hnew, if_neg hk]
  | none =>
      have hdiffer := find?_eq_none.1 hother
      cases hnew : (m.insert (m.spelling name) value).find? other with
      | none => exact Or.inl rfl
      | some e =>
          -- Only the inserted name can be the one that is found now.
          right
          obtain ⟨k, v⟩ := e
          obtain ⟨hget, halike⟩ := find?_eq_some hnew
          have hmem := mem_names.2 ⟨v, mem_entries_iff.2 hget⟩
          have hk : k = m.spelling name := by
            rcases mem_names_insert.1 hmem with hk | hold
            · exact hk
            · rw [hdiffer k hold] at halike
              cases halike
          rw [hk, get?_insert, if_pos rfl] at hget
          refine ⟨by rw [hk, Option.some.inj hget], ?_⟩
          cases hname : m.find? name with
          | none => rfl
          | some found =>
              have hold := find?_eq_some hname
              rw [hk, spelling_of_find? hname] at halike
              rw [hdiffer found.1 (mem_names.2 ⟨found.2, mem_entries_iff.2 hold.1⟩)] at halike
              cases halike

/-- Where names differ, a name that is alike finds the same. -/
theorem find?_of_alike {m : SortedMap α} (hdiffer : Text.AllDiffer m.names)
    {name other k : Text} {v : α} (halike : Text.alike name other = true)
    (h : m.find? name = some (k, v)) : m.find? other = some (k, v) := by
  obtain ⟨hget, hk⟩ := find?_eq_some h
  have hmem : k ∈ m.names := mem_names.2 ⟨v, mem_entries_iff.2 hget⟩
  have hspelling := spelling_eq_of_alike hdiffer hmem (Text.alike_trans hk halike)
  exact find?_of_spelling h hspelling.symm

/-- Where names differ, look-ups ignore case. -/
theorem find?_congr {m : SortedMap α} (hdiffer : Text.AllDiffer m.names) {name other : Text}
    (halike : Text.alike name other = true) : m.find? name = m.find? other := by
  cases hname : m.find? name with
  | some e => exact (find?_of_alike hdiffer halike hname).symm
  | none =>
      cases hother : m.find? other with
      | none => rfl
      | some e =>
          rw [find?_of_alike hdiffer (Text.alike_symm halike) hother] at hname
          cases hname

/-! ## Sums over the values -/

/-- The sum of a measure over the values of a map. -/
def total (f : α → Nat) (m : SortedMap α) : Nat :=
  (m.values.map f).sum

/-- An insertion changes a sum over the values by the value that it replaces. -/
theorem sum_insertIn (f : α → Nat) (name : Text) (value : α) {entries : List (Text × α)}
    (hasc : Ascending entries) :
    ((insertIn name value entries).map fun e => f e.2).sum
        + ((getIn name entries).map f).getD 0
      = (entries.map fun e => f e.2).sum + f value := by
  induction entries with
  | nil => simp [insertIn, getIn]
  | cons a rest ih =>
      obtain ⟨k, v⟩ := a
      obtain ⟨hk, hrest⟩ := List.pairwise_cons.1 hasc
      unfold insertIn
      split
      · next hlt =>
          have hnone : getIn name ((k, v) :: rest) = none := by
            refine getIn_eq_none fun e he => ?_
            rcases List.mem_cons.1 he with rfl | he
            · exact hlt
            · exact List.lt_trans hlt (hk e he)
          rw [hnone]
          simp only [List.map_cons, List.sum_cons, Option.map_none, Option.getD_none]
          omega
      · split
        · next heq =>
            subst heq
            simp only [getIn, if_true, List.map_cons, List.sum_cons, Option.map_some,
              Option.getD_some]
            omega
        · next hne =>
            have hrest := ih hrest
            simp only [getIn, if_neg (Ne.symm hne), List.map_cons, List.sum_cons]
            omega

/-- **What an insertion under a spelling adds to a sum**: the new value instead of
the one that was found. -/
theorem total_insert (f : α → Nat) (m : SortedMap α) (name : Text) (value : α) :
    (m.insert (m.spelling name) value).total f + ((m.find? name).map fun e => f e.2).getD 0
      = m.total f + f value := by
  have hsum := sum_insertIn f (m.spelling name) value m.ascending
  have hold : ((m.find? name).map fun e => f e.2) = (m.get? (m.spelling name)).map f := by
    rw [get?_spelling, Option.map_map]
    rfl
  rw [hold]
  simpa only [total, values, insert, get?, List.map_map, Function.comp_def] using hsum

/-! ## Maps of lists and of values -/

/-- Insertions of ascending entries append them. -/
theorem insertIn_of_lt {name : Text} {value : α} {entries : List (Text × α)}
    (h : ∀ e ∈ entries, e.1 < name) : insertIn name value entries = entries ++ [(name, value)] := by
  induction entries with
  | nil => rfl
  | cons a rest ih =>
      obtain ⟨k, v⟩ := a
      have hk : k < name := h (k, v) List.mem_cons_self
      have hne : name ≠ k := fun heq => List.lt_irrefl _ (heq ▸ hk)
      have hnlt : ¬ name < k := fun hlt => List.lt_irrefl _ (List.lt_trans hlt hk)
      rw [insertIn, if_neg hnlt, if_neg hne, ih fun e he => h e (List.mem_cons_of_mem _ he)]
      rfl

/-- Entries that ascend are put one behind the other. -/
theorem entries_foldl_insert (m : SortedMap α) (more : List (Text × α))
    (h : Ascending (m.entries ++ more)) :
    (more.foldl (fun m e => m.insert e.1 e.2) m).entries = m.entries ++ more := by
  induction more generalizing m with
  | nil => simp
  | cons e rest ih =>
      have hlast : (m.insert e.1 e.2).entries = m.entries ++ [e] :=
        insertIn_of_lt fun x hx => (List.pairwise_append.1 h).2.2 x hx e List.mem_cons_self
      rw [List.foldl_cons, ih _ (by rwa [hlast, List.append_assoc]), hlast, List.append_assoc]
      rfl

/-- A map is the map of its entries. -/
theorem ofList_entries (m : SortedMap α) : ofList m.entries = m := by
  have h := entries_foldl_insert empty m.entries (by simpa [empty] using m.ascending)
  obtain ⟨entries, ascending⟩ := m
  exact (SortedMap.mk.injEq ..).mpr (by simpa [ofList, empty] using h)

@[simp] theorem names_mapValues (f : α → β) (m : SortedMap α) :
    (m.mapValues f).names = m.names := by
  simp [names, mapValues, Function.comp_def]

@[simp] theorem values_mapValues (f : α → β) (m : SortedMap α) :
    (m.mapValues f).values = m.values.map f := by
  simp [values, mapValues, Function.comp_def]

theorem getIn_map (f : α → β) (name : Text) (entries : List (Text × α)) :
    getIn name (entries.map fun e => (e.1, f e.2)) = (getIn name entries).map f := by
  induction entries with
  | nil => rfl
  | cons a rest ih =>
      obtain ⟨k, v⟩ := a
      by_cases h : k = name
      · simp [getIn, h]
      · simp only [List.map_cons, getIn, if_neg h, ih]

/-- What is found after a change of the values is what was found before, changed. -/
@[simp] theorem get?_mapValues (f : α → β) (m : SortedMap α) (name : Text) :
    (m.mapValues f).get? name = (m.get? name).map f :=
  getIn_map f name m.entries

/-- A value that is put under a name of the map changes no names. -/
theorem names_insert_of_mem {m : SortedMap α} {name : Text} (h : name ∈ m.names) (value : α) :
    (m.insert name value).names = m.names := by
  obtain ⟨v, hmem⟩ := mem_names.1 h
  have hbare : (m.insert name value).mapValues (fun _ => ()) = m.mapValues fun _ => () := by
    refine ext_get? fun other => ?_
    rw [get?_mapValues, get?_insert, get?_mapValues]
    by_cases heq : name = other
    · rw [if_pos heq, ← heq, mem_entries_iff.1 hmem]
      rfl
    · rw [if_neg heq]
  rw [← names_mapValues (fun _ => ()) (m.insert name value), hbare, names_mapValues]

/-- A function that changes no value changes no map. -/
theorem mapValues_eq_self {f : α → α} {m : SortedMap α} (h : ∀ v ∈ m.values, f v = v) :
    m.mapValues f = m := by
  obtain ⟨entries, ascending⟩ := m
  refine (SortedMap.mk.injEq ..).mpr ?_
  refine (List.map_congr_left fun e he => ?_).trans (List.map_id entries)
  rw [h e.2 (List.mem_map_of_mem he)]
  rfl

end SortedMap

end Tagline
