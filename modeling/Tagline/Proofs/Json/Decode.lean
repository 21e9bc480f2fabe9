import Tagline.Json.Decode
import Tagline.Proofs.Json
import Tagline.Proofs.SortedMap

/-!
# Written values are read out of JSON again

The readers of documents are put together from small ones, and each of these undoes
the writer that belongs to it: a list item by item, a map entry by entry, a field that
is left out by its default.  A record is written member by member and read field by
field, so a field finds its own member as long as no member goes by a name of another
field.

* `listOf?_ofTexts`, `mapOf?_object` — lists and maps;
* `record?_object` — the fields of a record, whichever of them are written;
* `fieldOr_nullable` — a field that is written only where it has a value.
-/

namespace Tagline

namespace Json

variable {α : Type}

/-- A reader that succeeds on every item of a list succeeds on the list. -/
theorem mapM_eq_some_map {γ δ : Type} {f : γ → Option δ} {g : γ → δ} {cs : List γ}
    (h : ∀ c ∈ cs, f c = some (g c)) : cs.mapM f = some (cs.map g) := by
  induction cs with
  | nil => rfl
  | cons c cs ih =>
      have hrest := ih fun d hd => h d (List.mem_cons_of_mem _ hd)
      simp [h c List.mem_cons_self, hrest]

theorem mapM_some_map {γ : Type} {f : α → Option γ} {g : γ → α} (h : ∀ c, f (g c) = some c)
    (cs : List γ) : (cs.map g).mapM f = some cs := by
  rw [List.mapM_map, mapM_eq_some_map (f := f ∘ g) (g := id) fun c _ => h c, List.map_id]

/-- A list is read back from the array of its items. -/
theorem listOf?_array {f : Json → Option α} {g : α → Json} (h : ∀ a, f (g a) = some a)
    (as : List α) : listOf? f (.array (as.map g)) = some as :=
  mapM_some_map h as

theorem listOf?_ofTexts (ts : List Text) : listOf? text? (ofTexts ts) = some ts :=
  listOf?_array (f := text?) (g := .string) (fun _ => rfl) ts

/-- A map is read back from the object of its entries. -/
theorem mapOf?_object {f : Json → Option α} {g : α → Json} (h : ∀ a, f (g a) = some a)
    (m : SortedMap α) : mapOf? f (.object (m.entries.map fun e => (e.1, g e.2))) = some m := by
  have hentry : ∀ e : Text × α, member? f (e.1, g e.2) = some e := by
    intro e
    simp [member?, h]
  rw [mapOf?, mapM_some_map hentry, Option.map_some, SortedMap.ofList_entries]

/-! ## Records -/

/-- A field of a record as it is written: its name, the names under which it is read,
and its value, if it is written at all. -/
structure WrittenField where
  name : Text
  aliases : List Text
  value : Option Json

/-- The members that written fields make. -/
def membersOf (fields : List WrittenField) : List (Text × Json) :=
  fields.flatMap fun f => memberIf f.name f.value

theorem name_of_mem_membersOf {fields : List WrittenField} {m : Text × Json}
    (h : m ∈ membersOf fields) : ∃ f ∈ fields, m.1 = f.name := by
  obtain ⟨f, hf, hm⟩ := List.mem_flatMap.1 h
  refine ⟨f, hf, ?_⟩
  unfold memberIf at hm
  split at hm
  · cases hm
  · rw [List.mem_singleton.1 hm]

/-- A record is legible if what is written of it is. -/
theorem legible_membersOf {fields : List WrittenField}
    (h : ∀ f ∈ fields, ∀ j ∈ f.value, Legible j) : Legible (.object (membersOf fields)) := by
  refine legible_object fun m hm => ?_
  obtain ⟨f, hf, hm⟩ := List.mem_flatMap.1 hm
  have hvalue := h f hf
  cases hj : f.value with
  | none =>
      rw [hj] at hm
      cases hm
  | some j =>
      rw [hj] at hm
      rw [List.mem_singleton.1 hm]
      exact hvalue j hj

/-- Members with other names do not get in the way of a field. -/
theorem filter_membersOf_eq_nil {fields : List WrittenField} (names : List Text)
    (h : ∀ f ∈ fields, f.name ∉ names) :
    (membersOf fields).filter (fun m => names.contains m.1) = [] := by
  refine List.filter_eq_nil_iff.2 fun m hm => ?_
  obtain ⟨f, hf, hname⟩ := name_of_mem_membersOf hm
  rw [hname, List.contains_iff_mem]
  exact h f hf

/-- **The fields of a record are read from its members**, if each field has its own
name among its aliases and no other field has. -/
theorem record?_object (fields : List WrittenField) (hown : ∀ f ∈ fields, f.name ∈ f.aliases)
    (hother : fields.Pairwise fun f g => f.name ∉ g.aliases ∧ g.name ∉ f.aliases) :
    record? (fields.map (·.aliases)) (.object (membersOf fields))
      = some (fields.map (·.value)) := by
  have hfield : ∀ f ∈ fields, field? f.aliases (membersOf fields) = some f.value := by
    intro f hf
    obtain ⟨before, after, rfl⟩ := List.append_of_mem hf
    rw [List.pairwise_append, List.pairwise_cons] at hother
    obtain ⟨_, ⟨hafter, _⟩, hbefore⟩ := hother
    have hleft := filter_membersOf_eq_nil f.aliases
      fun g hg => (hbefore g hg f List.mem_cons_self).1
    have hright := filter_membersOf_eq_nil f.aliases fun g hg => (hafter g hg).2
    have hmembers : membersOf (before ++ f :: after)
        = membersOf before ++ (memberIf f.name f.value ++ membersOf after) := by
      simp [membersOf]
    have hself : f.aliases.contains f.name = true := List.contains_iff_mem.2 (hown f hf)
    rw [field?, hmembers, List.filter_append, List.filter_append, hleft, hright]
    cases f.value with
    | none => rfl
    | some j =>
        have hone : [(f.name, j)].filter (fun m => f.aliases.contains m.1) = [(f.name, j)] :=
          List.filter_cons_of_pos hself
        rw [memberIf, hone]
        rfl
  rw [record?, List.mapM_map]
  exact mapM_eq_some_map hfield

/-- A field that is written only where it has a value is read back, its default
standing for the absent value. -/
theorem fieldOr_nullable {f : Json → Option α} {g : α → Json} (h : ∀ a, f (g a) = some a)
    (hnull : ∀ a, g a ≠ .null) (value : Option α) :
    fieldOr none (nullable? f) (value.map g) = some value := by
  cases value with
  | none => rfl
  | some a =>
      have hvalue : nullable? f (g a) = (f (g a)).map some := by
        unfold nullable?
        split
        · next heq => exact absurd heq (hnull a)
        · rfl
      rw [Option.map_some, fieldOr, hvalue, h, Option.map_some]

end Json

end Tagline
