import Mathlib.Algebra.Order.BigOperators.Group.List
import Mathlib.Algebra.Order.Group.Nat
import Tagline.Proofs.History.Lookup

/-!
# What is opened of a text

Anyone may write a history text: a value may stand in a list more than once, a name may
stand beside a variant of it, and a list or a database may be empty.  An opening takes
such a document as it is, up to one thing: of several values that are alike a list
keeps the one that stands first.  The store is dirty if this drops a value.

A value is kept exactly if no variant of it stands **in front of** it.  That says nothing
about what was kept before; the opening, which goes through a list once, compares with
the values it has kept so far, and these have the same lower-cased forms as all the
values in front.

* `keepFirst_eq_firsts` — the values that are kept are those that stand first;
* `Document.firstsOnly_dedup` — a document keeps all else;
* `Document.valueCount_dedup_lt_iff` — it has fewer values unless it has no repeats;
* `Store.text_round_trip` — what is opened of a text, and of a saved store.
-/

namespace Tagline

/-- The values of a list that stand in front of all their variants, in order. -/
def firsts (vs : List Text) : List Text :=
  (vs.zipIdx.filter fun p => (vs.take p.2).all fun w => !Text.alike w p.1).map (·.1)

/-- What is kept of some values behind others, of which `seen` are the lower-cased
forms. -/
theorem keepFirst_append (before : List Text) {seen : List Text}
    (hseen : ∀ t, t ∈ seen ↔ ∃ w ∈ before, Text.lower w = t) (vs : List Text) :
    keepFirst seen vs
      = ((vs.zipIdx before.length).filter fun p =>
          ((before ++ vs).take p.2).all fun w => !Text.alike w p.1).map (·.1) := by
  induction vs generalizing before seen with
  | nil => rfl
  | cons v vs ih =>
      have hfront : ((before ++ v :: vs).take before.length).all (fun w => !Text.alike w v)
          = !seen.contains (Text.lower v) := by
        rw [List.take_left, Bool.eq_iff_iff]
        simp [hseen, Text.alike_eq_false_iff]
      have hlater : before ++ v :: vs = (before ++ [v]) ++ vs := by simp
      have hlength : before.length + 1 = (before ++ [v]).length := by simp
      rw [keepFirst, List.zipIdx_cons, List.filter_cons, hfront, hlater, hlength]
      by_cases hold : seen.contains (Text.lower v) = true
      · -- The form of a value that is dropped is among those in front already.
        rw [if_pos hold, hold, Bool.not_true, if_neg Bool.false_ne_true]
        refine ih (before ++ [v]) fun t => ?_
        have hmem : Text.lower v ∈ seen := by simpa using hold
        have hown : Text.lower v = t → t ∈ seen := fun h => h ▸ hmem
        simp only [List.mem_append, List.mem_singleton, or_and_right, exists_or, exists_eq_left]
        rw [← hseen, or_iff_left_of_imp hown]
      · rw [if_neg hold, Bool.eq_false_iff.2 hold, Bool.not_false, if_pos rfl, List.map_cons]
        refine congrArg (v :: ·) (ih (before ++ [v]) fun t => ?_)
        simp only [List.mem_append, List.mem_singleton, or_and_right, exists_or, exists_eq_left]
        rw [← hseen, List.mem_cons, or_comm, eq_comm (a := t)]

/-- **The values that are kept are those that stand first.** -/
theorem keepFirst_eq_firsts (vs : List Text) : keepFirst [] vs = firsts vs :=
  keepFirst_append [] (by simp) vs

theorem keepFirst_sublist (seen vs : List Text) : (keepFirst seen vs).Sublist vs := by
  induction vs generalizing seen with
  | nil => exact .slnil
  | cons v vs ih =>
      rw [keepFirst]
      split
      · exact (ih seen).cons v
      · exact (ih _).cons_cons v

namespace Document

/-- The document `d'` has the databases and keys of `d` in the same spelling, and of
each list the values that stand first. -/
structure FirstsOnly (d d' : Document) : Prop where
  names : d'.names = d.names
  lists : ∀ name key, d'.stored? name key = (d.stored? name key).map firsts

/-- **A document without its repeats** keeps all else. -/
theorem firstsOnly_dedup (d : Document) : d.FirstsOnly d.dedup where
  names := by simp [Document.names, dedup]
  lists name key := by
    have hkept : keepFirst [] = firsts := funext keepFirst_eq_firsts
    simp only [stored?, dedup, hkept, SortedMap.get?_mapValues, Option.bind_map, Option.map_bind,
      Function.comp_def]

/-- **Repeats are what a document has less without them.** -/
theorem valueCount_dedup_lt_iff {d : Document} :
    d.dedup.valueCount < d.valueCount ↔ d.dedup ≠ d := by
  constructor
  · intro hless hsame
    rw [hsame] at hless
    exact Nat.lt_irrefl _ hless
  · intro hother
    obtain ⟨list, hlist, hrepeats⟩ : ∃ list ∈ d.lists, ¬ Text.AllDiffer list := by
      by_contra hnone
      simp only [not_exists, not_and, not_not] at hnone
      exact hother (dedup_eq_self hnone)
    have hshorter : (keepFirst [] list).length < list.length := by
      refine Nat.lt_of_not_le fun hle => hrepeats ?_
      rw [← (keepFirst_sublist [] list).eq_of_length_le hle]
      exact allDiffer_keepFirst [] list
    simp only [valueCount, lists_dedup, List.length_flatten, List.map_map]
    exact List.sum_lt_sum _ _ (fun vs _ => (keepFirst_sublist [] vs).length_le)
      ⟨list, hlist, hshorter⟩

end Document

namespace Store

variable {β : Type} [Medium β]

/-- **What is opened of the text of a document**: the document without its repeats. -/
theorem openOn_of_encode {medium : β} {d : Document}
    (h : Medium.read medium = .ok (some d.encode)) :
    openOn medium = .ok { medium, document := d.dedup, dirty := d.dedup != d } := by
  rw [openOn_eq_ok, load]
  simp only [h, Document.decode?_encode]

theorem Reached.noRepeats {loads : List Document} {s : Store β} (h : Reached loads s) :
    s.document.NoRepeats :=
  h.document Document.noRepeats_empty (fun _ e hd => hd.add e) (fun _ e hd => hd.remove e)
    fun d _ => d.noRepeats_dedup

/-- **A history text goes there and back.**  Of the text of any document an opening makes
the document with only the values that stand first in their lists, all names and lists
being as they were, and the store is dirty exactly if a value is dropped.  A store that
has come about in any way and is saved without an error is opened again just as it is:
with the same document, and not dirty. -/
theorem text_round_trip [FaithfulMedium β] :
    (∀ (medium : β) (d : Document), Medium.read medium = .ok (some d.encode) →
      ∃ s, openOn medium = .ok s ∧ s.medium = medium ∧ d.FirstsOnly s.document ∧
        (s.dirty = true ↔ s.document.valueCount < d.valueCount)) ∧
    ∀ (loads : List Document) (s : Store β), Reached loads s →
      (Medium.write s.medium s.document.encode).2 = .ok () →
        ∃ t, s.save = (t, .ok ()) ∧ openOn t.medium = .ok t ∧ t.document = s.document ∧
          t.dirty = false := by
  refine ⟨fun medium d hread => ?_, fun loads s hreached hwrite => ?_⟩
  · refine ⟨_, openOn_of_encode hread, rfl, d.firstsOnly_dedup, ?_⟩
    rw [Document.valueCount_dedup_lt_iff, bne_iff_ne]
  · obtain ⟨t, hsave⟩ : ∃ t, s.save = (t, .ok ()) := by
      unfold save
      split
      · next medium e hfailed =>
          rw [hfailed] at hwrite
          cases hwrite
      · exact ⟨_, rfl⟩
    have hopens := openOn_of_save hreached.noRepeats hsave
    obtain ⟨_, hdocument, hclean⟩ := save_eq_ok hsave
    exact ⟨t, hsave, hopens, hdocument, hclean⟩

/-- A history in which a place was written in three ways and a database in two, with a
list and a database that are empty. -/
def scribbled : Document :=
  ⟨SortedMap.ofList [("Gear", SortedMap.ofList
      [("Place", ["Park", "Gym", "PARK", "park", "Ice \"rink\""]), ("Shoe", [])]),
    ("gear", SortedMap.ofList [("Place", ["gym"])]), ("Trip", SortedMap.empty)]⟩

/-- A history file with that history. -/
def scribbledFile : HistoryFile where
  path := "h.json"
  files := ⟨[(["h.json".toList], .file scribbled.encode)]⟩

/-- Two of the three places are dropped, and everything else is opened; a save writes
what is left, and the next opening finds that. -/
theorem text_round_trip_scribbled :
    ∃ s, openOn scribbledFile = .ok s ∧ scribbled.FirstsOnly s.document ∧ s.dirty = true ∧
      s.document.names = ["Gear".toList, "Trip".toList, "gear".toList] ∧
      s.document.stored? "Gear" "Place"
        = some ["Park".toList, "Gym".toList, "Ice \"rink\"".toList] ∧
      s.document.stored? "Gear" "Shoe" = some [] ∧
      ∃ t, s.save = (t, .ok ()) ∧ openOn t.medium = .ok t ∧ t.document = s.document ∧
        t.dirty = false := by
  obtain ⟨hopening, hsaving⟩ := text_round_trip (β := HistoryFile)
  obtain ⟨s, hopen, hmedium, hfirsts, hdirty⟩ := hopening scribbledFile scribbled rfl
  have hwrite : (Medium.write s.medium s.document.encode).2 = .ok () := by
    rw [hmedium]
    rfl
  have hdocument : s.document = scribbled.dedup := by
    rw [openOn_of_encode rfl] at hopen
    cases hopen
    rfl
  refine ⟨s, hopen, hfirsts, hdirty.2 ?_, ?_, ?_, ?_, hsaving _ s (.opened hopen) hwrite⟩
  · rw [hdocument]
    decide +kernel
  · rw [hfirsts.names]
    decide +kernel
  · rw [hfirsts.lists]
    decide +kernel
  · rw [hfirsts.lists]
    decide +kernel

end Store

end Tagline
