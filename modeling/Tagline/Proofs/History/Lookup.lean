import Tagline.Proofs.History.Store
import Tagline.Proofs.Text.Case

/-!
# What look-ups find

A list **stands** under one exact spelling of its database and its key.  A look-up
takes the exact name where there is one and otherwise the first name that is alike,
so it finds a list that stands under variants of the names it is asked for.

Where a document holds no two variants of a name, every look-up finds the same under
all variants.  A document that was written elsewhere may hold variants, and nothing
brings them together: each exact spelling finds its own list, and the lists part at
the latest when one of them grows.

* `stored?_setBucket` — where a list stands that was put;
* `bucket?_eq_stored?`, `bucket?_of_stored?` — what a look-up finds of it;
* `NamesDiffer.ignoresCase`, `namesDiffer_of_ignoresCase` — look-ups ignore case
  where names differ, and nowhere else for long;
* `Store.ignoresCase_iff` — the histories whose look-ups ignore case for good.
-/

namespace Tagline

namespace Text

/-- There is always a text that is alike to none of some texts. -/
theorem exists_not_alike (ts : List Text) : ∃ t, ∀ s ∈ ts, alike s t = false := by
  -- A low letter, repeated more often than all of them are long.
  let long : Text := List.replicate ((ts.map lower).flatten.length + 1) 'a'
  have hlow : lower long = long := lowerAfter_of_isLow fun c hc => by
    rw [List.eq_of_mem_replicate hc]
    exact ⟨by decide, by decide⟩
  refine ⟨long, fun s hs => alike_eq_false_iff.2 fun heq => ?_⟩
  have hshort := (List.sublist_flatten_of_mem (List.mem_map_of_mem (f := lower) hs)).length_le
  rw [heq, hlow, List.length_replicate] at hshort
  omega

end Text

namespace Document

/-! ## Where lists stand -/

/-- The list that stands under exactly these names. -/
def stored? (d : Document) (name key : Text) : Option (List Text) :=
  (d.databases.get? name).bind (·.get? key)

theorem stored?_spelling (d : Document) (database key : Text) :
    d.stored? (d.databases.spelling database) key = (d.bucketsAt database).get? key := by
  rw [stored?, bucketsAt]
  cases d.databases.get? (d.databases.spelling database) <;> rfl

/-- A list that is put under exact names stands there, and all others stand where they
stood. -/
theorem stored?_insert (d : Document) (name key n k : Text) (list : List Text) :
    stored? ⟨d.databases.insert name
        (((d.databases.get? name).getD SortedMap.empty).insert key list)⟩ n k
      = if n = name ∧ k = key then some list else d.stored? n k := by
  rw [stored?, SortedMap.get?_insert]
  by_cases hname : n = name
  · subst hname
    rw [if_pos rfl, Option.bind_some, SortedMap.get?_insert]
    by_cases hkey : k = key
    · rw [if_pos hkey.symm, if_pos ⟨rfl, hkey⟩]
    · rw [if_neg (Ne.symm hkey), if_neg fun h => hkey h.2, stored?]
      cases d.databases.get? n <;> rfl
  · rw [if_neg (Ne.symm hname), if_neg fun h => hname h.1, stored?]

/-- **Where a list stands that was put**: under the spellings that were found.  All
others stand where they stood. -/
theorem stored?_setBucket (d : Document) (database key name k : Text) (list : List Text) :
    (d.setBucket database key list).stored? name k
      = if name = d.databases.spelling database ∧ k = (d.bucketsAt database).spelling key
        then some list else d.stored? name k :=
  d.stored?_insert _ _ name k list

/-- **A look-up finds the list under the spellings it finds.** -/
theorem bucket?_eq_stored? (d : Document) (database key : Text) :
    d.bucket? database key
      = d.stored? (d.databases.spelling database) ((d.bucketsAt database).spelling key) := by
  rw [bucket?_eq, stored?_spelling, SortedMap.get?_spelling]

/-- The values that are found are the list under the spellings that are found. -/
theorem values_of_stored? {d : Document} {database key : Text} {list : List Text}
    (h : d.stored? (d.databases.spelling database) ((d.bucketsAt database).spelling key)
      = some list) : d.values database key = list := by
  rw [values, bucket?_eq_stored?, h, Option.getD_some]

/-- Exact names are found first. -/
theorem bucket?_of_stored? {d : Document} {name key : Text} {list : List Text}
    (h : d.stored? name key = some list) : d.bucket? name key = some list := by
  obtain ⟨buckets, hbuckets, hlist⟩ := Option.bind_eq_some_iff.1 h
  exact bucket?_eq_some.2
    ⟨name, buckets, key, SortedMap.find?_of_get? hbuckets, SortedMap.find?_of_get? hlist⟩

/-- A change leaves the databases alone that stand under other names. -/
theorem bucket?_setBucket_of_ne {d : Document} {database other : Text}
    (hother : other ∈ d.names) (hne : other ≠ d.databases.spelling database) (key k : Text)
    (list : List Text) :
    (d.setBucket database key list).bucket? other k = d.bucket? other k := by
  obtain ⟨buckets, hmem⟩ := SortedMap.mem_names.1 hother
  have hget := SortedMap.mem_entries_iff.1 hmem
  have hafter : (d.setBucket database key list).databases.get? other = some buckets := by
    rw [setBucket_eq, SortedMap.get?_insert, if_neg (Ne.symm hne), hget]
  rw [bucket?, bucket?, SortedMap.find?_of_get? hget, SortedMap.find?_of_get? hafter]

/-! ## Look-ups that ignore case -/

/-- Look-ups find the same under all variants of their names. -/
def IgnoresCase (d : Document) : Prop :=
  ∀ database other key k, Text.alike database other = true → Text.alike key k = true →
    d.values database key = d.values other k

/-- **Where names differ, look-ups ignore case.** -/
theorem NamesDiffer.ignoresCase {d : Document} (h : d.NamesDiffer) : d.IgnoresCase := by
  intro database other key k hdatabase hkey
  have hfound : d.databases.find? database = d.databases.find? other :=
    SortedMap.find?_congr h.databases hdatabase
  have hbuckets : d.bucketsAt database = d.bucketsAt other := by
    rw [bucketsAt, bucketsAt, SortedMap.get?_spelling, SortedMap.get?_spelling, hfound]
  have hkeys : Text.AllDiffer (d.bucketsAt other).names := by
    rcases d.bucketsAt_mem other with hempty | hmem
    · rw [hempty]
      exact Text.allDiffer_nil
    · exact h.keys _ hmem
  rw [values, values, bucket?_eq, bucket?_eq, hbuckets, SortedMap.find?_congr hkeys hkey]

/-- Look-ups that ignore case before and after every addition show every change of a
list under all variants of its names. -/
theorem IgnoresCase.exists_change {d : Document} (h : d.IgnoresCase)
    (hadd : ∀ e, (d.add e).IgnoresCase) {database other key k : Text}
    (hdatabase : Text.alike database other = true) (hkey : Text.alike key k = true) :
    ∃ list, (d.setBucket database key list).values other k ≠ d.values other k := by
  obtain ⟨value, hnew⟩ := Text.exists_not_alike (d.values database key)
  have hlack : ¬ d.contains database key value = true := by
    rw [Bool.not_eq_true]
    exact contains_eq_false.2 hnew
  have hadded : d.add ⟨database, key, value⟩
      = d.setBucket database key (d.values database key ++ [value]) := if_neg hlack
  have hgrown := hadd ⟨database, key, value⟩ database other key k hdatabase hkey
  rw [hadded, values_setBucket] at hgrown
  refine ⟨d.values database key ++ [value], fun hsame => ?_⟩
  rw [hsame, ← h database other key k hdatabase hkey] at hgrown
  have hlength := congrArg List.length hgrown
  rw [List.length_append, List.length_singleton] at hlength
  omega

/-- **Nowhere else do look-ups ignore case for long**: of two variants of a name one
can grow without the other. -/
theorem namesDiffer_of_ignoresCase {d : Document} (h : d.IgnoresCase)
    (hadd : ∀ e, (d.add e).IgnoresCase) : d.NamesDiffer where
  databases := by
    refine Text.allDiffer_of_nodup d.databases.nodup_names fun name hname other hother halike => ?_
    by_contra hne
    obtain ⟨list, hchange⟩ := h.exists_change hadd halike (Text.alike_refl [])
    have hspelling : other ≠ d.databases.spelling name := by
      rw [SortedMap.spelling_of_mem hname]
      exact Ne.symm hne
    exact hchange (by rw [values, values, bucket?_setBucket_of_ne hother hspelling])
  keys buckets hbuckets := by
    obtain ⟨⟨name, own⟩, hentry, rfl⟩ := List.mem_map.1 hbuckets
    have hget := SortedMap.mem_entries_iff.1 hentry
    have hown := bucketsAt_of_find? (SortedMap.find?_of_get? hget)
    refine Text.allDiffer_of_nodup own.nodup_names fun key hkey k hk halike => ?_
    by_contra hne
    obtain ⟨list, hchange⟩ := h.exists_change hadd (Text.alike_refl name) halike
    obtain ⟨found, hfound⟩ := SortedMap.mem_names.1 hk
    have hstored : d.stored? name k = some found := by
      rw [stored?, hget, Option.bind_some, SortedMap.mem_entries_iff.1 hfound]
    have hspelling : k ≠ (d.bucketsAt name).spelling key := by
      rw [hown, SortedMap.spelling_of_mem hkey]
      exact Ne.symm hne
    have hafter : (d.setBucket name key list).stored? name k = some found := by
      rw [stored?_setBucket, if_neg fun h => hspelling h.2, hstored]
    exact hchange (by rw [values, values, bucket?_of_stored? hstored, bucket?_of_stored? hafter])

end Document

/-! ## Histories that were loaded -/

namespace Store

variable {β : Type}

/-- A call that changes the document in memory only. -/
def Call.Edits : Call → Prop
  | .addRecord _ _ => True
  | .apply _ => True
  | .removeValue _ _ _ => True
  | _ => False

variable [Medium β]

/-- The states of a store that come about while it is neither loaded nor saved. -/
inductive Edited (s : Store β) : Store β → Prop where
  | refl : Edited s s
  | call {t : Store β} (h : Edited s t) {c : Call} (hc : c.Edits) : Edited s (t.call c)

/-- An edit loads nothing. -/
theorem loaded_of_edits {s : Store β} {c : Call} (hc : c.Edits) : s.loaded c = [] := by
  cases c with
  | load => exact absurd hc id
  | _ => rfl

theorem Edited.namesDiffer {s t : Store β} (h : Edited s t) (hs : s.document.NamesDiffer) :
    t.document.NamesDiffer := by
  induction h with
  | refl => exact hs
  | @call t _ c hc ih =>
      refine document_call Document.namesDiffer_empty (fun _ e hd => hd.add e)
        (fun _ e hd => hd.remove e) ih fun d hd => ?_
      rw [loaded_of_edits hc] at hd
      exact absurd hd List.not_mem_nil

/-- An addition is an edit. -/
theorem edited_add (s : Store β) (e : Entry) :
    ∃ t, s.Edited t ∧ t.document = s.document.add e :=
  ⟨s.call (.apply ⟨[e]⟩), Edited.refl.call trivial, rfl⟩

/-- **The histories whose look-ups ignore case for good.**  After a load the look-ups
of every state that comes about in memory ignore case exactly if what was loaded holds
no two databases that are alike and no database with two keys that are alike. -/
theorem ignoresCase_iff {s t : Store β} (h : s.load = (t, .ok ())) :
    (∀ u, t.Edited u → u.document.IgnoresCase) ↔
      ∀ d, held? s.medium = some d → d.NamesDiffer := by
  have hnames : t.document.NamesDiffer ↔ ∀ d, held? s.medium = some d → d.NamesDiffer := by
    rcases document_of_load h with ⟨hnone, hempty⟩ | ⟨d, hheld, hdedup⟩
    · simp [hnone, hempty, Document.namesDiffer_empty]
    · simp [hheld, hdedup, Document.namesDiffer_dedup_iff]
  rw [← hnames]
  constructor
  · intro hignores
    refine Document.namesDiffer_of_ignoresCase (hignores t .refl) fun e => ?_
    obtain ⟨u, hedited, hdocument⟩ := t.edited_add e
    rw [← hdocument]
    exact hignores u hedited
  · intro hdiffer u hedited
    exact (hedited.namesDiffer hdiffer).ignoresCase

/-- A history in which a database was written in two ways. -/
def twiceNamed : Document :=
  ⟨SortedMap.ofList [("Gear", SortedMap.ofList [("Place", ["Park"])]),
    ("gear", SortedMap.ofList [("Place", ["Gym"])])]⟩

/-- What is loaded of that history. -/
def twiceNamedStore : Store Memory where
  medium := ⟨some twiceNamed.encode⟩
  document := twiceNamed

/-- Each of the two spellings finds its own list, and so look-ups do not ignore case. -/
theorem ignoresCase_iff_twiceNamed :
    Store.load { medium := ⟨some twiceNamed.encode⟩ : Store Memory }
        = (twiceNamedStore, .ok ()) ∧
      twiceNamedStore.values "Gear" "Place" = ["Park".toList] ∧
      twiceNamedStore.values "gear" "Place" = ["Gym".toList] ∧
      twiceNamedStore.values "GEAR" "PLACE" = ["Park".toList] ∧
      ¬ ∀ u, twiceNamedStore.Edited u → u.document.IgnoresCase := by
  have hload : Store.load { medium := ⟨some twiceNamed.encode⟩ : Store Memory }
      = (twiceNamedStore, .ok ()) := by
    have hread : Medium.read (⟨some twiceNamed.encode⟩ : Memory)
        = .ok (some twiceNamed.encode) := rfl
    have hdedup : twiceNamed.dedup = twiceNamed := by decide +kernel
    simp only [load, hread, Document.decode?_encode, hdedup, bne_self_eq_false]
    rfl
  refine ⟨hload, by decide +kernel, by decide +kernel, by decide +kernel, fun hignores => ?_⟩
  have hheld : held? (⟨some twiceNamed.encode⟩ : Memory) = some twiceNamed :=
    (held?_of_read rfl).trans twiceNamed.decode?_encode
  have hdiffer := (ignoresCase_iff hload).1 hignores twiceNamed hheld
  exact absurd hdiffer.databases (by decide +kernel)

end Store

end Tagline
