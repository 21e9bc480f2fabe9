import Tagline.Proofs.History.Opening

/-!
# Taking a value out

A removal looks for its list twice: once to find the place of the value in it, and once more,
by a look-up that would make a missing list, to take the value at that place out.  Between
the two nothing is made, because what the first look-up finds the second one finds too, under
the same names.  So a removal changes the one list that is **found**, and this list shows
wherever a look-up finds it, under whatever variant of its names.

A list has no two values that are alike.  So the first value that is alike to a given one is
the only one, and no variant of it is left.

* `found?_setBucket_of_found?` — a list that is found is found again after a change;
* `found?_remove` — what any look-up finds after a removal;
* `position?_eq_some` — the place of a value lies within the list that is changed;
* `Store.removal_is_local` — what a removal does to a store, and what it leaves alone.
-/

namespace Tagline

namespace Document

/-! ## What a look-up finds, and where -/

/-- A list is found where it would be put, and it stands there. -/
theorem found?_eq_some {d : Document} {database key : Text} {p : Text × Text} {list : List Text}
    (h : d.found? database key = some (p, list)) :
    p = d.place database key ∧ d.stored? p.1 p.2 = some list := by
  rw [found?_eq, Option.map_eq_some_iff] at h
  obtain ⟨⟨k, found⟩, hfind, heq⟩ := h
  cases heq
  have hspelling := SortedMap.spelling_of_find? hfind
  refine ⟨by rw [place, hspelling], ?_⟩
  rw [stored?_spelling, (SortedMap.find?_eq_some hfind).1]

/-- The values of a list that is found are its own. -/
theorem values_of_found? {d : Document} {database key : Text} {p : Text × Text}
    {list : List Text} (h : d.found? database key = some (p, list)) :
    d.values database key = list := by
  rw [values, bucket?_eq_found?, h, Option.map_some, Option.getD_some]

/-- Where no list is found there are no values. -/
theorem values_of_found?_none {d : Document} {database key : Text}
    (h : d.found? database key = none) : d.values database key = [] := by
  rw [values, bucket?_eq_found?, h]
  rfl

/-- A value that is held is held in a list that is found. -/
theorem exists_found?_of_contains {d : Document} {database key value : Text}
    (h : d.contains database key value = true) :
    ∃ list, d.found? database key = some (d.place database key, list) := by
  cases hfound : d.found? database key with
  | none =>
      obtain ⟨v, hv, _⟩ := contains_eq_true.1 h
      rw [values_of_found?_none hfound] at hv
      cases hv
  | some f => exact ⟨f.2, by rw [← (found?_eq_some hfound).1]⟩

/-- A list that is found is found under the same names after a change. -/
theorem found?_setBucket_of_found? {d : Document} {database key other k : Text} {p : Text × Text}
    {found : List Text} (h : d.found? other k = some (p, found)) (list : List Text) :
    (d.setBucket database key list).found? other k
      = some (p, if p = d.place database key then list else found) := by
  rcases d.found?_setBucket_cases database key other k list with hsame | ⟨hnew, hold⟩
  · rw [h] at hsame
    split
    · next hplace =>
        have hstored := (found?_eq_some hsame).2
        rw [stored?_setBucket, if_pos ⟨congrArg Prod.fst hplace, congrArg Prod.snd hplace⟩]
          at hstored
        rw [hsame, Option.some.inj hstored]
    · exact hsame
  · rw [h] at hold
    obtain ⟨rfl, _⟩ := found?_eq_some hold.symm
    rw [hnew, if_pos rfl]

/-! ## Removals -/

/-- Nothing is taken out of a list that does not hold the value. -/
theorem eraseP_of_not_contains {d : Document} {database key value : Text}
    (h : d.contains database key value = false) :
    ((d.values database key).eraseP fun v => Text.alike v value) = d.values database key :=
  List.eraseP_of_forall_not fun v hv => by
    rw [contains_eq_false.1 h v hv]
    exact Bool.false_ne_true

/-- **What any look-up finds after a removal**: the same as before under the same names, and
the value is missing where the list is found that the removal finds. -/
theorem found?_remove (d : Document) (e : Entry) (database key : Text) :
    (d.remove e).found? database key
      = (d.found? database key).map fun f =>
          (f.1, if (d.found? e.database e.key).map (·.1) = some f.1
            then f.2.eraseP fun v => Text.alike v e.value else f.2) := by
  cases hheld : d.contains e.database e.key e.value with
  | false =>
      have hsame : d.remove e = d := if_neg (by rw [hheld]; exact Bool.false_ne_true)
      rw [hsame]
      cases hfound : d.found? database key with
      | none => rfl
      | some f =>
          obtain ⟨p, list⟩ := f
          rw [Option.map_some]
          split
          · next hplace =>
              obtain ⟨⟨q, own⟩, hown, hq⟩ := Option.map_eq_some_iff.1 hplace
              dsimp only at hq
              subst hq
              have hlist : list = own := Option.some.inj
                ((found?_eq_some hfound).2.symm.trans (found?_eq_some hown).2)
              have hkept := eraseP_of_not_contains hheld
              rw [values_of_found? hown] at hkept
              rw [hlist, hkept]
          · rfl
  | true =>
      obtain ⟨own, hown⟩ := exists_found?_of_contains hheld
      have hchanged : d.remove e = d.setBucket e.database e.key
          (own.eraseP fun v => Text.alike v e.value) := by
        rw [remove, if_pos hheld, values_of_found? hown]
      rw [hchanged, hown, Option.map_some]
      cases hfound : d.found? database key with
      | none =>
          rcases d.found?_setBucket_cases e.database e.key database key
              (own.eraseP fun v => Text.alike v e.value) with hsame | ⟨_, hold⟩
          · rw [hsame, hfound]
            rfl
          · rw [hfound, hown] at hold
            cases hold
      | some f =>
          obtain ⟨p, list⟩ := f
          rw [found?_setBucket_of_found? hfound, Option.map_some]
          by_cases hplace : p = d.place e.database e.key
          · subst hplace
            have hlist : list = own := Option.some.inj
              ((found?_eq_some hfound).2.symm.trans (found?_eq_some hown).2)
            rw [if_pos rfl, if_pos rfl, hlist]
          · rw [if_neg hplace, if_neg fun h => hplace (Option.some.inj h).symm]

/-- The names of the databases, each with its keys. -/
def headings (d : Document) : SortedMap (List Text) :=
  d.databases.mapValues SortedMap.names

/-- A list that is put in the place of another makes no names. -/
theorem headings_setBucket {d : Document} {database key : Text} {p : Text × Text}
    {found : List Text} (h : d.found? database key = some (p, found)) (list : List Text) :
    (d.setBucket database key list).headings = d.headings := by
  have hstored := (found?_eq_some h).2
  rw [(found?_eq_some h).1] at hstored
  obtain ⟨buckets, hbuckets, hlist⟩ := Option.bind_eq_some_iff.1 hstored
  dsimp only [place] at hbuckets hlist
  have hown : d.bucketsAt database = buckets := by
    rw [bucketsAt, hbuckets, Option.getD_some]
  rw [hown] at hlist
  have hkey : buckets.spelling key ∈ buckets.names :=
    SortedMap.mem_names.2 ⟨found, SortedMap.mem_entries_iff.2 hlist⟩
  rw [setBucket_eq, hown]
  refine SortedMap.ext_get? fun name => ?_
  rw [headings, headings, SortedMap.get?_mapValues, SortedMap.get?_mapValues,
    SortedMap.get?_insert]
  by_cases hname : d.databases.spelling database = name
  · rw [if_pos hname, ← hname, hbuckets, Option.map_some, Option.map_some,
      SortedMap.names_insert_of_mem hkey]
  · rw [if_neg hname]

/-- A removal leaves all names, of emptied lists as well. -/
theorem headings_remove (d : Document) (e : Entry) : (d.remove e).headings = d.headings := by
  rw [remove]
  split
  · next hheld =>
      obtain ⟨own, hown⟩ := exists_found?_of_contains hheld
      exact headings_setBucket hown _
  · rfl

/-- A removal leaves all lists alone but the one that is found. -/
theorem stored?_remove_of_ne {d : Document} {e : Entry} {name key : Text}
    (h : (name, key) ≠ d.place e.database e.key) :
    (d.remove e).stored? name key = d.stored? name key := by
  rw [remove]
  split
  · rw [stored?_setBucket, if_neg fun hplace => h (Prod.ext hplace.1 hplace.2)]
  · rfl

/-! ## The place of a value -/

/-- The place of a value in the list that is found, ignoring case. -/
def position? (d : Document) (database key value : Text) : Option Nat :=
  (d.bucket? database key).bind fun list => list.findIdx? fun v => Text.alike v value

/-- The list that stands where a list is put; a missing one is made and has no values. -/
def listAt (d : Document) (database key : Text) : List Text :=
  (d.stored? (d.place database key).1 (d.place database key).2).getD []

/-- The list at an index is the list of the look-up. -/
theorem listAt_eq_values (d : Document) (database key : Text) :
    d.listAt database key = d.values database key := by
  rw [listAt, values, bucket?_eq_stored?]
  rfl

/-- The position of a value is that of the first one alike. -/
theorem position?_eq_findIdx? (d : Document) (database key value : Text) :
    d.position? database key value
      = (d.values database key).findIdx? fun v => Text.alike v value := by
  rw [position?, values]
  cases d.bucket? database key <;> rfl

/-- A value has a place exactly if it is held. -/
theorem isSome_position? (d : Document) (database key value : Text) :
    (d.position? database key value).isSome = d.contains database key value := by
  rw [position?_eq_findIdx?, List.findIdx?_isSome, contains]

/-- **The place of a value lies within the list that is changed**, and a removal takes out
what stands there. -/
theorem position?_eq_some {d : Document} {e : Entry} {i : Nat}
    (h : d.position? e.database e.key e.value = some i) :
    i < (d.listAt e.database e.key).length ∧
      d.remove e
        = d.setBucket e.database e.key ((d.listAt e.database e.key).eraseIdx i) := by
  have hheld : d.contains e.database e.key e.value = true := by
    rw [← isSome_position?, h]
    rfl
  rw [position?_eq_findIdx?] at h
  rw [listAt_eq_values]
  refine ⟨(List.findIdx?_eq_some_iff_findIdx_eq.1 h).1, ?_⟩
  rw [remove, if_pos hheld, List.eraseP_eq_eraseIdx, h]

end Document

namespace Store

variable {β : Type}

/-- A value is taken out of the list that is found, in two look-ups. -/
structure TakenOut (s t : Store β) (database key value : Text) : Prop where
  /-- The list loses one value, and what is left keeps its order. -/
  closesUp : ∃ before v after, s.values database key = before ++ v :: after ∧
    Text.alike v value = true ∧ t.values database key = before ++ after
  /-- No variant of the value is left. -/
  gone : ∀ v ∈ t.values database key, Text.alike v value = false
  /-- The list still stands under the names under which it was found. -/
  stays : ∃ p list, s.document.found? database key = some (p, list) ∧
    t.document.found? database key = some (p, t.values database key) ∧
    ∀ name k, (name, k) ≠ p → t.document.stored? name k = s.document.stored? name k
  /-- No list and no database is made or dropped. -/
  headings : t.document.headings = s.document.headings
  /-- The place that the first look-up finds lies within the list that the second one finds,
  and what stands there is taken out. -/
  inRange : ∃ i, s.document.position? database key value = some i ∧
    i < (s.document.listAt database key).length ∧
    t.document
      = s.document.setBucket database key ((s.document.listAt database key).eraseIdx i)
  medium : t.medium = s.medium
  dirty : t.dirty = true

/-- **A value that is held is taken out**, and nothing else is. -/
theorem takenOut_removeValue {s : Store β} (hrepeats : s.document.NoRepeats)
    {database key value : Text} (hheld : s.document.contains database key value = true) :
    s.TakenOut (s.removeValue database key value).1 database key value := by
  have hstore : (s.removeValue database key value).1
      = { s with document := s.document.remove ⟨database, key, value⟩, dirty := true } := by
    rw [removeValue, if_pos hheld]
  obtain ⟨own, hown⟩ := Document.exists_found?_of_contains hheld
  have hvalues := Document.values_of_found? hown
  have hfound := s.document.found?_remove ⟨database, key, value⟩ database key
  rw [hown, Option.map_some, Option.map_some, if_pos rfl] at hfound
  have herased := Document.values_of_found? hfound
  rw [hstore]
  constructor
  case closesUp =>
    obtain ⟨w, hw, halike⟩ := Document.contains_eq_true.1 hheld
    rw [hvalues] at hw
    obtain ⟨v, before, after, _, hv, hsplit, hrest⟩ :=
      List.exists_of_eraseP (p := fun v => Text.alike v value) hw halike
    exact ⟨before, v, after, hvalues.trans hsplit, hv, herased.trans hrest⟩
  case gone =>
    exact Document.contains_eq_false.1
      (Document.not_contains_remove hrepeats ⟨database, key, value⟩)
  case stays =>
    refine ⟨_, own, hown, ?_, fun name k hne => Document.stored?_remove_of_ne hne⟩
    rw [hfound, values, herased]
  case headings => exact s.document.headings_remove _
  case inRange =>
    obtain ⟨i, hi⟩ := Option.isSome_iff_exists.1
      ((s.document.isSome_position? database key value).trans hheld)
    exact ⟨i, hi, Document.position?_eq_some (e := ⟨database, key, value⟩) hi⟩
  case medium => rfl
  case dirty => rfl

variable [Medium β]

/-- **A removal takes one value out and leaves all else alone.**  In every state that comes
about, a removal says that it found its value exactly if the list that is found holds a
variant of it.  Then that list loses this one value and no variant is left, all other lists
and all names stay, and the place of the value lies within the list.  If the value is not
found, the store stays as it is. -/
theorem removal_is_local {loads : List Document} {s : Store β} (h : Reached loads s)
    (database key value : Text) :
    ((s.removeValue database key value).2 = true ↔
      ∃ v ∈ s.values database key, Text.alike v value = true) ∧
    ((s.removeValue database key value).2 = true →
      s.TakenOut (s.removeValue database key value).1 database key value) ∧
    ((s.removeValue database key value).2 = false → (s.removeValue database key value).1 = s) := by
  have hanswer : (s.removeValue database key value).2
      = s.document.contains database key value := by
    rw [removeValue]
    cases s.document.contains database key value <;> rfl
  rw [hanswer]
  refine ⟨Document.contains_eq_true, fun hheld => takenOut_removeValue h.noRepeats hheld,
    fun hnot => ?_⟩
  rw [removeValue, hnot]
  rfl

/-- A history in which a database and one of its keys were written in two ways. -/
def hallDocument : Document :=
  ⟨SortedMap.ofList
    [("Gear", SortedMap.ofList [("PLACE", ["Hall"]), ("Place", ["Park", "Hall", "Pool"])]),
      ("gear", SortedMap.ofList [("Place", ["Hall"])])]⟩

/-- A store that was opened on that history. -/
def hallStore : Store Memory where
  medium := ⟨some hallDocument.encode⟩
  document := hallDocument

/-- The store is reached. -/
theorem reached_hallStore : Reached [hallDocument] hallStore := by
  have hopen : openOn (⟨some hallDocument.encode⟩ : Memory) = .ok hallStore := by
    have hdedup : hallDocument.dedup = hallDocument := by decide +kernel
    rw [openOn_of_encode rfl, hdedup, bne_self_eq_false]
    rfl
  have hheld : held? (⟨some hallDocument.encode⟩ : Memory) = some hallDocument :=
    (held?_of_read rfl).trans hallDocument.decode?_encode
  have hreached := Reached.opened hopen
  rw [hheld] at hreached
  exact hreached

/-- Of the three halls one is forgotten, that of the list which the spellings find; the lists
under other variants of its names keep theirs. -/
theorem removal_is_local_hall :
    Reached [hallDocument] hallStore ∧
      hallStore.TakenOut (hallStore.removeValue "GEAR" "Place" "HALL").1 "GEAR" "Place" "HALL" ∧
      (hallStore.removeValue "GEAR" "Place" "HALL").1.values "Gear" "Place"
        = ["Park".toList, "Pool".toList] ∧
      (hallStore.removeValue "GEAR" "Place" "HALL").1.values "Gear" "PLACE" = ["Hall".toList] ∧
      (hallStore.removeValue "GEAR" "Place" "HALL").1.values "gear" "Place" = ["Hall".toList] ∧
      (hallStore.removeValue "GEAR" "Place" "Ice").1 = hallStore := by
  obtain ⟨hfinds, htaken, _⟩ := removal_is_local reached_hallStore "GEAR" "Place" "HALL"
  obtain ⟨_, _, hnot⟩ := removal_is_local reached_hallStore "GEAR" "Place" "Ice"
  refine ⟨reached_hallStore, htaken (hfinds.2 ⟨"Hall".toList, by decide +kernel⟩),
    by decide +kernel, by decide +kernel, by decide +kernel, hnot (by decide +kernel)⟩

end Store

end Tagline
