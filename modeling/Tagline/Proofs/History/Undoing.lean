import Tagline.Proofs.History.Adding
import Tagline.Proofs.History.Removing

/-!
# Taking out what was added

The values of a record are added to lists that may be made for them, under names that may be
new; afterwards more look-ups may find a list than before.  When the listed values are taken
out again, one after another in any order, the new names stay, with empty lists.  Still every
look-up finds the values that it found before, under every spelling.

Two things make this so.  An addition never brings two lists together: look-ups that meet in
one list afterwards met before, or found nothing (`foundAt?_eq_of_setBucket`).  And an entry
that is listed was not held by any look-up that it meets.  So the removals take out nothing
that was there before, and they take out all that was added, also where an entry was listed in
vain because a variant of it came first.

* `values_removeAll` — what any look-up finds after several removals, whatever their order;
* `grown_apply` — what any look-up finds after several additions;
* `values_removeAll_apply` — the two together;
* `Store.undoing_restores` — a record that was added and taken out again leaves no trace.
-/

namespace Tagline

namespace Document

/-! ## Where look-ups meet -/

/-- The names under which a look-up finds its list. -/
def foundAt? (d : Document) (database key : Text) : Option (Text × Text) :=
  (d.found? database key).map (·.1)

/-- The names under which a list is found are those found with it. -/
theorem foundAt?_eq_some {d : Document} {database key : Text} {names : Text × Text} :
    d.foundAt? database key = some names ↔ ∃ list, d.found? database key = some (names, list) := by
  simp [foundAt?]

/-- Look-ups that meet find the same values. -/
theorem values_of_foundAt?_eq {d : Document} {database key other k : Text}
    (h : d.foundAt? database key = d.foundAt? other k) :
    d.values database key = d.values other k := by
  cases hat : d.foundAt? other k with
  | none =>
      rw [hat] at h
      rw [values_of_found?_none (Option.map_eq_none_iff.1 h),
        values_of_found?_none (Option.map_eq_none_iff.1 hat)]
  | some names =>
      rw [hat] at h
      obtain ⟨list, hlist⟩ := foundAt?_eq_some.1 h
      obtain ⟨found, hfound⟩ := foundAt?_eq_some.1 hat
      have hone : list = found := Option.some.inj
        ((found?_eq_some hlist).2.symm.trans (found?_eq_some hfound).2)
      rw [values_of_found? hlist, values_of_found? hfound, hone]

/-- A look-up that finds a value finds a list. -/
theorem exists_foundAt?_of_mem {d : Document} {database key v : Text}
    (h : v ∈ d.values database key) : ∃ names, d.foundAt? database key = some names := by
  cases hfound : d.found? database key with
  | none =>
      rw [values_of_found?_none hfound] at h
      cases h
  | some f => exact ⟨f.1, by rw [foundAt?, hfound, Option.map_some]⟩

/-- A look-up that finds the place of another one meets it. -/
theorem foundAt?_of_place {d : Document} {database key other k : Text}
    (h : d.foundAt? other k = some (d.place database key)) :
    d.foundAt? database key = some (d.place database key) := by
  obtain ⟨list, hlist⟩ := foundAt?_eq_some.1 h
  have hbucket : d.bucket? database key = some list :=
    (d.bucket?_eq_stored? database key).trans (found?_eq_some hlist).2
  rw [bucket?_eq_found?, Option.map_eq_some_iff] at hbucket
  obtain ⟨⟨names, found⟩, hfound, _⟩ := hbucket
  rw [foundAt?, hfound, Option.map_some, (found?_eq_some hfound).1]

/-! ## Several removals -/

/-- Takes the values of entries out, one after another. -/
def removeAll (d : Document) (es : List Entry) : Document :=
  es.foldl remove d

/-- Whether an entry meets a look-up and has a variant of a value. -/
def hits (d : Document) (e : Entry) (database key v : Text) : Bool :=
  decide (d.foundAt? e.database e.key = d.foundAt? database key) && Text.alike v e.value

/-- An entry hits a value if it is found in the same list and is alike. -/
theorem hits_eq_true {d : Document} {e : Entry} {database key v : Text} :
    d.hits e database key v = true ↔
      d.foundAt? e.database e.key = d.foundAt? database key ∧ Text.alike v e.value = true := by
  simp [hits]

/-- A removal makes and drops no names. -/
theorem foundAt?_remove (d : Document) (e : Entry) (database key : Text) :
    (d.remove e).foundAt? database key = d.foundAt? database key := by
  rw [foundAt?, found?_remove, Option.map_map]
  rfl

/-- Where no list holds variants, a removal leaves the values that the entry does not hit. -/
theorem values_remove {d : Document} (h : d.NoRepeats) (e : Entry) (database key : Text) :
    (d.remove e).values database key
      = (d.values database key).filter fun v => !d.hits e database key v := by
  have hafter := d.found?_remove e database key
  cases hfound : d.found? database key with
  | none =>
      rw [hfound] at hafter
      rw [values_of_found?_none hafter, values_of_found?_none hfound]
      rfl
  | some f =>
      obtain ⟨names, list⟩ := f
      rw [hfound, Option.map_some] at hafter
      have hat : d.foundAt? database key = some names := foundAt?_eq_some.2 ⟨list, hfound⟩
      have hdiffer := h.values database key
      rw [values_of_found? hafter, values_of_found? hfound]
      rw [values_of_found? hfound] at hdiffer
      by_cases hmeets : d.foundAt? e.database e.key = some names
      · have hplace : (d.found? e.database e.key).map (·.1) = some names := hmeets
        rw [if_pos hplace, hdiffer.eraseP_eq_filter]
        simp [hits, hmeets, hat]
      · have hplace : ¬ (d.found? e.database e.key).map (·.1) = some names := hmeets
        rw [if_neg hplace]
        simp [hits, hmeets, hat]

/-- **What any look-up finds after several removals**: the values that no entry hits. -/
theorem values_removeAll {d : Document} (h : d.NoRepeats) (es : List Entry)
    (database key : Text) :
    (d.removeAll es).values database key
      = (d.values database key).filter fun v => !es.any fun e => d.hits e database key v := by
  induction es generalizing d with
  | nil => simp [removeAll]
  | cons e es ih =>
      have hrest := ih (h.remove e)
      simp only [hits, foundAt?_remove] at hrest
      rw [removeAll, List.foldl_cons, ← removeAll, hrest, values_remove h, List.filter_filter]
      simp [hits, Bool.and_comm]

/-! ## Several additions -/

/-- A look-up that finds the changed list met the look-up of that list before. -/
theorem foundAt?_of_setBucket_place {d : Document} {database key other k : Text}
    {list : List Text}
    (h : (d.setBucket database key list).foundAt? other k = some (d.place database key)) :
    d.foundAt? other k = d.foundAt? database key := by
  rcases d.found?_setBucket_cases database key other k list with hsame | ⟨_, hold⟩
  · rw [foundAt?, hsame, ← foundAt?] at h
    rw [h, foundAt?_of_place h]
  · rw [foundAt?, hold, foundAt?]

/-- A look-up that does not find the changed list finds what it found. -/
theorem found?_of_setBucket_ne {d : Document} {database key other k : Text} {list : List Text}
    (h : (d.setBucket database key list).foundAt? other k ≠ some (d.place database key)) :
    (d.setBucket database key list).found? other k = d.found? other k := by
  rcases d.found?_setBucket_cases database key other k list with hsame | ⟨hnew, _⟩
  · exact hsame
  · rw [foundAt?, hnew, Option.map_some] at h
    exact absurd rfl h

/-- **A change brings no two look-ups together.** -/
theorem foundAt?_eq_of_setBucket {d : Document} {database key one k other l : Text}
    {list : List Text}
    (h : (d.setBucket database key list).foundAt? one k
      = (d.setBucket database key list).foundAt? other l) :
    d.foundAt? one k = d.foundAt? other l := by
  by_cases hplace : (d.setBucket database key list).foundAt? other l = some (d.place database key)
  · rw [foundAt?_of_setBucket_place (h.trans hplace), foundAt?_of_setBucket_place hplace]
  · have hne : (d.setBucket database key list).foundAt? one k ≠ some (d.place database key) :=
      fun heq => hplace (h ▸ heq)
    rw [foundAt?, found?_of_setBucket_ne hne, foundAt?, found?_of_setBucket_ne hplace] at h
    exact h

/-- A change hides no list. -/
theorem foundAt?_setBucket {d : Document} {other k : Text} {names : Text × Text}
    (h : d.foundAt? other k = some names) (database key : Text) (list : List Text) :
    (d.setBucket database key list).foundAt? other k = some names := by
  obtain ⟨found, hfound⟩ := foundAt?_eq_some.1 h
  rw [foundAt?, found?_setBucket_of_found? hfound, Option.map_some]

/-- What any look-up finds once a list has grown by a value. -/
theorem values_setBucket_append (d : Document) (database key other k v : Text) :
    (d.setBucket database key (d.values database key ++ [v])).values other k
      = if (d.setBucket database key (d.values database key ++ [v])).foundAt? other k
          = some (d.place database key)
        then d.values other k ++ [v] else d.values other k := by
  split
  · next hplace =>
      have hself := d.found?_setBucket_self database key (d.values database key ++ [v])
      have hmeets := hplace.trans (foundAt?_eq_some.2 ⟨_, hself⟩).symm
      rw [values_of_foundAt?_eq hmeets, values_of_found? hself,
        values_of_foundAt?_eq (foundAt?_of_setBucket_place hplace)]
  · next hplace =>
      rw [values, bucket?_eq_found?, found?_of_setBucket_ne hplace, ← bucket?_eq_found?, ← values]

/-- What look-ups find in a document that has grown by entries. -/
structure Grown (before after : Document) (es : List Entry) : Prop where
  /-- Look-ups that meet have met before. -/
  together : ∀ database key other k, after.foundAt? database key = after.foundAt? other k →
    before.foundAt? database key = before.foundAt? other k
  /-- A list is what it was, with values of the entries at its end. -/
  lists : ∀ database key, ∃ added,
    after.values database key = before.values database key ++ added ∧
      ∀ v ∈ added, ∃ e ∈ es, after.hits e database key v = true

theorem grown_refl (d : Document) : Grown d d [] where
  together _ _ _ _ h := h
  lists _ _ := ⟨[], by simp⟩

/-- **One more entry**, whether or not it is held already. -/
theorem Grown.add {d₀ d : Document} {es : List Entry} (h : Grown d₀ d es) (e : Entry) :
    Grown d₀ (d.add e) (es ++ [e]) := by
  by_cases hheld : d.contains e.database e.key e.value = true
  · rw [add_eq_self hheld]
    refine ⟨h.together, fun database key => ?_⟩
    obtain ⟨added, hlist, hadded⟩ := h.lists database key
    refine ⟨added, hlist, fun v hv => ?_⟩
    obtain ⟨x, hx, hhits⟩ := hadded v hv
    exact ⟨x, List.mem_append_left _ hx, hhits⟩
  · have hadd : d.add e
        = d.setBucket e.database e.key (d.values e.database e.key ++ [e.value]) := if_neg hheld
    refine ⟨fun database key other k hmeet => ?_, fun database key => ?_⟩
    · rw [hadd] at hmeet
      exact h.together _ _ _ _ (foundAt?_eq_of_setBucket hmeet)
    · obtain ⟨added, hlist, hadded⟩ := h.lists database key
      -- A look-up that has found a value is met by the same entries as before.
      have hkept : ∀ v ∈ added, ∃ x ∈ es ++ [e], (d.add e).hits x database key v = true := by
        intro v hv
        obtain ⟨x, hx, hhits⟩ := hadded v hv
        obtain ⟨hmeets, halike⟩ := hits_eq_true.1 hhits
        obtain ⟨names, hat⟩ := exists_foundAt?_of_mem
          (hlist ▸ List.mem_append_right (d₀.values database key) hv)
        refine ⟨x, List.mem_append_left _ hx, hits_eq_true.2 ⟨?_, halike⟩⟩
        rw [hadd, foundAt?_setBucket hat, foundAt?_setBucket (hmeets.trans hat)]
      have hvalues := d.values_setBucket_append e.database e.key database key e.value
      rw [← hadd, hlist] at hvalues
      split at hvalues
      · next hplace =>
          refine ⟨added ++ [e.value], by rw [hvalues, List.append_assoc], fun v hv => ?_⟩
          rcases List.mem_append.1 hv with hv | hv
          · exact hkept v hv
          · refine ⟨e, by simp, hits_eq_true.2 ⟨?_, ?_⟩⟩
            · rw [hplace, hadd]
              exact foundAt?_eq_some.2 ⟨_, d.found?_setBucket_self _ _ _⟩
            · rw [List.mem_singleton.1 hv, Text.alike_refl]
      · exact ⟨added, hvalues, hkept⟩

/-- **What any look-up finds after several additions.** -/
theorem grown_apply (d : Document) (es : List Entry) : Grown d (d.apply ⟨es⟩) es := by
  have hrun : ∀ (later : Document) (done : List Entry), Grown d later done →
      Grown d (later.apply ⟨es⟩) (done ++ es) := by
    induction es with
    | nil =>
        intro later done h
        rw [List.append_nil]
        exact h
    | cons e es ih =>
        intro later done h
        have hrest := ih (later.add e) (done ++ [e]) (h.add e)
        rw [List.append_assoc] at hrest
        exact hrest
  exact hrun d [] (grown_refl d)

/-! ## Both -/

/-- **Entries that were new are added and taken out without a trace**, in whatever order they
are taken out. -/
theorem values_removeAll_apply {d : Document} (h : d.NoRepeats) {es fs : List Entry}
    (hnew : ∀ e ∈ es, d.contains e.database e.key e.value = false)
    (hsame : ∀ e, e ∈ fs ↔ e ∈ es) (database key : Text) :
    ((d.apply ⟨es⟩).removeAll fs).values database key = d.values database key := by
  have hgrown := d.grown_apply es
  obtain ⟨added, hlist, hadded⟩ := hgrown.lists database key
  have hold : ∀ v ∈ d.values database key,
      (!fs.any fun e => (d.apply ⟨es⟩).hits e database key v) = true := by
    intro v hv
    rw [Bool.not_eq_true', List.any_eq_false]
    intro e he hhits
    obtain ⟨hmeets, halike⟩ := hits_eq_true.1 hhits
    have hmet := hgrown.together _ _ _ _ hmeets
    rw [← values_of_foundAt?_eq hmet] at hv
    rw [contains_eq_false.1 (hnew e ((hsame e).1 he)) v hv] at halike
    cases halike
  have hgone : ∀ v ∈ added,
      ¬ (!fs.any fun e => (d.apply ⟨es⟩).hits e database key v) = true := by
    intro v hv
    obtain ⟨e, he, hhits⟩ := hadded v hv
    simp only [Bool.not_eq_true', Bool.not_eq_false, List.any_eq_true]
    exact ⟨e, (hsame e).2 he, hhits⟩
  rw [values_removeAll (h.apply ⟨es⟩), hlist, List.filter_append, List.filter_eq_self.2 hold,
    List.filter_eq_nil_iff.2 hgone, List.append_nil]

end Document

namespace Store

variable {β : Type}

/-- Takes the values of entries out, one call after another. -/
def removeValues (s : Store β) (es : List Entry) : Store β :=
  es.foldl (fun s e => (s.removeValue e.database e.key e.value).1) s

/-- The document loses the entries, saved or not. -/
theorem document_removeValues (s : Store β) (es : List Entry) :
    (s.removeValues es).document = s.document.removeAll es := by
  induction es generalizing s with
  | nil => rfl
  | cons e es ih =>
      have hrest := ih (s.removeValue e.database e.key e.value).1
      rw [document_removeValue] at hrest
      exact hrest

variable [Medium β]

/-- **What was added can be taken out again.**  In every state that comes about, let a record
be added and then each entry of the delta be taken out, in any order.  Then every look-up
finds the list that it found before, under all spellings of its names. -/
theorem undoing_restores {loads : List Document} {s : Store β} (h : Reached loads s)
    (d : Database) (r : Record) {es : List Entry} (hes : es.Perm (s.addRecord d r).2.entries)
    (database key : Text) :
    ((s.addRecord d r).1.removeValues es).values database key = s.values database key := by
  rw [values, document_removeValues]
  exact Document.values_removeAll_apply h.noRepeats
    (fun e he => (Document.mem_diff.1 he).2) (fun e => hes.mem_iff) database key

/-- Gear with two fields that share a list for a run. -/
def shoeDatabase : Database where
  name := "GEAR"
  typeField := { name := "Type" }
  params :=
    [ { name := "Place", policy := .history ⟨[], []⟩ },
      { name := "Shoe", policy := .historyByType ⟨[], []⟩ },
      { name := "run-shoe", policy := .history ⟨[], []⟩ } ]

/-- A run at a new place, with the same shoe in both fields. -/
def shoeRecord : Record where
  database := "GEAR"
  typeValue := some "Run"
  params := [⟨"Place", .single "rink"⟩, ⟨"Shoe", .single "boot"⟩, ⟨"run-shoe", .single "BOOT"⟩]

/-- What is listed of that run. -/
def shoeEntries : List Entry :=
  [⟨"GEAR", "Place", "Rink"⟩, ⟨"GEAR", "Run-Shoe", "Boot"⟩, ⟨"GEAR", "run-shoe", "Boot"⟩]

/-- The place comes behind those of a list that was there; the shoe comes into a list that is
made for it, and is listed twice.  Taken out from the last to the first, all are gone, and no
spelling of the new list finds anything. -/
theorem undoing_restores_shoe :
    Reached [hallDocument] hallStore ∧
      (hallStore.addRecord shoeDatabase shoeRecord).2.entries = shoeEntries ∧
      (hallStore.addRecord shoeDatabase shoeRecord).1.values "Gear" "Place"
        = ["Park".toList, "Hall".toList, "Pool".toList, "Rink".toList] ∧
      (hallStore.addRecord shoeDatabase shoeRecord).1.values "Gear" "RUN-SHOE" = ["Boot".toList] ∧
      (∀ database key,
        ((hallStore.addRecord shoeDatabase shoeRecord).1.removeValues shoeEntries.reverse).values
          database key = hallStore.values database key) ∧
      hallStore.values "Gear" "Place" = ["Park".toList, "Hall".toList, "Pool".toList] ∧
      hallStore.values "Gear" "RUN-SHOE" = [] := by
  have hentries : (hallStore.addRecord shoeDatabase shoeRecord).2.entries = shoeEntries := by
    decide +kernel
  refine ⟨reached_hallStore, hentries, by decide +kernel, by decide +kernel, ?_,
    by decide +kernel, by decide +kernel⟩
  refine undoing_restores reached_hallStore shoeDatabase shoeRecord ?_
  rw [hentries]
  exact List.reverse_perm shoeEntries

end Store

end Tagline
