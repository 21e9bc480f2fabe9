import Tagline.History.Delta
import Tagline.Proofs.SortedMap

/-!
# The lists of a history document

Every change of a document goes through `setBucket`, so what a change does to the
lists and to the names is said there once, and what it does to look-ups too: a look-up
**finds** a list under the names under which it stands, and after a change it finds what
it found before or the new list.  Two properties are kept by everything that the library
does with a document: no list holds two values that are alike (`Document.NoRepeats`), and
no two databases, and no two keys of one database, are alike (`Document.NamesDiffer`).

* `noRepeats_dedup`, `dedup_eq_self` — dropping repeats drops them all, and
  nothing else;
* `found?_setBucket_cases` — what any look-up finds after a change, and under which names;
* `bucket?_setBucket`, `bucket?_setBucket_of_bucket?` — what follows for the lists;
* `NoRepeats.apply`, `NamesDiffer.apply` — a delta keeps both properties;
* `contains_apply`, `within_apply` — a document holds what was added to it, and all it
  held before;
* `not_contains_remove` — and no longer holds what was taken out;
* `mem_diff` — what a record would add.
-/

namespace Tagline

namespace Document

/-- No list holds two values that are alike. -/
def NoRepeats (d : Document) : Prop :=
  ∀ list ∈ d.lists, Text.AllDiffer list

/-- No two databases are alike, and no two keys of one database. -/
structure NamesDiffer (d : Document) : Prop where
  databases : Text.AllDiffer d.names
  keys : ∀ buckets ∈ d.databases.values, Text.AllDiffer buckets.names

theorem noRepeats_empty : NoRepeats empty :=
  fun _ h => absurd h List.not_mem_nil

theorem namesDiffer_empty : NamesDiffer empty :=
  ⟨Text.allDiffer_nil, fun _ h => absurd h List.not_mem_nil⟩

/-! ## Repeats -/

/-- No variant of what is kept has been seen. -/
theorem lower_not_mem_of_mem_keepFirst {seen vs : List Text} {v : Text}
    (h : v ∈ keepFirst seen vs) : Text.lower v ∉ seen := by
  induction vs generalizing seen with
  | nil => simp [keepFirst] at h
  | cons w vs ih =>
      rw [keepFirst] at h
      split at h
      · exact ih h
      · next hnew =>
          rcases List.mem_cons.1 h with rfl | h
          · simpa using hnew
          · exact fun hmem => ih h (List.mem_cons_of_mem _ hmem)

/-- **The kept values differ.** -/
theorem allDiffer_keepFirst (seen vs : List Text) : Text.AllDiffer (keepFirst seen vs) := by
  induction vs generalizing seen with
  | nil => exact Text.allDiffer_nil
  | cons v vs ih =>
      rw [keepFirst]
      split
      · exact ih seen
      · refine List.pairwise_cons.2 ⟨fun w hw => ?_, ih _⟩
        have hfresh := lower_not_mem_of_mem_keepFirst hw
        exact Text.alike_eq_false_iff.2 fun heq => hfresh (heq ▸ List.mem_cons_self)

/-- Values that differ, from each other and from those before, are all kept. -/
theorem keepFirst_eq_self {seen vs : List Text} (h : Text.AllDiffer vs)
    (hnew : ∀ v ∈ vs, Text.lower v ∉ seen) : keepFirst seen vs = vs := by
  induction vs generalizing seen with
  | nil => rfl
  | cons v vs ih =>
      obtain ⟨hv, hvs⟩ := List.pairwise_cons.1 h
      have hfresh : ¬ seen.contains (Text.lower v) = true := by
        simpa using hnew v List.mem_cons_self
      rw [keepFirst, if_neg hfresh, ih hvs]
      intro w hw hmem
      rcases List.mem_cons.1 hmem with heq | hmem
      · exact Text.alike_eq_false_iff.1 (hv w hw) heq.symm
      · exact hnew w (List.mem_cons_of_mem _ hw) hmem

/-- The lists are thinned out one by one. -/
theorem lists_dedup (d : Document) : d.dedup.lists = d.lists.map (keepFirst []) := by
  simp [lists, dedup, List.map_flatMap, List.flatMap_map]

/-- **A thinned document repeats nothing**, whatever it was before. -/
theorem noRepeats_dedup (d : Document) : d.dedup.NoRepeats := by
  intro list hlist
  rw [lists_dedup] at hlist
  obtain ⟨vs, _, rfl⟩ := List.mem_map.1 hlist
  exact allDiffer_keepFirst [] vs

/-- Thinning lists does not touch the names above them. -/
theorem namesDiffer_dedup {d : Document} (h : d.NamesDiffer) : d.dedup.NamesDiffer where
  databases := by simpa [names, dedup] using h.databases
  keys buckets hbuckets := by
    simp only [dedup, SortedMap.values_mapValues] at hbuckets
    obtain ⟨own, hown, rfl⟩ := List.mem_map.1 hbuckets
    simpa using h.keys own hown

/-- Dropping repeats changes no names. -/
theorem namesDiffer_dedup_iff {d : Document} : d.dedup.NamesDiffer ↔ d.NamesDiffer := by
  refine ⟨fun h => ⟨by simpa [names, dedup] using h.databases, fun buckets hbuckets => ?_⟩,
    namesDiffer_dedup⟩
  have hmem : buckets.mapValues (keepFirst []) ∈ d.dedup.databases.values := by
    simpa [dedup] using ⟨buckets, hbuckets, rfl⟩
  simpa using h.keys _ hmem

/-- A document without repeats loses nothing. -/
theorem dedup_eq_self {d : Document} (h : d.NoRepeats) : d.dedup = d := by
  obtain ⟨databases⟩ := d
  refine (Document.mk.injEq ..).mpr (SortedMap.mapValues_eq_self fun buckets hbuckets => ?_)
  refine SortedMap.mapValues_eq_self fun list hlist => ?_
  exact keepFirst_eq_self (h list (List.mem_flatMap.2 ⟨buckets, hbuckets, hlist⟩)) (by simp)

/-! ## Putting a list -/

/-- The buckets that a database has when a list is put under it. -/
def bucketsAt (d : Document) (database : Text) : Buckets :=
  (d.databases.get? (d.databases.spelling database)).getD SortedMap.empty

/-- A list is put where its two names are found, under the spellings found there. -/
theorem setBucket_eq (d : Document) (database key : Text) (list : List Text) :
    d.setBucket database key list = ⟨d.databases.insert (d.databases.spelling database)
      ((d.bucketsAt database).insert ((d.bucketsAt database).spelling key) list)⟩ :=
  rfl

/-- The lists of a database that is found are those found. -/
theorem bucketsAt_of_find? {d : Document} {database name : Text} {buckets : Buckets}
    (h : d.databases.find? database = some (name, buckets)) : d.bucketsAt database = buckets := by
  rw [bucketsAt, SortedMap.spelling_of_find? h, (SortedMap.find?_eq_some h).1, Option.getD_some]

theorem bucketsAt_eq_empty {d : Document} {database : Text}
    (h : d.databases.find? database = none) : d.bucketsAt database = SortedMap.empty := by
  rw [bucketsAt, SortedMap.spelling_of_find?_none h, SortedMap.get?_of_find?_none h,
    Option.getD_none]

/-- The buckets at a database are new or stand in the document. -/
theorem bucketsAt_mem (d : Document) (database : Text) :
    d.bucketsAt database = SortedMap.empty ∨ d.bucketsAt database ∈ d.databases.values := by
  cases h : d.databases.find? database with
  | none => exact Or.inl (bucketsAt_eq_empty h)
  | some e =>
      rw [bucketsAt_of_find? h]
      have hmem := SortedMap.mem_entries_iff.2 (SortedMap.find?_eq_some h).1
      exact Or.inr (List.mem_map.2 ⟨_, hmem, rfl⟩)

/-- A list is looked up among those of its database. -/
theorem bucket?_eq (d : Document) (database key : Text) :
    d.bucket? database key = ((d.bucketsAt database).find? key).map (·.2) := by
  cases h : d.databases.find? database with
  | none =>
      rw [bucket?, h, bucketsAt_eq_empty h]
      rfl
  | some e =>
      rw [bucket?, h, bucketsAt_of_find? h]
      rfl

/-- The list that a look-up finds, with the names under which it stands. -/
def found? (d : Document) (database key : Text) : Option ((Text × Text) × List Text) :=
  (d.databases.find? database).bind fun e => (e.2.find? key).map fun b => ((e.1, b.1), b.2)

/-- The names under which a list is put. -/
def place (d : Document) (database key : Text) : Text × Text :=
  (d.databases.spelling database, (d.bucketsAt database).spelling key)

/-- A look-up that keeps the names finds the same list. -/
theorem bucket?_eq_found? (d : Document) (database key : Text) :
    d.bucket? database key = (d.found? database key).map (·.2) := by
  rw [bucket?, found?]
  cases d.databases.find? database with
  | none => rfl
  | some e => simp [Function.comp_def]

/-- The names under which a list is found are the two spellings. -/
theorem found?_eq (d : Document) (database key : Text) :
    d.found? database key
      = ((d.bucketsAt database).find? key).map
          fun b => ((d.databases.spelling database, b.1), b.2) := by
  rw [found?]
  cases h : d.databases.find? database with
  | none =>
      rw [bucketsAt_eq_empty h]
      rfl
  | some e => rw [bucketsAt_of_find? h, SortedMap.spelling_of_find? h, Option.bind_some]

/-- The names under which a list is found are alike to those that are looked up. -/
theorem alike_of_found? {d : Document} {database key : Text} {names : Text × Text}
    {list : List Text} (h : d.found? database key = some (names, list)) :
    Text.alike names.1 database = true ∧ Text.alike names.2 key = true := by
  rw [found?_eq, Option.map_eq_some_iff] at h
  obtain ⟨⟨k, found⟩, hfind, heq⟩ := h
  cases heq
  exact ⟨d.databases.alike_spelling database, (SortedMap.find?_eq_some hfind).2⟩

/-- A list of one of the databases is a list of the document. -/
theorem mem_lists_of_mem {d : Document} {buckets : Buckets} {list : List Text}
    (hbuckets : buckets ∈ d.databases.values) (hlist : list ∈ buckets.values) : list ∈ d.lists :=
  List.mem_flatMap.2 ⟨buckets, hbuckets, hlist⟩

/-- The lists of a bucket found in a document are lists of the document. -/
theorem mem_lists_of_bucket? {d : Document} {database key : Text} {list : List Text}
    (h : d.bucket? database key = some list) : list ∈ d.lists := by
  rw [bucket?_eq, Option.map_eq_some_iff] at h
  obtain ⟨e, he, rfl⟩ := h
  have hmem := SortedMap.mem_entries_iff.2 (SortedMap.find?_eq_some he).1
  rcases d.bucketsAt_mem database with hempty | hvalues
  · rw [hempty] at hmem
    exact absurd hmem List.not_mem_nil
  · exact mem_lists_of_mem hvalues (List.mem_map.2 ⟨_, hmem, rfl⟩)

/-- Every list after a change is the new one or was there before. -/
theorem mem_lists_setBucket {d : Document} {database key : Text} {list other : List Text}
    (h : other ∈ (d.setBucket database key list).lists) : other = list ∨ other ∈ d.lists := by
  obtain ⟨buckets, hbuckets, hother⟩ := List.mem_flatMap.1 h
  obtain ⟨⟨name, own⟩, hentry, rfl⟩ := List.mem_map.1 hbuckets
  rw [setBucket_eq] at hentry
  rcases SortedMap.mem_entries_insert.1 hentry with heq | ⟨_, hold⟩
  · cases heq
    obtain ⟨⟨k, vs⟩, hlist, rfl⟩ := List.mem_map.1 hother
    rcases SortedMap.mem_entries_insert.1 hlist with heq | ⟨_, hold⟩
    · cases heq
      exact Or.inl rfl
    · rcases d.bucketsAt_mem database with hempty | hvalues
      · rw [hempty] at hold
        exact absurd hold List.not_mem_nil
      · exact Or.inr (mem_lists_of_mem hvalues (List.mem_map.2 ⟨_, hold, rfl⟩))
  · exact Or.inr (mem_lists_of_mem (List.mem_map.2 ⟨_, hold, rfl⟩) hother)

/-- A new list without repeats leaves a document without repeats. -/
theorem NoRepeats.setBucket {d : Document} (h : d.NoRepeats) {list : List Text}
    (hlist : Text.AllDiffer list) (database key : Text) :
    (d.setBucket database key list).NoRepeats := by
  intro other hother
  rcases mem_lists_setBucket hother with rfl | hother
  · exact hlist
  · exact h other hother

/-- A list is put under the spellings that are found, so no name gets a second
variant. -/
theorem NamesDiffer.setBucket {d : Document} (h : d.NamesDiffer) (database key : Text)
    (list : List Text) : (d.setBucket database key list).NamesDiffer where
  databases := SortedMap.allDiffer_names_insert h.databases _ _
  keys buckets hbuckets := by
    have hown : Text.AllDiffer (d.bucketsAt database).names := by
      rcases d.bucketsAt_mem database with hempty | hvalues
      · rw [hempty]
        exact Text.allDiffer_nil
      · exact h.keys _ hvalues
    obtain ⟨⟨name, own⟩, hentry, rfl⟩ := List.mem_map.1 hbuckets
    rw [setBucket_eq] at hentry
    rcases SortedMap.mem_entries_insert.1 hentry with heq | ⟨_, hold⟩
    · cases heq
      exact SortedMap.allDiffer_names_insert hown _ _
    · exact h.keys own (List.mem_map.2 ⟨_, hold, rfl⟩)

/-- **What any look-up finds after a change**: what it found before, or the new list, if
before it found what the look-up of the changed list found. -/
theorem found?_setBucket_cases (d : Document) (database key other k : Text) (list : List Text) :
    (d.setBucket database key list).found? other k = d.found? other k ∨
      (d.setBucket database key list).found? other k = some (d.place database key, list) ∧
        d.found? other k = d.found? database key := by
  rw [setBucket_eq, found?, found?]
  rcases d.databases.find?_insert_cases database other
      ((d.bucketsAt database).insert ((d.bucketsAt database).spelling key) list)
    with hsame | ⟨hnew, hold⟩
  · left
    rw [hsame]
  · rw [hnew, hold, Option.bind_some]
    -- The look-up ends in the database that was changed; what it finds there depends on the key.
    change _ = d.found? database k ∨ _ ∧ d.found? database k = d.found? database key
    rw [found?_eq, found?_eq]
    rcases (d.bucketsAt database).find?_insert_cases key k list with hsame | ⟨hnewKey, holdKey⟩
    · left
      rw [hsame]
    · right
      rw [hnewKey, holdKey]
      exact ⟨rfl, rfl⟩

/-- A list is found where it was put. -/
theorem found?_setBucket_self (d : Document) (database key : Text) (list : List Text) :
    (d.setBucket database key list).found? database key = some (d.place database key, list) := by
  rw [setBucket_eq, found?, SortedMap.find?_insert_self, Option.bind_some,
    SortedMap.find?_insert_self]
  rfl

/-- A list that was put is found again. -/
theorem bucket?_setBucket (d : Document) (database key : Text) (list : List Text) :
    (d.setBucket database key list).bucket? database key = some list := by
  rw [bucket?_eq_found?, found?_setBucket_self, Option.map_some]

/-- A list is found if its database is, and then its key. -/
theorem bucket?_eq_some {d : Document} {database key : Text} {list : List Text} :
    d.bucket? database key = some list ↔ ∃ name buckets k,
      d.databases.find? database = some (name, buckets) ∧ buckets.find? key = some (k, list) := by
  simp [bucket?, Option.bind_eq_some_iff]

/-- **A list that is found is not lost.**  After a change it is found as before,
unless it is the one that was changed. -/
theorem bucket?_setBucket_of_bucket? {d : Document} {database key other k : Text}
    {list found : List Text} (h : d.bucket? other k = some found) :
    (d.setBucket database key list).bucket? other k = some found ∨
      d.bucket? database key = some found ∧
        (d.setBucket database key list).bucket? other k = some list := by
  rcases d.found?_setBucket_cases database key other k list with hsame | ⟨hnew, hold⟩
  · left
    rw [bucket?_eq_found?, hsame, ← bucket?_eq_found?, h]
  · right
    refine ⟨?_, by rw [bucket?_eq_found?, hnew, Option.map_some]⟩
    rw [bucket?_eq_found?, ← hold, ← bucket?_eq_found?, h]

theorem values_setBucket (d : Document) (database key : Text) (list : List Text) :
    (d.setBucket database key list).values database key = list := by
  rw [values, bucket?_setBucket, Option.getD_some]

/-! ## Adding and removing -/

/-- No list of such a document has two values alike, found or not. -/
theorem NoRepeats.values {d : Document} (h : d.NoRepeats) (database key : Text) :
    Text.AllDiffer (d.values database key) := by
  unfold Document.values
  cases hbucket : d.bucket? database key with
  | none => exact Text.allDiffer_nil
  | some list => exact h list (mem_lists_of_bucket? hbucket)

theorem contains_eq_false {d : Document} {database key value : Text} :
    d.contains database key value = false ↔
      ∀ v ∈ d.values database key, Text.alike v value = false := by
  simp [contains]

/-- A value is held if one of its list is alike. -/
theorem contains_eq_true {d : Document} {database key value : Text} :
    d.contains database key value = true ↔
      ∃ v ∈ d.values database key, Text.alike v value = true := by
  simp [contains]

/-- A value is added only where none is alike, so that none repeats. -/
theorem NoRepeats.add {d : Document} (h : d.NoRepeats) (e : Entry) : (d.add e).NoRepeats := by
  rw [Document.add]
  split
  · exact h
  · next hnew =>
      refine h.setBucket ?_ _ _
      exact (h.values _ _).concat (contains_eq_false.1 (Bool.not_eq_true _ ▸ hnew))

/-- A name alike to one that is there is not added beside it. -/
theorem NamesDiffer.add {d : Document} (h : d.NamesDiffer) (e : Entry) :
    (d.add e).NamesDiffer := by
  rw [Document.add]
  split
  · exact h
  · exact h.setBucket _ _ _

/-- A shorter list repeats nothing. -/
theorem NoRepeats.remove {d : Document} (h : d.NoRepeats) (e : Entry) :
    (d.remove e).NoRepeats := by
  rw [Document.remove]
  split
  · exact h.setBucket ((h.values _ _).sublist List.eraseP_sublist) _ _
  · exact h

/-- A removal leaves the names. -/
theorem NamesDiffer.remove {d : Document} (h : d.NamesDiffer) (e : Entry) :
    (d.remove e).NamesDiffer := by
  rw [Document.remove]
  split
  · exact h.setBucket _ _ _
  · exact h

/-- What every addition keeps, a delta keeps. -/
theorem apply_induction {P : Document → Prop} (hadd : ∀ d e, P d → P (d.add e)) {d : Document}
    (h : P d) (delta : Delta) : P (d.apply delta) := by
  rw [apply]
  generalize delta.entries = es
  induction es generalizing d with
  | nil => exact h
  | cons e es ih => exact ih (hadd d e h)

/-- No delta makes a value repeat. -/
theorem NoRepeats.apply {d : Document} (h : d.NoRepeats) (delta : Delta) :
    (d.apply delta).NoRepeats :=
  apply_induction (fun _ e h => h.add e) h delta

/-- No delta brings two names that are alike. -/
theorem NamesDiffer.apply {d : Document} (h : d.NamesDiffer) (delta : Delta) :
    (d.apply delta).NamesDiffer :=
  apply_induction (fun _ e h => h.add e) h delta

/-! ## What a document holds afterwards -/

/-- An entry that is held is not added again. -/
theorem add_eq_self {d : Document} {e : Entry}
    (h : d.contains e.database e.key e.value = true) : d.add e = d := by
  rw [add, if_pos h]

/-- What was added is held. -/
theorem contains_add_self (d : Document) (e : Entry) :
    (d.add e).contains e.database e.key e.value = true := by
  rw [add]
  split
  · assumption
  · refine contains_eq_true.2 ⟨e.value, ?_, Text.alike_refl _⟩
    rw [values_setBucket]
    exact List.mem_append_right _ (List.mem_singleton.2 rfl)

/-- An addition loses no value. -/
theorem contains_add {d : Document} {database key value : Text}
    (h : d.contains database key value = true) (e : Entry) :
    (d.add e).contains database key value = true := by
  rw [add]
  split
  · exact h
  · obtain ⟨v, hv, halike⟩ := contains_eq_true.1 h
    obtain ⟨found, hfound⟩ : ∃ list, d.bucket? database key = some list := by
      cases hbucket : d.bucket? database key with
      | none => simp [values, hbucket] at hv
      | some list => exact ⟨list, rfl⟩
    rw [values, hfound, Option.getD_some] at hv
    refine contains_eq_true.2 ⟨v, ?_, halike⟩
    rcases bucket?_setBucket_of_bucket? hfound with hsame | ⟨hown, hchanged⟩
    · rwa [values, hsame, Option.getD_some]
    · rw [values, hchanged, Option.getD_some, values, hown, Option.getD_some]
      exact List.mem_append_left _ hv

/-- Additions lose no value. -/
theorem contains_apply_of_contains {d : Document} {database key value : Text}
    (h : d.contains database key value = true) (delta : Delta) :
    (d.apply delta).contains database key value = true :=
  apply_induction (P := fun d => d.contains database key value = true)
    (fun _ e hd => contains_add hd e) h delta

/-- A document that holds whatever another one holds. -/
def Within (d d' : Document) : Prop :=
  ∀ database key value, d.contains database key value = true →
    d'.contains database key value = true

theorem Within.refl (d : Document) : d.Within d := fun _ _ _ h => h

theorem Within.trans {d d' d'' : Document} (h : d.Within d') (h' : d'.Within d'') :
    d.Within d'' :=
  fun database key value hheld => h' database key value (h database key value hheld)

/-- A delta takes nothing away. -/
theorem within_apply (d : Document) (delta : Delta) : d.Within (d.apply delta) :=
  fun _ _ _ hheld => contains_apply_of_contains hheld delta

/-- **A document holds what was added to it.** -/
theorem contains_apply {d : Document} {delta : Delta} {e : Entry} (h : e ∈ delta.entries) :
    (d.apply delta).contains e.database e.key e.value = true := by
  rw [apply]
  generalize delta.entries = es at h
  induction es generalizing d with
  | nil => simp at h
  | cons x es ih =>
      rcases List.mem_cons.1 h with rfl | h
      · exact contains_apply_of_contains (contains_add_self d e) ⟨es⟩
      · exact ih h

/-- Nothing that is held makes a bucket grow. -/
theorem grows_eq_false {d : Document} {delta : Delta} :
    d.grows delta = false ↔ ∀ e ∈ delta.entries, d.contains e.database e.key e.value = true := by
  simp [grows]

/-- A delta that makes nothing grow changes nothing. -/
theorem apply_eq_self {d : Document} {delta : Delta} (h : d.grows delta = false) :
    d.apply delta = d := by
  have hheld := grows_eq_false.1 h
  rw [apply]
  generalize delta.entries = es at hheld
  induction es with
  | nil => rfl
  | cons e es ih =>
      rw [List.foldl_cons, add_eq_self (hheld e List.mem_cons_self)]
      exact ih fun x hx => hheld x (List.mem_cons_of_mem _ hx)

/-- **A value that was taken out is gone**, since it stood there once. -/
theorem not_contains_remove {d : Document} (h : d.NoRepeats) (e : Entry) :
    (d.remove e).contains e.database e.key e.value = false := by
  rw [remove]
  split
  · refine contains_eq_false.2 fun u hu => ?_
    rw [values_setBucket, (h.values e.database e.key).eraseP_eq_filter] at hu
    simpa using (List.mem_filter.1 hu).2
  · exact Bool.eq_false_iff.2 ‹_›

/-! ## What a record adds -/

/-- Pushing entries keeps those that are there and adds the others. -/
theorem mem_foldl_push {es : List Entry} {delta : Delta} {e : Entry} :
    e ∈ (es.foldl Delta.push delta).entries ↔ e ∈ delta.entries ∨ e ∈ es := by
  induction es generalizing delta with
  | nil => simp
  | cons x es ih =>
      have hpush : e ∈ (delta.push x).entries ↔ e ∈ delta.entries ∨ e = x := by
        unfold Delta.push
        split
        · next hmem =>
            refine ⟨Or.inl, fun h => h.elim id fun heq => ?_⟩
            rw [heq]
            simpa using hmem
        · simp
      rw [List.foldl_cons, ih, hpush, List.mem_cons, or_assoc]

/-- A record adds the entries of its own that are not held yet. -/
theorem mem_diff {doc : Document} {d : Database} {r : Record} {e : Entry} :
    e ∈ (doc.diff d r).entries ↔
      e ∈ r.entries d ∧ doc.contains e.database e.key e.value = false := by
  rw [diff, mem_foldl_push]
  simp

/-- What a record adds makes a document grow unless it holds all of the record. -/
theorem grows_diff_eq_false {doc : Document} {d : Database} {r : Record} :
    doc.grows (doc.diff d r) = false ↔
      ∀ e ∈ r.entries d, doc.contains e.database e.key e.value = true := by
  rw [grows_eq_false]
  refine ⟨fun h e he => ?_, fun h e he => h e (mem_diff.1 he).1⟩
  rw [← Bool.not_eq_false]
  intro hnew
  have hheld := h e (mem_diff.2 ⟨he, hnew⟩)
  rw [hnew] at hheld
  cases hheld

/-- A document with the additions of a record holds all of the record. -/
theorem contains_apply_diff {doc : Document} {d : Database} {r : Record} {e : Entry}
    (he : e ∈ r.entries d) :
    (doc.apply (doc.diff d r)).contains e.database e.key e.value = true := by
  cases hheld : doc.contains e.database e.key e.value with
  | true => exact contains_apply_of_contains hheld _
  | false => exact contains_apply (mem_diff.2 ⟨he, hheld⟩)

end Document

end Tagline
