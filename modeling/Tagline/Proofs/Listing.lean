import Tagline.Listing
import Tagline.Proofs.History.Lookup

/-!
# Nothing is lost in a listing

A listing of the history goes through its names twice: it lists the databases and their keys,
and then looks every bucket up, by a look-up that ignores case.  A name that was listed is a
name of the document, and a look-up takes the exact name first; so every bucket is found under
its own names, also where a document holds variants of them.

In JSON the rows are put under their names again.  Two rows never have the same names, so no
row replaces another one, and as rows only come of buckets, no database is made without one.

* `Document.mem_rows` — the rows are the buckets that pass the filters;
* `Document.Shows.withRow` — what one more row adds, and that it takes nothing away;
* `Document.listing_loses_nothing` — what is read from a listing in JSON.
-/

namespace Tagline

/-- A name passes a filter that is alike to it, and any name passes none. -/
theorem passes_eq_true {filter : Option Text} {name : Text} :
    passes filter name = true ↔ ∀ wanted ∈ filter, Text.alike wanted name = true := by
  cases filter <;> simp [passes]

namespace Document

/-! ## The rows -/

/-- The keys of a database that was listed are those under which its lists stand. -/
theorem mem_keys {d : Document} {name k : Text} (h : name ∈ d.names) :
    k ∈ d.keys name ↔ ∃ list, d.stored? name k = some list := by
  obtain ⟨buckets, hbuckets⟩ := SortedMap.mem_names.1 h
  have hget := SortedMap.mem_entries_iff.1 hbuckets
  rw [keys, SortedMap.find?_of_get? hget, stored?, hget, Option.bind_some]
  simp only [SortedMap.mem_names, SortedMap.mem_entries_iff]

/-- A list stands under a name of the document. -/
theorem mem_names_of_stored? {d : Document} {name k : Text} {list : List Text}
    (h : d.stored? name k = some list) : name ∈ d.names := by
  obtain ⟨buckets, hbuckets, _⟩ := Option.bind_eq_some_iff.1 h
  exact SortedMap.mem_names.2 ⟨buckets, SortedMap.mem_entries_iff.2 hbuckets⟩

/-- **The rows are the buckets that pass the filters**, each with the list that stands under
its names. -/
theorem mem_rows {d : Document} {database key : Option Text} {name k : Text}
    {list : List Text} :
    (name, k, list) ∈ d.rows database key ↔
      (passes database name = true ∧ passes key k = true) ∧ d.stored? name k = some list := by
  simp only [rows, List.mem_flatMap, List.mem_filterMap, List.mem_filter, Option.map_eq_some_iff]
  constructor
  · rintro ⟨_, ⟨hname, hdatabase⟩, _, ⟨hk, hkey⟩, found, hfound, heq⟩
    cases heq
    obtain ⟨own, hown⟩ := (mem_keys hname).1 hk
    have hsame : some own = some list := (bucket?_of_stored? hown).symm.trans hfound
    exact ⟨⟨hdatabase, hkey⟩, hown.trans hsame⟩
  · rintro ⟨⟨hdatabase, hkey⟩, hstored⟩
    have hname := mem_names_of_stored? hstored
    exact ⟨name, ⟨hname, hdatabase⟩, k, ⟨(mem_keys hname).2 ⟨list, hstored⟩, hkey⟩, list,
      bucket?_of_stored? hstored, rfl⟩

/-! ## Rows under their names again -/

/-- A document that holds the lists of some rows and nothing else. -/
structure Shows (d : Document) (rows : List (Text × Text × List Text)) : Prop where
  stored name k list : d.stored? name k = some list ↔ (name, k, list) ∈ rows
  names : ∀ name ∈ d.names, ∃ k list, (name, k, list) ∈ rows

theorem shows_empty : Shows empty [] where
  stored name k list := by simp [stored?, empty]
  names name hname := by
    cases hname

/-- **One more row** adds its list and takes nothing away, unless another list stood under its
names. -/
theorem Shows.withRow {d : Document} {rows : List (Text × Text × List Text)}
    (h : d.Shows rows) {name key : Text} {list : List Text}
    (hone : ∀ other, (name, key, other) ∈ rows → other = list) :
    (d.withRow (name, key, list)).Shows (rows ++ [(name, key, list)]) where
  stored n k found := by
    rw [Document.withRow, stored?_insert, List.mem_append, List.mem_singleton, ← h.stored]
    by_cases hnames : n = name ∧ k = key
    · obtain ⟨rfl, rfl⟩ := hnames
      rw [if_pos ⟨rfl, rfl⟩]
      constructor
      · rintro ⟨⟩
        exact Or.inr rfl
      · rintro (hold | hnew)
        · rw [hone found ((h.stored _ _ _).1 hold)]
        · cases hnew
          rfl
    · rw [if_neg hnames]
      refine (or_iff_left ?_).symm
      rintro ⟨⟩
      exact hnames ⟨rfl, rfl⟩
  names n hn := by
    rcases SortedMap.mem_names_insert.1 hn with rfl | hold
    · exact ⟨key, list, by simp⟩
    · obtain ⟨k, found, hmem⟩ := h.names n hold
      exact ⟨k, found, List.mem_append_left _ hmem⟩

/-- **Rows are shown one after another**, if no name stands for two lists. -/
theorem Shows.foldl {d : Document} {before rows : List (Text × Text × List Text)}
    (h : d.Shows before)
    (hone : ∀ name k list other, (name, k, list) ∈ before ++ rows →
      (name, k, other) ∈ before ++ rows → other = list) :
    (rows.foldl Document.withRow d).Shows (before ++ rows) := by
  induction rows generalizing d before with
  | nil =>
      rw [List.append_nil]
      exact h
  | cons row rows ih =>
      obtain ⟨name, key, list⟩ := row
      have hnext := h.withRow fun other hother =>
        hone name key list other (by simp) (List.mem_append_left _ hother)
      have hrest := ih hnext (by simpa using hone)
      rwa [List.append_assoc, List.singleton_append] at hrest

/-- **The rows of a document are all shown** when they are put under their names again. -/
theorem shows_ofRows_rows (d : Document) (database key : Option Text) :
    (ofRows (d.rows database key)).Shows (d.rows database key) := by
  refine shows_empty.foldl fun name k list other hlist hother => ?_
  have hfirst := (mem_rows.1 hlist).2
  have hsecond := (mem_rows.1 hother).2
  exact Option.some.inj (hsecond.symm.trans hfirst)

/-! ## The listing in JSON -/

/-- **A listing in JSON loses nothing.**  Its text is the written form of a document that holds
under all names exactly the lists that stand under these names and pass the filters, and that
names a database if and only if it has such a list; this document is also read from the text.
It does not matter whether the history holds variants of a name. -/
theorem listing_loses_nothing (d : Document) (database key : Option Text) :
    ∃ shown : Document,
      Json.read? (d.list database key .json) = some shown.toJson ∧
      read? (d.list database key .json) = some shown ∧
      (∀ name k list, shown.stored? name k = some list ↔
        ((∀ wanted ∈ database, Text.alike wanted name = true) ∧
          ∀ wanted ∈ key, Text.alike wanted k = true) ∧ d.stored? name k = some list) ∧
      ∀ name, name ∈ shown.names ↔ ∃ k list,
        ((∀ wanted ∈ database, Text.alike wanted name = true) ∧
          ∀ wanted ∈ key, Text.alike wanted k = true) ∧ d.stored? name k = some list := by
  have hshows := shows_ofRows_rows d database key
  simp only [← passes_eq_true, ← mem_rows]
  refine ⟨ofRows (d.rows database key), Json.read?_print (legible_toJson _), read?_print _,
    hshows.stored, fun name => ⟨hshows.names name, ?_⟩⟩
  rintro ⟨k, list, hrow⟩
  exact mem_names_of_stored? ((hshows.stored name k list).2 hrow)

/-- Both variants of a database are shown under their own spellings, and a key that does not
pass is left out. -/
example :
    ofRows (rows
      ⟨SortedMap.ofList
        [("Gear", SortedMap.ofList [("Place", ["Park"]), ("Size", ["44"])]),
          ("gear", SortedMap.ofList [("PLACE", ["Gym", "Hall"])]),
          ("Meal", SortedMap.ofList [("Place", ["Home"])])]⟩ (some "GEAR") (some "place"))
      = ⟨SortedMap.ofList
          [("Gear", SortedMap.ofList [("Place", ["Park"])]),
            ("gear", SortedMap.ofList [("PLACE", ["Gym", "Hall"])])]⟩ := by
  decide +kernel

end Document

end Tagline
