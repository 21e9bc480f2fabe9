import Tagline.Proofs.Acceptance

/-!
# Looking up a database

Names of databases may be looked up through an index, a map from the lower-cased names to
places, which is filled while the definitions are checked.  A second definition of a name is
then one whose key is there, and a look-up goes to the place of the key without comparing any
names.  The index marks the databases (`IndexedRegistry.Marks`): it has exactly their places
under their lower-cased names.  A definition that is added keeps this, since its key is new
and its place is behind all others.  So the index answers as a search does that goes through
the databases one after another.

* `IndexedRegistry.Marks.insert`, `IndexedRegistry.collect_cases` — one definition and all of
  them are marked, and the same ones are refused;
* `IndexedRegistry.Marks.bind_getElem?` — an index finds what a search finds;
* `Registry.holds_declared` — what accepted settings declare is found under its names;
* `Registry.acceptance` — which settings are accepted, and what their registry answers.
-/

namespace Tagline

/-! ## The index -/

/-- A text is hashed by its code points. -/
instance : Hashable Text := ⟨fun t => hash (t.map Char.toNat)⟩

/-- A registry with the places of its databases under their lower-cased names. -/
structure IndexedRegistry where
  registry : Registry
  index : Std.HashMap Text Nat

namespace IndexedRegistry

/-- Checks definitions as `Registry.collect` does, and puts every name into the index. -/
def collect (seen : List Database) (index : Std.HashMap Text Nat) (place : Nat) :
    List DatabaseSettings → Except SettingsError (List Database × Std.HashMap Text Nat)
  | [] => .ok (seen, index)
  | d :: ds =>
      match Database.ofSettings place d with
      | .error e => .error e
      | .ok database =>
          let key := Text.lower database.name
          if index.contains key then .error (.duplicateDatabase database.name)
          else collect (seen ++ [database]) (index.insert key seen.length) (place + 1) ds

/-- The registry of settings with its index, unless they have a fault. -/
def ofSettings (s : Settings) : Except SettingsError IndexedRegistry :=
  if s.splitSeparator.isEmpty then .error .emptySeparator
  else
    (collect [] ∅ 0 s.databases).map fun (databases, index) =>
      { registry :=
          { splitSeparator := s.splitSeparator
            dailyEntries := (s.dailyEntries.map Text.trim).filter fun e => !e.isEmpty
            databases }
        index }

/-- The database at the place that the index gives for a name. -/
def database? (x : IndexedRegistry) (name : Text) : Option Database :=
  (x.index[Text.lower (Text.trim name)]?).bind fun place => x.registry.databases[place]?

/-- An index has exactly the places of some databases under their lower-cased names. -/
def Marks (index : Std.HashMap Text Nat) (databases : List Database) : Prop :=
  ∀ key place, index[key]? = some place ↔
    (databases[place]?).map (fun d => Text.lower d.name) = some key

variable {index : Std.HashMap Text Nat} {databases : List Database}

theorem marks_empty : Marks ∅ [] := by
  simp [Marks]

/-- A database has its place in the index. -/
theorem Marks.exists_place (h : Marks index databases) {d : Database} (hd : d ∈ databases) :
    ∃ place, databases[place]? = some d ∧ index[Text.lower d.name]? = some place := by
  obtain ⟨place, hplace⟩ := List.mem_iff_getElem?.1 hd
  exact ⟨place, hplace, (h _ _).2 (by rw [hplace]; rfl)⟩

/-- A name is in the index if a database has it, ignoring case. -/
theorem Marks.contains (h : Marks index databases) (name : Text) :
    index.contains (Text.lower name) = databases.any fun d => Text.alike d.name name := by
  rw [Bool.eq_iff_iff, Std.HashMap.contains_eq_isSome_getElem?, Option.isSome_iff_exists,
    List.any_eq_true]
  constructor
  · rintro ⟨place, hplace⟩
    obtain ⟨d, hd, hname⟩ := Option.map_eq_some_iff.1 ((h _ _).1 hplace)
    exact ⟨d, List.mem_of_getElem? hd, Text.alike_iff.2 hname⟩
  · rintro ⟨d, hd, halike⟩
    obtain ⟨place, _, hplace⟩ := h.exists_place hd
    exact ⟨place, Text.alike_iff.1 halike ▸ hplace⟩

/-- **A new name is marked** at the place behind all others. -/
theorem Marks.insert (h : Marks index databases) {d : Database}
    (hnew : index.contains (Text.lower d.name) = false) :
    Marks (index.insert (Text.lower d.name) databases.length) (databases ++ [d]) := by
  have hnone : index[Text.lower d.name]? = none := by
    rwa [Std.HashMap.contains_eq_isSome_getElem?, Option.isSome_eq_false_iff,
      Option.isNone_iff_eq_none] at hnew
  intro key place
  rw [Std.HashMap.getElem?_insert]
  rcases Nat.lt_trichotomy place databases.length with hlt | rfl | hgt
  · -- An old place: the new name is not there.
    rw [List.getElem?_append_left hlt, ← h]
    split
    · next heq =>
        obtain rfl : Text.lower d.name = key := by simpa using heq
        rw [hnone, Option.some.injEq]
        exact iff_of_false (by omega) (by simp)
    · rfl
  · simp only [List.getElem?_concat_length, Option.map_some, Option.some.injEq]
    split
    · next heq => simpa using heq
    · next hne =>
        refine iff_of_false (fun hplace => ?_) (by simpa using hne)
        have hbehind := (h _ _).1 hplace
        simp at hbehind
  · have hbehind : (databases ++ [d])[place]? = none := by simp; omega
    rw [hbehind]
    refine iff_of_false (fun hplace => ?_) (by simp)
    split at hplace
    · simp only [Option.some.injEq] at hplace
      omega
    · have hinside := (h _ _).1 hplace
      rw [List.getElem?_eq_none (by omega)] at hinside
      cases hinside

/-- **An index finds what a search finds.** -/
theorem Marks.bind_getElem? (h : Marks index databases) (name : Text) :
    (index[Text.lower name]?).bind (fun place => databases[place]?)
      = databases.find? fun d => Text.alike d.name name := by
  cases hfound : databases.find? fun d => Text.alike d.name name with
  | none =>
      have hnot : databases.any (fun d => Text.alike d.name name) = false := by
        simpa using List.find?_eq_none.1 hfound
      rw [← h.contains, Std.HashMap.contains_eq_isSome_getElem?, Option.isSome_eq_false_iff,
        Option.isNone_iff_eq_none] at hnot
      rw [hnot, Option.bind_none]
  | some d =>
      obtain ⟨place, hplace, hmark⟩ := h.exists_place (List.mem_of_find?_eq_some hfound)
      have halike : Text.alike d.name name = true := by simpa using List.find?_some hfound
      rw [← Text.alike_iff.1 halike, hmark, Option.bind_some, hplace]

/-- **The index does not change which definitions pass**, and in the end it marks the
databases. -/
theorem collect_cases (h : Marks index databases) (place : Nat) (ds : List DatabaseSettings) :
    (∃ e, collect databases index place ds = .error e ∧
        Registry.collect databases place ds = .error e) ∨
      ∃ all marks, collect databases index place ds = .ok (all, marks) ∧
        Registry.collect databases place ds = .ok all ∧ Marks marks all := by
  induction ds generalizing databases index place with
  | nil => exact Or.inr ⟨databases, index, rfl, rfl, h⟩
  | cons d ds ih =>
      rw [collect, Registry.collect]
      cases Database.ofSettings place d with
      | error e => exact Or.inl ⟨e, rfl, rfl⟩
      | ok database =>
          simp only [h.contains]
          by_cases hthere : (databases.any fun s => Text.alike s.name database.name) = true
          · simp only [if_pos hthere]
            exact Or.inl ⟨_, rfl, rfl⟩
          · simp only [if_neg hthere]
            exact ih (h.insert (by rw [h.contains]; simpa using hthere)) (place + 1)

/-- **A registry with an index** comes of the same settings, and finds the same databases. -/
theorem ofSettings_cases (s : Settings) :
    (∃ e, ofSettings s = .error e ∧ Registry.ofSettings s = .error e) ∨
      ∃ x, ofSettings s = .ok x ∧ Registry.ofSettings s = .ok x.registry ∧
        Marks x.index x.registry.databases := by
  unfold ofSettings Registry.ofSettings
  split
  · exact Or.inl ⟨_, rfl, rfl⟩
  · rcases collect_cases marks_empty 0 s.databases with
      ⟨e, hindexed, hplain⟩ | ⟨all, marks, hindexed, hplain, hmarks⟩
    · rw [hindexed, hplain]
      exact Or.inl ⟨e, rfl, rfl⟩
    · rw [hindexed, hplain]
      exact Or.inr ⟨_, rfl, rfl, hmarks⟩

end IndexedRegistry

/-! ## Accepted settings -/

/-- Of things whose names differ, a search finds the only one of a name. -/
theorem find?_alike_eq_some_iff {α : Type} {name : α → Text} {xs : List α}
    (h : Text.AllDiffer (xs.map name)) {t : Text} {x : α} :
    xs.find? (fun y => Text.alike (name y) t) = some x ↔
      x ∈ xs ∧ Text.alike (name x) t = true := by
  constructor
  · intro hfind
    exact ⟨List.mem_of_find?_eq_some hfind, by simpa using List.find?_some hfind⟩
  · rintro ⟨hx, halike⟩
    cases hfind : xs.find? fun y => Text.alike (name y) t with
    | none => exact absurd halike (List.find?_eq_none.1 hfind x hx)
    | some y =>
        have hy : Text.alike (name y) t = true := by simpa using List.find?_some hfind
        have hnodup := Text.allDiffer_iff_nodup.1 h
        rw [List.map_map] at hnodup
        have heq := List.inj_on_of_nodup_map hnodup (List.mem_of_find?_eq_some hfind) hx
          ((Text.alike_iff.1 hy).trans (Text.alike_iff.1 halike).symm)
        rw [heq]

/-- A registry holds what some settings declare, each part of it under one name. -/
structure Registry.Holds (r : Registry) (s : Settings) : Prop where
  /-- The databases are those of the definitions, in their order. -/
  databases : r.databases = s.databases.map DatabaseSettings.declared
  /-- A name finds the definition that has it, ignoring case and blanks around it. -/
  database? : ∀ name d, r.database? name = some d ↔
    ∃ x ∈ s.databases, d = x.declared ∧ Text.alike (Text.trim x.database) (Text.trim name) = true
  /-- The fields of a definition are its type field and its parameters in order. -/
  fields : ∀ x ∈ s.databases, x.declared.fields.map (·.name) = x.fieldNames ∧
    x.declared.field? (Text.trim x.typeField) = some x.declared.typeField
  /-- Their names differ. -/
  names_differ : ∀ d ∈ r.databases, Text.AllDiffer (d.fields.map (·.name))
  /-- A name finds the only field that has it, ignoring case. -/
  field? : ∀ d ∈ r.databases, ∀ name f,
    d.field? name = some f ↔ f ∈ d.fields ∧ Text.alike f.name name = true
  /-- No field has an empty separator. -/
  separators : ∀ d ∈ r.databases, ∀ f ∈ d.fields, f.multi ≠ some []

namespace Registry

/-- A field of a definition without a fault has no empty separator. -/
theorem multi_ne_of_acceptable {s : DatabaseSettings} (h : s.Acceptable) :
    ∀ f ∈ s.declared.fields, f.multi ≠ some [] := by
  have hdeclared : ∀ name ∈ s.fieldNames, (Field.declared s.fields name).multi ≠ some [] := by
    intro name hname
    unfold Field.declared
    split
    · simp
    · next f hf => exact h.separators name hname f (Database.descriptor?_eq_some_iff.1 hf)
  rw [Database.fields, List.forall_mem_cons]
  refine ⟨hdeclared _ List.mem_cons_self, fun f hf => ?_⟩
  obtain ⟨name, hname, rfl⟩ := List.mem_map.1 hf
  exact hdeclared name (List.mem_cons_of_mem _ hname)

/-- What settings without a fault declare is found under its names. -/
theorem holds_declared {s : Settings} (h : s.Acceptable) : s.declared.Holds s := by
  have hnames : Text.AllDiffer (s.declared.databases.map (·.name)) := by
    simpa [Settings.declared, Function.comp_def] using h.names_differ
  have hfields : ∀ d ∈ s.declared.databases, Text.AllDiffer (d.fields.map (·.name)) := by
    intro d hd
    obtain ⟨x, hx, rfl⟩ := List.mem_map.1 hd
    rw [Database.names_declared]
    exact (h.databases x hx).fields_differ
  have hfield : ∀ d ∈ s.declared.databases, ∀ name f,
      d.field? name = some f ↔ f ∈ d.fields ∧ Text.alike f.name name = true :=
    fun d hd name f => find?_alike_eq_some_iff (hfields d hd)
  refine ⟨rfl, fun name d => ?_, fun x hx => ⟨Database.names_declared x, ?_⟩, hfields, hfield, ?_⟩
  · rw [Registry.database?, find?_alike_eq_some_iff hnames]
    constructor
    · rintro ⟨hd, halike⟩
      obtain ⟨x, hx, rfl⟩ := List.mem_map.1 hd
      exact ⟨x, hx, rfl, halike⟩
    · rintro ⟨x, hx, rfl, halike⟩
      exact ⟨List.mem_map_of_mem hx, halike⟩
  · refine (hfield _ (List.mem_map_of_mem hx) _ _).2 ⟨List.mem_cons_self, ?_⟩
    have hname := congrArg List.head? (Database.names_declared x)
    simp only [Database.fields, DatabaseSettings.fieldNames, List.map_cons, List.head?_cons,
      Option.some.injEq] at hname
    rw [hname]
    exact Text.alike_refl _
  · intro d hd
    obtain ⟨x, hx, rfl⟩ := List.mem_map.1 hd
    exact multi_ne_of_acceptable (h.databases x hx)

/-- **A database of an accepted registry is found by its own name**, and no other one is. -/
theorem database?_of_mem {s : Settings} {r : Registry} (h : ofSettings s = .ok r) {d : Database}
    (hd : d ∈ r.databases) : r.database? d.name = some d := by
  obtain ⟨hacceptable, rfl⟩ := ofSettings_eq_ok_iff.1 h
  obtain ⟨x, hx, rfl⟩ := List.mem_map.1 hd
  refine ((holds_declared hacceptable).database? _ _).2 ⟨x, hx, rfl, ?_⟩
  rw [DatabaseSettings.name_declared, Text.trim_of_trimmed (Text.trimmed_trim _)]
  exact Text.alike_refl _

/-- **Settings are accepted exactly if they have no fault.**  The registry of accepted settings
holds their definitions, each database and each field under one name ignoring case.  It is the
same registry, or the same fault, if the databases are put into an index on the way; every
place in the index is that of a database, and looking a name up there finds what a search
finds. -/
theorem acceptance (s : Settings) :
    ((∃ r, ofSettings s = .ok r) ↔ s.Acceptable) ∧
      (∀ r, ofSettings s = .ok r → r.Holds s) ∧
      (IndexedRegistry.ofSettings s).map (·.registry) = ofSettings s ∧
      ∀ x, IndexedRegistry.ofSettings s = .ok x →
        (∀ (key : Text) place, x.index[key]? = some place →
          place < x.registry.databases.length) ∧
        ∀ name, x.database? name = x.registry.database? name := by
  refine ⟨?_, fun r h => ?_, ?_, fun x hx => ?_⟩
  · constructor
    · rintro ⟨r, h⟩
      exact (ofSettings_eq_ok_iff.1 h).1
    · exact fun h => ⟨_, ofSettings_eq_ok_iff.2 ⟨h, rfl⟩⟩
  · obtain ⟨hacceptable, rfl⟩ := ofSettings_eq_ok_iff.1 h
    exact holds_declared hacceptable
  · rcases IndexedRegistry.ofSettings_cases s with
      ⟨e, hindexed, hplain⟩ | ⟨x, hindexed, hplain, _⟩ <;> rw [hindexed, hplain] <;> rfl
  · rcases IndexedRegistry.ofSettings_cases s with
      ⟨e, hindexed, _⟩ | ⟨y, hindexed, _, hmarks⟩ <;> rw [hx] at hindexed
    · cases hindexed
    · obtain rfl := Except.ok.inj hindexed
      refine ⟨fun key place hplace => ?_, fun name => hmarks.bind_getElem? _⟩
      obtain ⟨d, hd, _⟩ := Option.map_eq_some_iff.1 ((hmarks key place).1 hplace)
      exact (List.getElem?_eq_some_iff.1 hd).1

/-- Settings in which two descriptors could be meant for one parameter, the second of them
with a fault. -/
def outfitSettings : Settings where
  databases :=
    [ { database := " Exercise"
        params := ["Gear "]
        fields := SortedMap.ofList
          [("gear", { multi := some [] }),
            ("GEAR", { allowed := some .history, multi := some "," })] },
      { database := "Trip", typeField := "Kind" } ]

/-- The registry of those settings. -/
def outfits : Registry where
  databases :=
    [ { name := "Exercise"
        typeField := { name := "Type" }
        params := [{ name := "Gear", policy := .history ⟨[], []⟩, multi := some "," }] },
      { name := "Trip", typeField := { name := "Kind" }, params := [] } ]

/-- Capital letters come first, so the descriptor with the fault describes nothing. -/
theorem acceptance_outfit :
    outfitSettings.Acceptable ∧ ofSettings outfitSettings = .ok outfits ∧
      outfits.Holds outfitSettings ∧
      ∃ x, IndexedRegistry.ofSettings outfitSettings = .ok x ∧ x.registry = outfits ∧
        ∀ name, x.database? name = outfits.database? name := by
  obtain ⟨haccepted, hholds, hplain, hindex⟩ := acceptance outfitSettings
  have hsettings : ofSettings outfitSettings = .ok outfits := rfl
  rw [hsettings] at hplain
  refine ⟨haccepted.1 ⟨_, hsettings⟩, hsettings, hholds _ hsettings, ?_⟩
  cases hx : IndexedRegistry.ofSettings outfitSettings with
  | error e =>
      rw [hx] at hplain
      cases hplain
  | ok x =>
      rw [hx] at hplain
      have hregistry : x.registry = outfits := Except.ok.inj hplain
      exact ⟨x, rfl, hregistry, hregistry ▸ (hindex x hx).2⟩

end Registry

end Tagline
