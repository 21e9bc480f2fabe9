import Tagline.Proofs.Registry
import Tagline.Proofs.SortedMap

/-!
# Which settings are accepted

Settings are checked in an order: definition after definition, and in each of them the name,
the type field, the parameters one after another, and the separators of the fields.  The order
decides only which fault is reported.  That there is none is a condition on the settings as a
whole (`Settings.Acceptable`), and what accepted settings give can be written down without any
check (`Settings.declared`).

* `Database.descriptor?_eq_some_iff` — which of several descriptors is that of a field;
* `Database.distinctParams_eq_ok_iff`, `Database.describe_eq_ok_iff`,
  `Database.ofSettings_eq_ok_iff` — which parameters, fields and definitions pass;
* `Registry.collect_eq_ok_iff`, `Registry.ofSettings_eq_ok_iff` — which settings pass, and what
  they give.
-/

namespace Tagline

/-! ## The condition -/

/-- A field is described by the first name, in ascending order, that is its own ignoring case
and the blanks around it. -/
def IsDescriptor (fields : SortedMap FieldSettings) (name : Text) (f : FieldSettings) : Prop :=
  ∃ key, fields.get? key = some f ∧ Text.alike (Text.trim key) name = true ∧
    ∀ other ∈ fields.names, other < key → Text.alike (Text.trim other) name = false

namespace DatabaseSettings

/-- The names of the fields of a definition: the type field, then the parameters. -/
def fieldNames (s : DatabaseSettings) : List Text :=
  (s.typeField :: s.params).map Text.trim

/-- A definition without a fault. -/
structure Acceptable (s : DatabaseSettings) : Prop where
  name_ne : Text.allBlank s.database = false
  name_char : ∀ c ∈ Text.trim s.database, c ≠ '/' ∧ Text.isBlank c = false
  type_ne : Text.allBlank s.typeField = false
  fields_differ : Text.AllDiffer s.fieldNames
  separators : ∀ name ∈ s.fieldNames, ∀ f, IsDescriptor s.fields name f → f.multi ≠ some []

end DatabaseSettings

/-- Settings without a fault. -/
structure Settings.Acceptable (s : Settings) : Prop where
  separator : s.splitSeparator ≠ []
  databases : ∀ d ∈ s.databases, d.Acceptable
  names_differ : Text.AllDiffer (s.databases.map fun d => Text.trim d.database)

/-- A field with what is declared about it, be the separator empty or not. -/
def Field.declared (fields : SortedMap FieldSettings) (name : Text) : Field :=
  match Database.descriptor? fields name with
  | none => { name }
  | some f => { name, policy := FieldPolicy.ofSettings f, multi := f.multi }

/-- What a definition declares. -/
def DatabaseSettings.declared (s : DatabaseSettings) : Database where
  name := Text.trim s.database
  typeField := Field.declared s.fields (Text.trim s.typeField)
  params := (s.params.map Text.trim).map (Field.declared s.fields)

@[simp] theorem DatabaseSettings.name_declared (s : DatabaseSettings) :
    s.declared.name = Text.trim s.database := rfl

/-- What settings declare. -/
def Settings.declared (s : Settings) : Registry where
  splitSeparator := s.splitSeparator
  dailyEntries := (s.dailyEntries.map Text.trim).filter fun e => !e.isEmpty
  databases := s.databases.map DatabaseSettings.declared

theorem Text.allBlank_eq_false_iff {t : Text} : allBlank t = false ↔ trim t ≠ [] := by
  rw [← Bool.not_eq_true, allBlank_iff]

/-! ## Fields -/

namespace Database

/-- **The descriptor that is found** is the first of those that could be meant. -/
theorem descriptor?_eq_some_iff {fields : SortedMap FieldSettings} {name : Text}
    {f : FieldSettings} : descriptor? fields name = some f ↔ IsDescriptor fields name f := by
  constructor
  · intro h
    obtain ⟨⟨key, g⟩, hfind, rfl⟩ := Option.map_eq_some_iff.1 h
    obtain ⟨hkey, before, after, hentries, hbefore⟩ := List.find?_eq_some_iff_append.1 hfind
    have hasc := fields.ascending
    rw [hentries, Ascending, List.pairwise_append, List.pairwise_cons] at hasc
    refine ⟨key, SortedMap.mem_entries_iff.1 (by simp [hentries]), hkey,
      fun other hother hlt => ?_⟩
    obtain ⟨g', hg'⟩ := SortedMap.mem_names.1 hother
    rw [hentries, List.mem_append, List.mem_cons] at hg'
    rcases hg' with hmem | heq | hmem
    · simpa using hbefore _ hmem
    · cases heq
      exact absurd hlt (List.lt_irrefl _)
    · have hgt : key < other := hasc.2.1.1 _ hmem
      exact absurd (List.lt_trans hlt hgt) (List.lt_irrefl other)
  · rintro ⟨key, hget, halike, hfirst⟩
    obtain ⟨before, after, hentries⟩ := List.append_of_mem (SortedMap.mem_entries_iff.2 hget)
    have hasc := fields.ascending
    rw [hentries, Ascending, List.pairwise_append] at hasc
    have hbefore : ∀ e ∈ before, Text.alike (Text.trim e.1) name = false := by
      intro e he
      refine hfirst e.1 (SortedMap.mem_names.2 ⟨e.2, by simp [hentries, he]⟩) ?_
      exact hasc.2.2 e he _ List.mem_cons_self
    have hfind : fields.entries.find? (fun e => Text.alike (Text.trim e.1) name)
        = some (key, f) := by
      refine List.find?_eq_some_iff_append.2 ⟨halike, before, after, hentries, fun e he => ?_⟩
      rw [hbefore e he]
      rfl
    rw [descriptor?, hfind, Option.map_some]

/-- A field passes unless its descriptor has an empty separator. -/
theorem describe_eq_ok_iff {database name : Text} {fields : SortedMap FieldSettings} {f : Field} :
    describe database fields name = .ok f ↔
      (∀ g, IsDescriptor fields name g → g.multi ≠ some []) ∧ f = Field.declared fields name := by
  simp only [← descriptor?_eq_some_iff]
  unfold describe Field.declared
  cases hfound : descriptor? fields name with
  | none => simp [eq_comm]
  | some g =>
      by_cases hempty : g.multi = some []
      · simp [hempty]
      · simp [hempty, eq_comm]

theorem mapM_describe_eq_ok_iff {database : Text} {fields : SortedMap FieldSettings}
    {names : List Text} {fs : List Field} :
    names.mapM (describe database fields) = .ok fs ↔
      (∀ name ∈ names, ∀ g, IsDescriptor fields name g → g.multi ≠ some []) ∧
        fs = names.map (Field.declared fields) := by
  induction names generalizing fs with
  | nil => simp [pure, Except.pure, eq_comm]
  | cons name names ih =>
      rw [List.mapM_cons, List.forall_mem_cons]
      cases hfirst : describe database fields name with
      | error e =>
          have hnot : ¬ ∀ g, IsDescriptor fields name g → g.multi ≠ some [] := fun hall => by
            rw [describe_eq_ok_iff.2 ⟨hall, rfl⟩] at hfirst
            cases hfirst
          simp [bind, Except.bind, hnot]
      | ok f =>
          obtain ⟨hall, rfl⟩ := describe_eq_ok_iff.1 hfirst
          cases hrest : names.mapM (describe database fields) with
          | error e =>
              have hnot : ¬ ∀ name ∈ names, ∀ g, IsDescriptor fields name g →
                  g.multi ≠ some [] := fun hall => by
                rw [ih.2 ⟨hall, rfl⟩] at hrest
                cases hrest
              simp [bind, Except.bind, hnot]
          | ok rest =>
              obtain ⟨hall', rfl⟩ := ih.1 hrest
              simp only [bind, Except.bind, pure, Except.pure, Except.ok.injEq, List.map_cons]
              exact ⟨fun h => ⟨⟨hall, hall'⟩, h.symm⟩, fun h => h.2.symm⟩

/-- Parameters pass if they differ, from each other, from the type field and from those
before them. -/
theorem distinctParams_eq_ok_iff {database typeField : Text} {seen ps names : List Text} :
    distinctParams database typeField seen ps = .ok names ↔
      names = ps.map Text.trim ∧ Text.AllDiffer (ps.map Text.trim) ∧
        ∀ name ∈ ps.map Text.trim, Text.alike typeField name = false ∧
          ∀ s ∈ seen, Text.alike s name = false := by
  induction ps generalizing seen names with
  | nil =>
      rw [distinctParams, Except.ok.injEq, eq_comm]
      simp [Text.allDiffer_nil]
  | cons p ps ih =>
      simp only [distinctParams]
      by_cases hfresh : Text.alike typeField (Text.trim p) = false ∧
          ∀ s ∈ seen, Text.alike s (Text.trim p) = false
      · have hpass : ¬ (Text.alike (Text.trim p) typeField ||
            seen.any fun s => Text.alike s (Text.trim p)) = true := by
          rw [Text.alike_comm]
          simpa using hfresh
        rw [if_neg hpass, List.map_cons, List.forall_mem_cons, Text.AllDiffer, List.pairwise_cons]
        cases hrest : distinctParams database typeField (seen ++ [Text.trim p]) ps with
        | error e =>
            have hnot := mt ih.2 (by rw [hrest]; simp : distinctParams database typeField
              (seen ++ [Text.trim p]) ps ≠ .ok (ps.map Text.trim))
            refine iff_of_false (by simp [Except.map]) fun h => hnot ⟨rfl, h.2.1.2, ?_⟩
            refine fun name hname => ⟨(h.2.2.2 name hname).1, fun s hs => ?_⟩
            rcases List.mem_append.1 hs with hs | hs
            · exact (h.2.2.2 name hname).2 s hs
            · rw [List.mem_singleton.1 hs]
              exact h.2.1.1 name hname
        | ok rest =>
            obtain ⟨rfl, hdiffer, hnew⟩ := ih.1 hrest
            have hfirst : ∀ name ∈ ps.map Text.trim, Text.alike (Text.trim p) name = false :=
              fun name hname => (hnew name hname).2 _ (by simp)
            have hothers : ∀ name ∈ ps.map Text.trim, Text.alike typeField name = false ∧
                ∀ s ∈ seen, Text.alike s name = false := fun name hname =>
              ⟨(hnew name hname).1, fun s hs => (hnew name hname).2 s (List.mem_append_left _ hs)⟩
            simp only [Except.map, Except.ok.injEq]
            exact ⟨fun h => ⟨h.symm, ⟨hfirst, hdiffer⟩, hfresh, hothers⟩, fun h => h.1.symm⟩
      · have hfail : (Text.alike (Text.trim p) typeField ||
            seen.any fun s => Text.alike s (Text.trim p)) = true := by
          rw [Text.alike_comm]
          by_contra hpass
          exact hfresh (by simpa using hpass)
        rw [if_pos hfail, List.map_cons, List.forall_mem_cons]
        exact iff_of_false (by simp) fun h => hfresh h.2.2.1

/-! ## Definitions -/

/-- **A definition passes if it has no fault**, and gives what it declares. -/
theorem ofSettings_eq_ok_iff {index : Nat} {s : DatabaseSettings} {d : Database} :
    ofSettings index s = .ok d ↔ s.Acceptable ∧ d = s.declared := by
  constructor
  · intro h
    have htype : Text.trim s.typeField ≠ [] := by
      intro hnil
      unfold ofSettings at h
      simp only [hnil, List.isEmpty_nil, if_true, bind, Except.bind, throw, throwThe,
        MonadExceptOf.throw] at h
      split at h
      · cases h
      · split at h <;> cases h
    obtain ⟨hname, hne, hchars, names, hnames, htypeField, hparams⟩ := ofSettings_eq_ok h
    obtain ⟨rfl, hdiffer, hnew⟩ := distinctParams_eq_ok_iff.1 hnames
    obtain ⟨htypeSeparator, htypeField⟩ := describe_eq_ok_iff.1 htypeField
    obtain ⟨hseparators, hparams⟩ := mapM_describe_eq_ok_iff.1 hparams
    rw [hname] at hne hchars
    refine ⟨⟨Text.allBlank_eq_false_iff.2 hne, hchars, Text.allBlank_eq_false_iff.2 htype,
      List.pairwise_cons.2 ⟨fun name hmem => (hnew name hmem).1, hdiffer⟩,
      List.forall_mem_cons.2 ⟨htypeSeparator, hseparators⟩⟩, ?_⟩
    cases d
    simp only at hname htypeField hparams
    rw [hname, htypeField, hparams]
    rfl
  · rintro ⟨h, rfl⟩
    have hname := Text.allBlank_eq_false_iff.1 h.name_ne
    have htype := Text.allBlank_eq_false_iff.1 h.type_ne
    have hchars : (Text.trim s.database).any (fun c => c == '/' || Text.isBlank c) = false := by
      simpa using h.name_char
    obtain ⟨hnew, hdiffer⟩ := List.pairwise_cons.1 h.fields_differ
    obtain ⟨htypeSeparator, hseparators⟩ := List.forall_mem_cons.1 h.separators
    have hnames : distinctParams (Text.trim s.database) (Text.trim s.typeField) [] s.params
        = .ok (s.params.map Text.trim) :=
      distinctParams_eq_ok_iff.2 ⟨rfl, hdiffer, fun name hmem => ⟨hnew name hmem, by simp⟩⟩
    have htypeField : describe (Text.trim s.database) s.fields (Text.trim s.typeField) = .ok _ :=
      describe_eq_ok_iff.2 ⟨htypeSeparator, rfl⟩
    have hparams : (s.params.map Text.trim).mapM (describe (Text.trim s.database) s.fields)
        = .ok _ := mapM_describe_eq_ok_iff.2 ⟨hseparators, rfl⟩
    simp [ofSettings, hname, htype, hchars, hnames, htypeField, hparams, bind, Except.bind, pure,
      Except.pure, DatabaseSettings.declared]

/-- The fields of what a definition declares have the names that it gives. -/
theorem names_declared (s : DatabaseSettings) :
    s.declared.fields.map (·.name) = s.fieldNames := by
  have hname : ∀ name, (Field.declared s.fields name).name = name := by
    intro name
    unfold Field.declared
    split <;> rfl
  simp [fields, DatabaseSettings.declared, DatabaseSettings.fieldNames, hname]

end Database

namespace Registry

/-- Definitions pass one after another if none has a fault and their names differ, from each
other and from those before them. -/
theorem collect_eq_ok_iff {seen all : List Database} {index : Nat} {ds : List DatabaseSettings} :
    collect seen index ds = .ok all ↔
      (∀ d ∈ ds, d.Acceptable) ∧ all = seen ++ ds.map DatabaseSettings.declared ∧
        Text.AllDiffer (ds.map fun d => Text.trim d.database) ∧
        ∀ s ∈ seen, ∀ d ∈ ds, Text.alike s.name (Text.trim d.database) = false := by
  induction ds generalizing seen index with
  | nil =>
      rw [collect, Except.ok.injEq, eq_comm]
      simp [Text.allDiffer_nil]
  | cons d ds ih =>
      rw [collect, List.forall_mem_cons, List.map_cons, List.map_cons, Text.AllDiffer,
        List.pairwise_cons]
      cases hd : Database.ofSettings index d with
      | error e =>
          refine iff_of_false (by simp) fun h => ?_
          rw [Database.ofSettings_eq_ok_iff.2 ⟨h.1.1, rfl⟩] at hd
          cases hd
      | ok database =>
          obtain ⟨hacceptable, rfl⟩ := Database.ofSettings_eq_ok_iff.1 hd
          by_cases hnew : ∀ s ∈ seen, Text.alike s.name (Text.trim d.database) = false
          · have hpass : ¬ (seen.any fun s => Text.alike s.name d.declared.name) = true := by
              simpa using hnew
            simp only [if_neg hpass, ih, List.forall_mem_append, List.forall_mem_singleton,
              List.append_assoc, List.singleton_append]
            constructor
            · rintro ⟨hds, hall, hdiffer, hseen, hlast⟩
              refine ⟨⟨hacceptable, hds⟩, hall, ⟨?_, hdiffer⟩, fun s hs => ?_⟩
              · simpa using hlast
              · exact List.forall_mem_cons.2 ⟨hnew s hs, hseen s hs⟩
            · rintro ⟨⟨_, hds⟩, hall, ⟨hlast, hdiffer⟩, hseen⟩
              refine ⟨hds, hall, hdiffer, fun s hs => ?_, ?_⟩
              · exact (List.forall_mem_cons.1 (hseen s hs)).2
              · simpa using hlast
          · have hfail : (seen.any fun s => Text.alike s.name d.declared.name) = true := by
              by_contra hpass
              exact hnew (by simpa using hpass)
            simp only [if_pos hfail]
            exact iff_of_false (by simp) fun h =>
              hnew fun s hs => (List.forall_mem_cons.1 (h.2.2.2 s hs)).1

/-- **Settings pass if they have no fault**, and give what they declare. -/
theorem ofSettings_eq_ok_iff {s : Settings} {r : Registry} :
    ofSettings s = .ok r ↔ s.Acceptable ∧ r = s.declared := by
  unfold ofSettings
  by_cases hsep : s.splitSeparator = []
  · rw [if_pos (by simp [hsep])]
    exact iff_of_false (by simp) fun h => h.1.separator hsep
  · rw [if_neg (by simpa using hsep)]
    cases hall : collect [] 0 s.databases with
    | error e =>
        refine iff_of_false (by simp) fun h => ?_
        rw [collect_eq_ok_iff.2 ⟨h.1.databases, rfl, h.1.names_differ, by simp⟩] at hall
        cases hall
    | ok all =>
        obtain ⟨hdatabases, rfl, hdiffer, _⟩ := collect_eq_ok_iff.1 hall
        simp only [Except.ok.injEq]
        exact ⟨fun h => ⟨⟨hsep, hdatabases, hdiffer⟩, h.symm⟩, fun h => h.2.symm⟩

end Registry

end Tagline
