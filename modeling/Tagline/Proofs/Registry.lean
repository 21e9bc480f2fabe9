import Tagline.Registry
import Tagline.Proofs.Text.Pieces
import Mathlib.Data.List.Pairwise

/-!
# What an accepted registry guarantees

Settings are accepted definition by definition.  A definition that passes has a
name that can stand in front of the slash of a tag line, and fields whose names
differ by more than case; looking a database up by the name of one that was found
finds that one again.
-/

namespace Tagline

namespace Database

/-- What the check of one definition guarantees. -/
structure Accepted (d : Database) : Prop where
  name_ne : d.name ≠ []
  name_char : ∀ c ∈ d.name, c ≠ '/' ∧ Text.isBlank c = false
  fields_differ : d.fields.Pairwise fun f g => Text.alike f.name g.name = false

/-- The name of an accepted database is trimmed. -/
theorem Accepted.trim_name {d : Database} (h : d.Accepted) : Text.trim d.name = d.name :=
  Text.trim_of_trimmed (Text.trimmed_of_no_blank fun c hc => (h.name_char c hc).2)

/-- The names of two parameters of an accepted database are not alike. -/
theorem Accepted.params_differ {d : Database} (h : d.Accepted) :
    d.params.Pairwise fun f g => Text.alike f.name g.name = false :=
  (List.pairwise_cons.1 h.fields_differ).2

/-- Two fields of an accepted database have different names. -/
theorem Accepted.not_alike {d : Database} (h : d.Accepted) {f g : Field} (hf : f ∈ d.fields)
    (hg : g ∈ d.fields) (hother : f ≠ g) : Text.alike f.name g.name = false := by
  have hsymm : Std.Symm fun f g : Field => Text.alike f.name g.name = false := by
    refine ⟨fun f g hfg => ?_⟩
    rw [← Bool.not_eq_true] at hfg ⊢
    exact fun hgf => hfg (Text.alike_symm hgf)
  exact h.fields_differ.forall hf hg hother

/-- **A field is found by its own name.** -/
theorem Accepted.field?_name {d : Database} (h : d.Accepted) {f : Field} (hf : f ∈ d.fields) :
    d.field? f.name = some f := by
  cases hfound : d.field? f.name with
  | none =>
      have hnone := List.find?_eq_none.1 hfound f hf
      exact absurd (Text.alike_refl f.name) hnone
  | some g =>
      have hg : g ∈ d.fields := List.mem_of_find?_eq_some hfound
      have halike : Text.alike g.name f.name = true := by simpa using List.find?_some hfound
      by_cases hsame : g = f
      · rw [hsame]
      · rw [h.not_alike hg hf hsame] at halike
        cases halike

/-- Parameter names that pass are not alike, neither to each other nor to the
type field nor to those before. -/
theorem differ_of_distinctParams {database typeField : Text} {seen ps names : List Text}
    (h : distinctParams database typeField seen ps = .ok names) :
    (names.Pairwise fun m n => Text.alike m n = false) ∧
      ∀ n ∈ names, Text.alike typeField n = false ∧ ∀ s ∈ seen, Text.alike s n = false := by
  induction ps generalizing seen names with
  | nil =>
      obtain rfl : [] = names := by simpa [distinctParams] using h
      simp
  | cons p ps ih =>
      unfold distinctParams at h
      simp only at h
      split at h
      · simp at h
      · next hfresh =>
          cases hrest : distinctParams database typeField (seen ++ [Text.trim p]) ps with
          | error e => simp [hrest, Except.map] at h
          | ok rest =>
              obtain rfl : Text.trim p :: rest = names := by simpa [hrest, Except.map] using h
              obtain ⟨hpair, hall⟩ := ih hrest
              simp only [Bool.or_eq_true, List.any_eq_true, not_or, not_exists, not_and,
                Bool.not_eq_true] at hfresh
              refine ⟨List.pairwise_cons.2 ⟨fun n hn => ?_, hpair⟩, fun n hn => ?_⟩
              · exact (hall n hn).2 _ (by simp)
              · rcases List.mem_cons.1 hn with rfl | hn
                · refine ⟨?_, hfresh.2⟩
                  have hne := hfresh.1
                  simp only [Text.alike, beq_eq_false_iff_ne] at hne ⊢
                  exact fun heq => hne heq.symm
                · exact ⟨(hall n hn).1, fun s hs => (hall n hn).2 s (List.mem_append_left _ hs)⟩

/-- A described field keeps its name. -/
theorem name_of_describe {database : Text} {fields : SortedMap FieldSettings} {name : Text}
    {f : Field} (h : describe database fields name = .ok f) : f.name = name := by
  unfold describe at h
  split at h
  · cases h
    rfl
  · split at h
    · simp at h
    · cases h
      rfl

theorem names_of_describe {database : Text} {fields : SortedMap FieldSettings}
    {names : List Text} {fs : List Field} (h : names.mapM (describe database fields) = .ok fs) :
    fs.map (·.name) = names := by
  induction names generalizing fs with
  | nil =>
      obtain rfl : [] = fs := by simpa [pure, Except.pure] using h
      rfl
  | cons name names ih =>
      rw [List.mapM_cons] at h
      cases hf : describe database fields name with
      | error e => simp [hf, bind, Except.bind] at h
      | ok f =>
          cases hrest : names.mapM (describe database fields) with
          | error e => simp [hf, hrest, bind, Except.bind] at h
          | ok rest =>
              obtain rfl : f :: rest = fs := by
                simpa [hf, hrest, bind, Except.bind, pure, Except.pure] using h
              rw [List.map_cons, name_of_describe hf, ih hrest]

/-- The guards of one definition, with what they leave. -/
theorem ofSettings_eq_ok {index : Nat} {s : DatabaseSettings} {d : Database}
    (h : ofSettings index s = .ok d) :
    d.name = Text.trim s.database ∧ d.name ≠ [] ∧
      (∀ c ∈ d.name, c ≠ '/' ∧ Text.isBlank c = false) ∧
      ∃ names, distinctParams d.name (Text.trim s.typeField) [] s.params = .ok names ∧
        describe d.name s.fields (Text.trim s.typeField) = .ok d.typeField ∧
        names.mapM (describe d.name s.fields) = .ok d.params := by
  unfold ofSettings at h
  simp only [bind, Except.bind, pure, Except.pure, throw, throwThe, MonadExceptOf.throw] at h
  split at h
  · simp at h
  next hne =>
  split at h
  · simp at h
  next hchars =>
  split at h
  · simp at h
  cases hnames : distinctParams (Text.trim s.database) (Text.trim s.typeField) [] s.params with
  | error e => simp [hnames] at h
  | ok names =>
      cases htype : describe (Text.trim s.database) s.fields (Text.trim s.typeField) with
      | error e => simp [hnames, htype] at h
      | ok typeField =>
          cases hparams : names.mapM (describe (Text.trim s.database) s.fields) with
          | error e => simp [hnames, htype, hparams] at h
          | ok params =>
              simp only [hnames, htype, hparams, Except.ok.injEq] at h
              subst h
              refine ⟨rfl, by simpa using hne, fun c hc => ?_, names, hnames, htype, hparams⟩
              have hbad : ¬ ((c == '/' || Text.isBlank c) = true) := fun hbad =>
                hchars (List.any_eq_true.2 ⟨c, hc, hbad⟩)
              simpa using hbad

/-- **A definition that passes is an accepted database.** -/
theorem accepted_of_ofSettings {index : Nat} {s : DatabaseSettings} {d : Database}
    (h : ofSettings index s = .ok d) : d.Accepted := by
  obtain ⟨_, hne, hchars, names, hnames, htype, hparams⟩ := ofSettings_eq_ok h
  obtain ⟨hpair, htypeField⟩ := differ_of_distinctParams hnames
  have hmap := names_of_describe hparams
  refine ⟨hne, hchars, List.pairwise_cons.2 ⟨fun f hf => ?_, ?_⟩⟩
  · rw [name_of_describe htype]
    exact (htypeField f.name (hmap ▸ List.mem_map_of_mem hf)).1
  · rw [← hmap] at hpair
    exact List.pairwise_map.1 hpair

end Database

namespace Registry

theorem accepted_of_collect {seen : List Database} {index : Nat} {ds : List DatabaseSettings}
    {all : List Database} (h : collect seen index ds = .ok all) :
    ∀ d ∈ all, d ∈ seen ∨ d.Accepted := by
  induction ds generalizing seen index with
  | nil =>
      obtain rfl : seen = all := by simpa [collect] using h
      exact fun d hd => Or.inl hd
  | cons s ds ih =>
      unfold collect at h
      cases hd : Database.ofSettings index s with
      | error e => simp [hd] at h
      | ok database =>
          simp only [hd] at h
          split at h
          · simp at h
          · intro d hmem
            rcases ih h d hmem with hseen | haccepted
            · rcases List.mem_append.1 hseen with hseen | hlast
              · exact Or.inl hseen
              · rw [List.mem_singleton.1 hlast]
                exact Or.inr (Database.accepted_of_ofSettings hd)
            · exact Or.inr haccepted

/-- **The databases of an accepted registry are accepted.** -/
theorem accepted_of_ofSettings {s : Settings} {r : Registry} (h : ofSettings s = .ok r) :
    ∀ d ∈ r.databases, d.Accepted := by
  unfold ofSettings at h
  split at h
  · simp at h
  · cases hall : collect [] 0 s.databases with
    | error e => simp [hall] at h
    | ok all =>
        simp only [hall, Except.ok.injEq] at h
        subst h
        intro d hd
        exact (accepted_of_collect hall d hd).resolve_left (by simp)

theorem mem_of_database? {r : Registry} {name : Text} {d : Database}
    (h : r.database? name = some d) : d ∈ r.databases :=
  List.mem_of_find?_eq_some h

/-- **A database is found again by its own name.** -/
theorem database?_name {r : Registry} {name : Text} {d : Database}
    (h : r.database? name = some d) (htrim : Text.trim d.name = d.name) :
    r.database? d.name = some d := by
  have hfound : Text.alike d.name (Text.trim name) = true := by
    simpa using List.find?_some h
  unfold database? at h ⊢
  rw [htrim, ← h]
  congr 1
  funext e
  have hlower := Text.alike_iff.1 hfound
  simp only [Text.alike, hlower]

/-- A line is no daily entry exactly if it is not one of them as it stands. -/
theorem dailyEntry?_eq_none_iff {r : Registry} {line : Text} :
    r.dailyEntry? line = none ↔ line ∉ r.dailyEntries := by
  constructor
  · intro h hmem
    have hnot := List.find?_eq_none.1 h line hmem
    simp at hnot
  · intro h
    refine List.find?_eq_none.2 fun entry hentry heq => h ?_
    obtain rfl : entry = line := by simpa using heq
    exact hentry

end Registry

end Tagline
