import Tagline.Proofs.Index
import Tagline.Proofs.Session.Accepting

/-!
# Addressing a database

While nothing stands behind the prefix of a tag line, the names of all databases are
suggested.  A name has neither a blank nor a slash, so a body that is a name is all head, and
an accepted registry finds each of its databases by its own name.  Only the prefix can come
between: a name may begin with a hash, and behind a single hash without a blank this is a
second one, so that the line is no tag line.  Every other empty tag line, such as a hash with
a blank behind it or a heading, takes every name.

* `Prefix.strip?_append_name` — what is stripped of an empty tag line with a name behind it;
* `Registry.parse_name` — a name is read to its database;
* `Session.suggest_of_empty` — every name is suggested;
* `Session.parse_accepted_name` — the accepted name is read, unless it doubles the hash.
-/

namespace Tagline

/-! ## Empty tag lines -/

namespace Prefix

/-- A tag line without a body is a prefix with blanks behind it. -/
theorem strip?_eq_nil {line : Text} (h : strip? line = some []) :
    ∃ blanks, (∀ b ∈ blanks, Text.isBlank b = true) ∧
      (line = heading ++ blanks ∨ line = '#' :: blanks) := by
  unfold strip? at h
  split at h
  · next t hheading =>
      obtain ⟨blanks, ht, hblanks⟩ := Text.trimStart_append t
      rw [Option.some.inj h, List.append_nil] at ht
      exact ⟨blanks, hblanks, Or.inl (ht ▸ Text.eq_append_of_dropLead? hheading)⟩
  · obtain ⟨t, hhash, hbody⟩ := Option.map_eq_some_iff.1 h
    obtain ⟨blanks, ht, hblanks⟩ := Text.trimStart_append t
    rw [hbody, List.append_nil] at ht
    exact ⟨blanks, hblanks, Or.inr (ht ▸ afterHash?_eq_some hhash)⟩

/-- A line without blanks begins with no heading. -/
theorem dropLead?_heading_of_no_blank {line : Text} (h : ∀ c ∈ line, Text.isBlank c = false) :
    Text.dropLead? heading line = none := by
  rw [Option.eq_none_iff_forall_ne_some]
  intro rest hrest
  have hspace := h ' ' (by simp [Text.eq_append_of_dropLead? hrest, heading])
  exact absurd hspace (by decide)

/-- **A name behind an empty tag line** is its body, unless it doubles a single hash. -/
theorem strip?_append_name {line name : Text} (hline : strip? line = some [])
    (hname : ∀ c ∈ name, Text.isBlank c = false) :
    strip? (line ++ name)
      = if line = ['#'] ∧ name.head? = some '#' then none else some name := by
  have hstart : ∀ blanks, (∀ b ∈ blanks, Text.isBlank b = true) →
      Text.trimStart (blanks ++ name) = name := fun blanks hblanks => by
    rw [Text.trimStart_append_of_blank hblanks]
    exact Text.trimStart_of_trimmed (Text.trimmed_of_no_blank hname)
  obtain ⟨blanks, hblanks, rfl | rfl⟩ := strip?_eq_nil hline
  · rw [if_neg (by simp [heading]), strip?, List.append_assoc, Text.dropLead?_append]
    exact congrArg some (hstart blanks hblanks)
  · cases blanks with
    | cons b blanks =>
        -- The blank is no second hash.
        have hb : b ≠ '#' := by
          rintro rfl
          exact absurd (hblanks '#' List.mem_cons_self) (by decide)
        have hplain : Text.dropLead? heading ('#' :: b :: (blanks ++ name)) = none := by
          simp [heading, Text.dropLead?, Ne.symm hb]
        have hafter : afterHash? ('#' :: b :: (blanks ++ name)) = some (b :: (blanks ++ name)) := by
          simp [afterHash?, hb]
        rw [if_neg (by simp), List.cons_append, List.cons_append, strip?, hplain, hafter]
        exact congrArg some (hstart (b :: blanks) hblanks)
    | nil =>
        have hplain : Text.dropLead? heading ('#' :: name) = none :=
          dropLead?_heading_of_no_blank (List.forall_mem_cons.2 ⟨by decide, hname⟩)
        rw [List.cons_append, List.nil_append, strip?, hplain]
        by_cases hhash : name.head? = some '#'
        · obtain ⟨rest, rfl⟩ := List.head?_eq_some_iff.1 hhash
          rw [if_pos ⟨rfl, hhash⟩]
          rfl
        · have hafter : afterHash? ('#' :: name) = some name := by
            unfold afterHash?
            split <;> simp_all
          rw [if_neg fun h => hhash h.2, hafter]
          exact congrArg some (hstart [] (by simp))

end Prefix

/-! ## Names -/

namespace Registry

variable {r : Registry} {settings : Settings}

/-- The empty text is no daily entry. -/
theorem nil_not_mem_dailyEntries (h : ofSettings settings = .ok r) : [] ∉ r.dailyEntries := by
  obtain ⟨_, rfl⟩ := ofSettings_eq_ok_iff.1 h
  simp [Settings.declared]

/-- **A name is read to its database**, unless it is a daily entry. -/
theorem parse_name {d : Database} (hd : d.Accepted) (hself : r.database? d.name = some d)
    (hentry : d.name ∉ r.dailyEntries) :
    r.parse d.name
      = .ok { record := { database := d.name, location := some (.database d.name) } } := by
  have hblank : ∀ c ∈ d.name, Text.isBlank c = false := fun c hc => (hd.name_char c hc).2
  have hslash : '/' ∉ d.name := fun h => (hd.name_char '/' h).1 rfl
  have hsplit := splitHead_of_no_blank hblank
  have htype := splitType_of_not_mem hslash
  rw [parse_of_trimmed (Text.trimmed_of_no_blank hblank) hd.name_ne
    (dailyEntry?_eq_none_iff.2 hentry) (by rw [hsplit, htype]; exact hself), hsplit, htype]
  rfl

end Registry

namespace Session

section EmptyLine

variable {β : Type} {s : Session β} {settings : Settings}
  (hsettings : Registry.ofSettings settings = .ok s.registry) {line : Text}
  (hline : Prefix.strip? line = some [])

include hsettings hline

/-- **Behind an empty tag line every name is suggested**, at its end. -/
theorem suggest_of_empty :
    s.suggest line line.length = some (s.registry.names.map fun name =>
      (Suggestion.ofValue .database name).place (Text.bytes line) (Text.bytes line)) := by
  have hentry : s.registry.dailyEntry? (Text.trim []) = none :=
    Registry.dailyEntry?_eq_none_iff.2 (Registry.nil_not_mem_dailyEntries hsettings)
  have hnames : s.registry.suggestDatabases []
      = s.registry.names.map (Suggestion.ofValue .database) := by
    rw [Registry.suggestDatabases, filterCandidates, List.filter_eq_self.2]
    exact fun name _ => matchesTyped_nil name
  have hinside : databasePrefix? [] = some [] := rfl
  simp only [suggest, List.take_length, Prefix.split?, hline, Option.map_some, List.length_nil,
    Nat.sub_zero, hentry, hinside, hnames]
  simp [Text.bytes, Text.trimEnd, Function.comp_def]

/-- **An accepted name is read to its database**, unless it begins with a hash and stands
behind nothing but a hash.  Then the line has two hashes at its start and is no tag line. -/
theorem parse_accepted_name {name : Text} (hname : name ∈ s.registry.names)
    (hentry : name ∉ s.registry.dailyEntries) :
    (∃ suggestions x, s.suggest line line.length = some suggestions ∧ x ∈ suggestions ∧
      x.replacement = name ∧ x.accept? line = some (line ++ name)) ∧
    s.parse (line ++ name) =
      if line = ['#'] ∧ name.head? = some '#' then .error (.line .notTagLine)
      else .ok { record := { database := name, location := some (.database name) } } := by
  obtain ⟨d, hd, rfl⟩ := List.mem_map.1 hname
  have haccepted := Registry.accepted_of_ofSettings hsettings d hd
  refine ⟨⟨_, _, suggest_of_empty hsettings hline, List.mem_map_of_mem hname, rfl, ?_⟩, ?_⟩
  · have haccept : ((Suggestion.ofValue .database d.name).place (Text.bytes line)
        (Text.bytes line)).accept? (line ++ []) = some (line ++ d.name) :=
      Suggestion.accept?_append rfl rfl []
    rwa [List.append_nil] at haccept
  · have hstrip := Prefix.strip?_append_name hline fun c hc => (haccepted.name_char c hc).2
    have hparse := Registry.parse_name haccepted (Registry.database?_of_mem hsettings hd) hentry
    by_cases hdoubled : line = ['#'] ∧ d.name.head? = some '#'
    · rw [if_pos hdoubled] at hstrip ⊢
      rw [parse, Registry.parseTagLine, hstrip]
      rfl
    · rw [if_neg hdoubled] at hstrip ⊢
      rw [parse, Registry.parseTagLine, hstrip]
      exact congrArg (Except.mapError SessionError.line) hparse

end EmptyLine

/-- Settings with a database whose name begins with a hash. -/
def gymSettings : Settings where
  databases := [{ database := "#Gym", params := ["Gear"] }]

/-- A fresh session with those settings. -/
def gymSession : Session Memory where
  registry :=
    { databases :=
        [{ name := "#Gym", typeField := { name := "Type" }, params := [{ name := "Gear" }] }] }
  history := { medium := {} }

/-- The name is suggested behind a hash, but the line with the accepted name is no tag line;
with a blank behind the hash it is read. -/
theorem parse_accepted_name_gym :
    Registry.ofSettings gymSettings = .ok gymSession.registry ∧
      (∃ suggestions x, gymSession.suggest "#" 1 = some suggestions ∧ x ∈ suggestions ∧
        x.replacement = "#Gym".toList ∧ x.accept? "#" = some "##Gym".toList) ∧
      gymSession.parse "##Gym" = .error (.line .notTagLine) ∧
      gymSession.parse "# #Gym"
        = .ok { record := { database := "#Gym", location := some (.database "#Gym") } } := by
  have hsettings : Registry.ofSettings gymSettings = .ok gymSession.registry := rfl
  have hname : "#Gym".toList ∈ gymSession.registry.names := by decide
  have hentry : "#Gym".toList ∉ gymSession.registry.dailyEntries := by decide
  have hhash : Prefix.strip? "#".toList = some [] := rfl
  have hblank : Prefix.strip? "# ".toList = some [] := rfl
  obtain ⟨hsuggested, hdoubled⟩ := parse_accepted_name hsettings hhash hname hentry
  obtain ⟨_, hread⟩ := parse_accepted_name hsettings hblank hname hentry
  exact ⟨hsettings, hsuggested, hdoubled, hread⟩

end Session

end Tagline
