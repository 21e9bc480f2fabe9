import Tagline.Proofs.Json
import Tagline.Proofs.Json.Decode
import Tagline.Settings.Document

/-!
# Settings are read from their text

The text of settings is read back as the settings it was made of, whatever texts they
hold and however many databases, fields and lists there are.  The written form is
legible part by part, from the lists of values up, and every part is read back from its
own written form.  What is not written comes back as its default: an absent source and
an absent separator, and a map without values.

* `ofJson?_toJson` — for a field, a database and the settings as a whole;
* `legible_toJson` — their written forms are legible;
* `print_is_read_back` — settings are read from their text.
-/

namespace Tagline

namespace ValueSource

/-- The words of the sources tell them apart. -/
theorem ofWord?_word (s : ValueSource) : ofWord? s.word = some s := by
  cases s <;> decide

/-- A source is read from its word. -/
theorem ofJson?_word (s : ValueSource) : ofJson? (.string s.word) = some s :=
  ofWord?_word s

end ValueSource

namespace FieldSettings

/-- The map of declared values, unless it is empty. -/
def valuesJson? (f : FieldSettings) : Option Json :=
  if f.values.isEmpty then none
  else some (.object (f.values.entries.map fun e => (e.1, Json.ofTexts e.2)))

/-- The fields of the written form. -/
def written (f : FieldSettings) : List Json.WrittenField :=
  [ ⟨"allowed", ["allowed"], f.allowed.map fun source => .string source.word⟩,
    ⟨"values", ["values"], f.valuesJson?⟩,
    ⟨"multi", ["multi"], f.multi.map .string⟩ ]

theorem toJson_eq (f : FieldSettings) : f.toJson = .object (Json.membersOf f.written) := by
  simp [toJson, written, Json.membersOf, valuesJson?]

/-- The members of a field are found under their names. -/
theorem record?_toJson (f : FieldSettings) :
    f.toJson.record? [["allowed"], ["values"], ["multi"]]
      = some (f.written.map (·.value)) := by
  rw [toJson_eq]
  refine Json.record?_object f.written ?_ ?_
  · simp [written]
  · simp [written]

/-- Values that are left out are none. -/
theorem fieldOr_values (f : FieldSettings) :
    Json.fieldOr SortedMap.empty (Json.mapOf? (Json.listOf? Json.text?)) f.valuesJson?
      = some f.values := by
  unfold valuesJson?
  split
  · next hempty =>
      obtain ⟨allowed, ⟨entries, ascending⟩, multi⟩ := f
      obtain rfl : entries = [] := List.isEmpty_iff.1 hempty
      rfl
  · exact Json.mapOf?_object Json.listOf?_ofTexts f.values

/-- **What is declared about a field is read back.** -/
theorem ofJson?_toJson (f : FieldSettings) : ofJson? f.toJson = some f := by
  have hallowed := Json.fieldOr_nullable ValueSource.ofJson?_word (fun _ => by simp) f.allowed
  have hmulti := Json.fieldOr_nullable (f := Json.text?) (g := .string) (fun _ => rfl)
    (fun _ => by simp) f.multi
  rw [ofJson?, record?_toJson]
  simp only [written, List.map_cons, List.map_nil, Option.bind_eq_bind, Option.bind_some,
    hallowed, f.fieldOr_values, hmulti]
  rfl

/-- The settings of a field are legible. -/
theorem legible_toJson (f : FieldSettings) : f.toJson.Legible := by
  rw [toJson_eq]
  refine Json.legible_membersOf fun w hw j hj => ?_
  simp only [written, List.mem_cons, List.not_mem_nil, or_false] at hw
  rcases hw with rfl | rfl | rfl
  · obtain ⟨source, _, rfl⟩ := Option.map_eq_some_iff.1 hj
    exact Json.legible_string _
  · unfold valuesJson? at hj
    split at hj
    · cases hj
    · cases hj
      refine Json.legible_object fun m hm => ?_
      obtain ⟨e, _, rfl⟩ := List.mem_map.1 hm
      exact Json.legible_ofTexts e.2
  · obtain ⟨separator, _, rfl⟩ := Option.map_eq_some_iff.1 hj
    exact Json.legible_string _

end FieldSettings

namespace DatabaseSettings

/-- The fields of the written form. -/
def written (d : DatabaseSettings) : List Json.WrittenField :=
  [ ⟨"database", ["database"], some (.string d.database)⟩,
    ⟨"type_field", ["type_field", "type"], some (.string d.typeField)⟩,
    ⟨"params", ["params"], some (Json.ofTexts d.params)⟩,
    ⟨"fields", ["fields"], some (.object (d.fields.entries.map fun e => (e.1, e.2.toJson)))⟩ ]

/-- The members of a database are found under their names. -/
theorem record?_toJson (d : DatabaseSettings) :
    d.toJson.record? [["database"], ["type_field", "type"], ["params"], ["fields"]]
      = some (d.written.map (·.value)) :=
  Json.record?_object d.written (by simp [written]) (by simp [written])

/-- **A declared database is read back.** -/
theorem ofJson?_toJson (d : DatabaseSettings) : ofJson? d.toJson = some d := by
  have hfields := Json.mapOf?_object FieldSettings.ofJson?_toJson d.fields
  have hparams := Json.listOf?_ofTexts d.params
  rw [ofJson?, record?_toJson]
  simp only [written, List.map_cons, List.map_nil, Option.bind_eq_bind, Option.bind_some,
    Json.fieldOr, Json.text?, hparams, hfields]
  rfl

/-- So are those of a database. -/
theorem legible_toJson (d : DatabaseSettings) : d.toJson.Legible := by
  refine Json.legible_object fun m hm => ?_
  have hfields : (Json.object (d.fields.entries.map fun e => (e.1, e.2.toJson))).Legible := by
    refine Json.legible_object fun m hm => ?_
    obtain ⟨e, _, rfl⟩ := List.mem_map.1 hm
    exact e.2.legible_toJson
  simp only [List.mem_cons, List.not_mem_nil, or_false] at hm
  rcases hm with rfl | rfl | rfl | rfl
  · exact Json.legible_string _
  · exact Json.legible_string _
  · exact Json.legible_ofTexts _
  · exact hfields

end DatabaseSettings

namespace Settings

/-- The fields of the written form. -/
def written (s : Settings) : List Json.WrittenField :=
  [ ⟨"split_separator", ["split_separator"], some (.string s.splitSeparator)⟩,
    ⟨"daily_entries", ["daily_entries"], some (Json.ofTexts s.dailyEntries)⟩,
    ⟨"databases", ["databases"], some (.array (s.databases.map DatabaseSettings.toJson))⟩ ]

/-- So are those of the settings. -/
theorem record?_toJson (s : Settings) :
    s.toJson.record? [["split_separator"], ["daily_entries"], ["databases"]]
      = some (s.written.map (·.value)) :=
  Json.record?_object s.written (by simp [written]) (by simp [written])

/-- **Settings are read back from their written form.** -/
theorem ofJson?_toJson (s : Settings) : ofJson? s.toJson = some s := by
  have hentries := Json.listOf?_ofTexts s.dailyEntries
  have hdatabases := Json.listOf?_array DatabaseSettings.ofJson?_toJson s.databases
  rw [ofJson?, record?_toJson]
  simp only [written, List.map_cons, List.map_nil, Option.bind_eq_bind, Option.bind_some,
    Json.fieldOr, Json.text?, hentries, hdatabases]
  rfl

/-- So is the whole. -/
theorem legible_toJson (s : Settings) : s.toJson.Legible := by
  have hdatabases : (Json.array (s.databases.map DatabaseSettings.toJson)).Legible := by
    refine Json.legible_array fun j hj => ?_
    obtain ⟨d, _, rfl⟩ := List.mem_map.1 hj
    exact d.legible_toJson
  refine Json.legible_object fun m hm => ?_
  simp only [List.mem_cons, List.not_mem_nil, or_false] at hm
  rcases hm with rfl | rfl | rfl
  · exact Json.legible_string _
  · exact Json.legible_ofTexts _
  · exact hdatabases

/-- **Settings are read from their text**: the text is the one of their written form,
and from that they come back as they were. -/
theorem print_is_read_back (s : Settings) :
    Json.read? s.print = some s.toJson ∧ read? s.print = some s := by
  have htree : Json.read? s.print = some s.toJson := Json.read?_print s.legible_toJson
  refine ⟨htree, ?_⟩
  rw [read?, htree, Option.bind_some, ofJson?_toJson]

end Settings

end Tagline
