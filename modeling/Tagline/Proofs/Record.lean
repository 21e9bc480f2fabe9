import Tagline.History.Delta
import Tagline.Proofs.Parse

/-!
# The values of a record

A record that comes from a line holds trimmed values only: a declared spelling is
alike to a trimmed text, a normal spelling is trimmed, and free text is trimmed as it
is.  So a value that is not empty has a normal spelling that is not empty, and it is
among the entries of its record if its field remembers.

* `Registry.tidy_of_parse` — the values of a record are trimmed;
* `Record.mem_entries_iff` — what the entries of a record are;
* `Record.mem_entries` — a value of a field with a key is one of them.
-/

namespace Tagline

/-- All values of the record are trimmed. -/
structure Record.Tidy (r : Record) : Prop where
  type : ∀ t, r.typeValue = some t → Text.Trimmed t
  params : ∀ p ∈ r.params, ∀ v ∈ p.value.texts, Text.Trimmed v
  description : ∀ t ∈ r.description, Text.Trimmed t

namespace Field

variable {f : Field} {database : Text} {type : Option Text}

/-- Whatever is made of a trimmed text is trimmed. -/
theorem trimmed_check {kind : WarningKind} {raw : Text} (ht : Text.Trimmed raw) :
    Text.Trimmed (f.check database kind type raw).value := by
  unfold check
  dsimp only
  split
  · exact Text.trimmed_normalize raw
  · split
    · next a ha =>
        have halike := alike_of_canonical ha
        rw [Text.trim_of_trimmed ht] at halike
        exact Text.trimmed_of_alike halike ht
    · exact Text.trimmed_normalize raw

/-- What a segment adds is trimmed. -/
theorem trimmed_of_readSegment (s : Text) :
    (∀ p, (f.readSegment database type s).parameter = some p →
        ∀ v ∈ p.value.texts, Text.Trimmed v) ∧
      ∀ t, (f.readSegment database type s).description = some t → Text.Trimmed t := by
  obtain ⟨raws, hraws, hparameter, hdescription, _⟩ := f.readSegment_cases database type s
  refine ⟨fun p hp v hv => ?_, fun t ht => ?_⟩
  · rw [hparameter p hp] at hv
    obtain ⟨k, hk, rfl⟩ := List.mem_map.1 hv
    obtain ⟨raw, hraw, rfl⟩ := List.mem_map.1 hk
    obtain ⟨_, htrim, _⟩ := hraws raw hraw
    exact trimmed_check htrim
  · rw [hdescription t ht]
    exact Text.trimmed_trim s

end Field

namespace Database

variable {d : Database} {separator head body : Text} {type rest : Option Text}
  {trailing : Bool} {o : Outcome}

/-- What the segments of a line add is trimmed. -/
theorem trimmed_of_readSegments (h : d.readSegments separator type body = .ok o) :
    (∀ p ∈ o.record.params, ∀ v ∈ p.value.texts, Text.Trimmed v) ∧
      ∀ t ∈ o.record.description, Text.Trimmed t := by
  obtain ⟨hparams, hdescription, _⟩ := readSegments_eq_ok h
  rw [hparams, hdescription]
  refine ⟨fun p hp => ?_, fun t ht => ?_⟩
  · obtain ⟨reading, hreading, hparameter⟩ := List.mem_filterMap.1 hp
    obtain ⟨f, s, _, rfl⟩ := mem_readings.1 hreading
    exact (Field.trimmed_of_readSegment s).1 p hparameter
  · obtain ⟨reading, hreading, htext⟩ := List.mem_filterMap.1 ht
    obtain ⟨f, s, _, rfl⟩ := mem_readings.1 hreading
    exact (Field.trimmed_of_readSegment s).2 t htext

/-- The values of a record are trimmed, its type included. -/
theorem tidy_of_readLine (h : d.readLine separator head type rest trailing = .ok o) :
    o.record.Tidy := by
  obtain ⟨checked, hchecked, _, hvalue, hrest⟩ := readLine_cases h
  have htype : ∀ t, o.record.typeValue = some t → Text.Trimmed t := by
    intro t ht
    rw [hvalue] at ht
    obtain ⟨k, hk, rfl⟩ := Option.map_eq_some_iff.1 ht
    obtain ⟨raw, _, _, rfl⟩ := hchecked k hk
    exact Field.trimmed_check (Text.trimmed_trim raw)
  rcases hrest with ⟨_, hparams, hdescription, _⟩ |
    ⟨body, segments, _, hseg, hparams, hdescription, _⟩
  · exact ⟨htype, by simp [hparams], by simp [hdescription]⟩
  · obtain ⟨htrimmed, htexts⟩ := trimmed_of_readSegments hseg
    exact ⟨htype, hparams ▸ htrimmed, hdescription ▸ htexts⟩

end Database

/-- **The values of a record that comes from a line are trimmed.** -/
theorem Registry.tidy_of_parse {r : Registry} {line : Text} {o : Outcome}
    (h : r.parse line = .ok o) (hdaily : o.record.daily = false) : o.record.Tidy := by
  obtain ⟨_, _, _, _, _, _, hread⟩ := parse_eq_ok h hdaily
  exact Database.tidy_of_readLine hread

namespace Record

variable {r : Record} {d : Database} {f : Field}

/-- The values of a field in a tidy record are trimmed. -/
theorem Tidy.of_mem_valuesOf (h : r.Tidy) {field typeField v : Text}
    (hv : v ∈ r.valuesOf field typeField) : Text.Trimmed v := by
  unfold valuesOf at hv
  split at hv
  · exact h.type v (Option.mem_toList.1 hv)
  · split at hv
    · next value hparam =>
        obtain ⟨p, hp, rfl⟩ := Option.map_eq_some_iff.1 hparam
        exact h.params p (List.mem_of_find?_eq_some hp) v hv
    · split at hv
      · exact h.description v hv
      · cases hv

/-- **The entries of a record**: the values of the fields that remember, each under the
key of its field and in its normal spelling. -/
theorem mem_entries_iff {e : Entry} :
    e ∈ r.entries d ↔ r.daily = false ∧ ∃ f ∈ d.fields, f.policy.recordsHistory = true ∧
      ∃ key, f.historyKey d.typeField.name r.typeValue = some key ∧
        ∃ v ∈ r.valuesOf f.name d.typeField.name,
          Text.normalize v ≠ [] ∧ e = ⟨d.name, key, Text.normalize v⟩ := by
  unfold entries
  split
  · next hdaily => simp [hdaily]
  · next hdaily =>
      simp only [hdaily, true_and, List.mem_flatMap, List.mem_filter, and_assoc]
      refine exists_congr fun f => and_congr_right fun _ => and_congr_right fun _ => ?_
      cases f.historyKey d.typeField.name r.typeValue with
      | none => simp
      | some key =>
          simp only [List.mem_filterMap, List.mem_map, Option.some.injEq, exists_eq_left']
          constructor
          · rintro ⟨value, ⟨v, hv, rfl⟩, hentry⟩
            split at hentry
            · cases hentry
            · next hne =>
                cases hentry
                exact ⟨v, hv, by simpa using hne, rfl⟩
          · rintro ⟨v, hv, hne, rfl⟩
            exact ⟨_, ⟨v, hv, rfl⟩, by simp [hne]⟩

/-- All entries of a record are of its own database. -/
theorem database_of_mem_entries {e : Entry} (h : e ∈ r.entries d) : e.database = d.name := by
  obtain ⟨_, _, _, _, _, _, _, _, _, rfl⟩ := mem_entries_iff.1 h
  rfl

/-- A value that is not empty is an entry, if its field has a key. -/
theorem mem_entries (htidy : r.Tidy) (hdaily : r.daily = false) (hf : f ∈ d.fields)
    {key : Text} (hkey : f.historyKey d.typeField.name r.typeValue = some key) {v : Text}
    (hv : v ∈ r.valuesOf f.name d.typeField.name) (hne : v ≠ []) :
    ⟨d.name, key, Text.normalize v⟩ ∈ r.entries d := by
  have hremembers : f.policy.recordsHistory = true := by
    unfold Field.historyKey at hkey
    split at hkey
    · next values hpolicy => rw [hpolicy]; rfl
    · next values hpolicy => rw [hpolicy]; rfl
    · cases hkey
  have hnormal : Text.normalize v ≠ [] := by
    intro hnil
    have htrim := Text.normalize_eq_nil_iff.1 hnil
    rw [Text.trim_of_trimmed (htidy.of_mem_valuesOf hv)] at htrim
    exact hne htrim
  exact mem_entries_iff.2 ⟨hdaily, f, hf, hremembers, key, hkey, v, hv, hnormal, rfl⟩

end Record

end Tagline
