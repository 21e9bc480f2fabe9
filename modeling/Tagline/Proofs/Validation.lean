import Tagline.Proofs.Alignment

/-!
# Values outside a closed list

A value of a closed list that is not found in it stays in the record, and a warning beside the
record says so.  The warnings are gathered while the line is read, and by then it is not settled
what the record will be: whether a parameter is there at all, and under which name its values
are found again.  In the end they agree.  Both the values of a record and the warnings come from
the same checks, segment by segment, and the values of a segment are found under the name of its
parameter.

* `Field.check_cases` — what one check comes to;
* `Database.mem_warnings_iff`, `Database.Aligned.keeps_iff` — the warnings of a line and the
  values of its record come from the same checks;
* `Database.Validated` — a record whose values are in their lists unless a warning says
  otherwise;
* `Registry.parse_validates` — the records of the registry of any settings are so.
-/

namespace Tagline

/-! ## One value -/

namespace Field

variable {f : Field} {database : Text} {kind : WarningKind} {type : Option Text}

/-- The warning that a value of a field is not in the list for a type. -/
def warningOf (f : Field) (database : Text) (kind : WarningKind) (type : Option Text)
    (value : Text) : Warning :=
  { kind, database, field := f.name, value, allowed := f.allowedValues type }

/-- Whether a field has a closed list for a type that is not empty. -/
def Closed (f : Field) (type : Option Text) : Prop :=
  f.isFixed = true ∧ f.allowedValues type ≠ []

/-- What one check comes to: a value that is not checked, one that is in the list, or one
that is flagged. -/
theorem check_cases (f : Field) (database : Text) (kind : WarningKind) (type : Option Text)
    (raw : Text) :
    let k := f.check database kind type raw
    ¬ f.Closed type ∧ k.warning = none ∨
      f.Closed type ∧ (k.value ∈ f.allowedValues type ∧ k.warning = none ∨
        k.warning = some (f.warningOf database kind type k.value)) := by
  intro k
  have hiff : f.Closed type ↔ (!f.isFixed || (f.allowedValues type).isEmpty) = false := by
    simp [Closed]
  by_cases hclosed : f.Closed type
  · refine Or.inr ⟨hclosed, ?_⟩
    cases hcanonical : f.canonical raw type with
    | some a =>
        have hk : k = { value := a } := check_of_canonical (hiff.1 hclosed) hcanonical
        rw [canonical, if_pos hclosed.1] at hcanonical
        rw [hk]
        exact Or.inl ⟨List.mem_of_find?_eq_some hcanonical, rfl⟩
    | none =>
        have hk : k = _ := check_of_canonical_none (hiff.1 hclosed) hcanonical
        rw [hk]
        exact Or.inr rfl
  · have hk : k = { value := Text.normalize raw } :=
      check_of_open (by rwa [hiff, Bool.not_eq_false] at hclosed)
    rw [hk]
    exact Or.inl ⟨hclosed, rfl⟩

/-- **A value that is checked is in its list, or it is flagged.** -/
theorem check_listed_or_flagged (hclosed : f.Closed type) (raw : Text) :
    (f.check database kind type raw).value ∈ f.allowedValues type ∨
      (f.check database kind type raw).warning
        = some (f.warningOf database kind type (f.check database kind type raw).value) := by
  rcases f.check_cases database kind type raw with ⟨hopen, _⟩ | ⟨_, ⟨hlisted, _⟩ | hflagged⟩
  · exact absurd hclosed hopen
  · exact Or.inl hlisted
  · exact Or.inr hflagged

/-- **A warning is about the value that is kept**, and that one is checked. -/
theorem eq_of_check {raw : Text} {w : Warning}
    (h : (f.check database kind type raw).warning = some w) :
    f.Closed type ∧ w = f.warningOf database kind type (f.check database kind type raw).value := by
  rcases f.check_cases database kind type raw with
    ⟨_, hnone⟩ | ⟨hclosed, ⟨_, hnone⟩ | hflagged⟩
  · rw [hnone] at h
    cases h
  · rw [hnone] at h
    cases h
  · exact ⟨hclosed, Option.some.inj (h.symm.trans hflagged)⟩

end Field

/-! ## The values of a record -/

/-- A value of a record that is checked for a field: its type, or one of the values of a
parameter that is no free text.  The type is checked against the list that holds without a
type, and the values of a parameter against the list for the type of the record. -/
inductive Record.Keeps (record : Record) (d : Database) :
    WarningKind → Field → Option Text → Text → Prop where
  | type {v : Text} (h : record.typeValue = some v) :
      record.Keeps d .unknownType d.typeField none v
  | value {f : Field} (hf : f ∈ d.params) (hother : Text.alike f.name descriptionField = false)
      {value : Value} (h : record.param? f.name = some value) {v : Text} (hv : v ∈ value.texts) :
      record.Keeps d .valueNotAllowed f record.typeValue v

/-- The values of a record are in their lists, **unless a warning says otherwise**. -/
structure Database.Validated (d : Database) (o : Outcome) : Prop where
  /-- A value that is checked is in its list, or there is the warning that it is not. -/
  complete : ∀ kind f type v, o.record.Keeps d kind f type v → f.Closed type →
    v ∈ f.allowedValues type ∨ f.warningOf d.name kind type v ∈ o.warnings
  /-- A warning is about a value of the record that is checked. -/
  sound : ∀ w ∈ o.warnings, ∃ kind f type v, o.record.Keeps d kind f type v ∧ f.Closed type ∧
    w = f.warningOf d.name kind type v
  /-- A warning about an unknown type is one about the type field. -/
  unknown : ∀ w ∈ o.warnings,
    (w.kind = .unknownType ↔ Text.alike w.field d.typeField.name = true)
  /-- It comes first. -/
  first : ∀ (i : Nat) (w : Warning), o.warnings[i]? = some w → w.kind = .unknownType → i = 0

namespace Database

variable {d : Database} {head : Option Checked} {type : Option Text} {segments : List Text}
  {kind : WarningKind} {f : Field} {t : Option Text}

/-! ## Checks -/

/-- The checks that are made for a line: that of its type, if it has one, and those of the
values in the segments of the parameters that are no free text. -/
inductive Made (d : Database) (head : Option Checked) (type : Option Text)
    (segments : List Text) : WarningKind → Field → Option Text → Checked → Prop where
  | type {k : Checked} (h : head = some k) :
      Made d head type segments .unknownType d.typeField none k
  | value {i : Nat} {f : Field} {segment : Text} {k : Checked} (hf : d.params[i]? = some f)
      (hother : Text.alike f.name descriptionField = false) (hs : segments[i]? = some segment)
      (hk : k ∈ f.checkedValues d.name type (Text.trim segment)) :
      Made d head type segments .valueNotAllowed f type k

theorem Made.eq_check {k : Checked} (h : d.Made head type segments kind f t k)
    (hhead : ∀ k, head = some k → ∃ raw, k = d.typeField.check d.name .unknownType none raw) :
    ∃ raw, k = f.check d.name kind t raw := by
  cases h with
  | type h => exact hhead k h
  | value hf hother hs hk =>
      obtain ⟨raw, _, rfl⟩ := List.mem_map.1 hk
      exact ⟨raw, rfl⟩

/-- Only a segment of a parameter that is no free text is flagged, for one of its values. -/
theorem mem_warnings_readSegment {database segment : Text} {w : Warning} :
    w ∈ (f.readSegment database type segment).warnings ↔
      Text.alike f.name descriptionField = false ∧
        ∃ k ∈ f.checkedValues database type (Text.trim segment), k.warning = some w := by
  cases hd : Text.alike f.name descriptionField with
  | false => simp [Field.readSegment_of_other hd]
  | true =>
      by_cases hblank : Text.trim segment = []
      · simp [Field.readSegment_of_blank database type hblank]
      · simp [Field.readSegment_of_description database type hblank hd]

/-- **The warnings come from the checks.** -/
theorem mem_warnings_iff {w : Warning} :
    w ∈ (head.bind (·.warning)).toList ++
        (readings d.name type d.params segments).flatMap (·.warnings) ↔
      ∃ kind f t k, d.Made head type segments kind f t k ∧ k.warning = some w := by
  rw [List.mem_append, Option.mem_toList, Option.bind_eq_some_iff]
  simp only [List.mem_flatMap, mem_readings]
  constructor
  · rintro (⟨k, hk, hw⟩ | ⟨_, ⟨f, segment, hpair, rfl⟩, hw⟩)
    · exact ⟨_, _, _, k, .type hk, hw⟩
    · obtain ⟨i, hi⟩ := List.mem_iff_getElem?.1 hpair
      obtain ⟨hf, hs⟩ := List.getElem?_zip_eq_some.1 hi
      obtain ⟨hother, k, hk, hflagged⟩ := mem_warnings_readSegment.1 hw
      exact ⟨_, f, _, k, .value hf hother hs hk, hflagged⟩
  · rintro ⟨kind, f, t, k, hmade, hw⟩
    cases hmade with
    | type h => exact Or.inl ⟨k, h, hw⟩
    | @value i f segment k hf hother hs hk =>
        have hpair : (f, segment) ∈ d.params.zip segments :=
          List.mem_of_getElem? (List.getElem?_zip_eq_some.2 ⟨hf, hs⟩)
        exact Or.inr ⟨_, ⟨f, segment, hpair, rfl⟩, mem_warnings_readSegment.2 ⟨hother, k, hk, hw⟩⟩

/-- A warning is about the value that is kept of a check. -/
theorem exists_made_of_mem_warnings {w : Warning}
    (hhead : ∀ k, head = some k → ∃ raw, k = d.typeField.check d.name .unknownType none raw)
    (hw : w ∈ (head.bind (·.warning)).toList ++
      (readings d.name type d.params segments).flatMap (·.warnings)) :
    ∃ kind f t k, d.Made head type segments kind f t k ∧ f.Closed t ∧
      w = f.warningOf d.name kind t k.value := by
  obtain ⟨kind, f, t, k, hmade, hflagged⟩ := mem_warnings_iff.1 hw
  obtain ⟨raw, rfl⟩ := hmade.eq_check hhead
  obtain ⟨hclosed, heq⟩ := Field.eq_of_check hflagged
  exact ⟨kind, f, t, _, hmade, hclosed, heq⟩

/-- **The values of a record come from the checks**, if they stand in their places. -/
theorem Aligned.keeps_iff {record : Record} (haligned : d.Aligned segments record)
    (hvalue : record.typeValue = head.map (·.value)) {v : Text} :
    record.Keeps d kind f t v ↔
      ∃ k, d.Made head record.typeValue segments kind f t k ∧ k.value = v := by
  constructor
  · intro hkeeps
    cases hkeeps with
    | type h =>
        rw [hvalue] at h
        obtain ⟨k, hk, rfl⟩ := Option.map_eq_some_iff.1 h
        exact ⟨k, .type hk, rfl⟩
    | @value f hf hother value hfound v hv =>
        obtain ⟨i, hi⟩ := List.mem_iff_getElem?.1 hf
        obtain ⟨segment, hs, htexts, _⟩ := haligned.values i f hi hother value hfound
        rw [htexts] at hv
        obtain ⟨k, hk, rfl⟩ := List.mem_map.1 hv
        exact ⟨k, .value hi hother hs hk, rfl⟩
  · rintro ⟨k, hmade, rfl⟩
    cases hmade with
    | type h => exact .type (by rw [hvalue, h]; rfl)
    | @value i f segment k hf hother hs hk =>
        have hholds : f.HasValueIn segment := by
          rw [Field.hasValueIn_iff]
          intro hnone
          rw [Field.checkedValues, hnone] at hk
          cases hk
        have hpresent := (haligned.present i f hf hother).2 ⟨segment, hs, hholds⟩
        obtain ⟨value, hfound⟩ := Option.isSome_iff_exists.1 hpresent
        obtain ⟨other, hsame, htexts, _⟩ := haligned.values i f hf hother value hfound
        obtain rfl : segment = other := Option.some.inj (hs.symm.trans hsame)
        exact .value (List.mem_of_getElem? hf) hother hfound (htexts ▸ List.mem_map_of_mem hk)

/-! ## The record of a line -/

variable {separator lead : Text} {typeRaw rest : Option Text} {trailing : Bool} {o : Outcome}

/-- **What is gathered while a line is read**: the warning about its type, and behind it those
of its segments. -/
theorem warnings_readLine (h : d.readLine separator lead typeRaw rest trailing = .ok o) :
    ∃ head : Option Checked,
      (∀ k, head = some k → ∃ raw, k = d.typeField.check d.name .unknownType none raw) ∧
      o.record.database = d.name ∧ o.record.typeValue = head.map (·.value) ∧
      o.warnings = (head.bind (·.warning)).toList ++
        (readings d.name o.record.typeValue d.params (segmentsIn separator rest)).flatMap
          (·.warnings) := by
  obtain ⟨head, hhead, hdatabase, hvalue, hrest⟩ := readLine_cases h
  refine ⟨head, fun k hk => ?_, hdatabase, hvalue, ?_⟩
  · obtain ⟨t, _, _, hcheck⟩ := hhead k hk
    exact ⟨_, hcheck⟩
  · rcases hrest with ⟨rfl, _, _, hwarnings⟩ | ⟨body, read, rfl, hread, _, _, hwarnings⟩
    · rw [hwarnings]
      simp [segmentsIn, readings]
    · rw [hwarnings, (readSegments_eq_ok hread).2.2]
      rfl

/-- **The record of a line is validated**, if its values stand in their places. -/
theorem Accepted.validated_of_readLine (haccepted : d.Accepted)
    (h : d.readLine separator lead typeRaw rest trailing = .ok o)
    (haligned : d.Aligned (segmentsIn separator rest) o.record) : d.Validated o := by
  obtain ⟨head, hhead, _, hvalue, hwarnings⟩ := warnings_readLine h
  have hkeeps : ∀ kind f t v, o.record.Keeps d kind f t v ↔
      ∃ k, d.Made head o.record.typeValue (segmentsIn separator rest) kind f t k ∧ k.value = v :=
    fun _ _ _ _ => haligned.keeps_iff hvalue
  constructor
  case complete =>
    intro kind f t v hkept hclosed
    obtain ⟨k, hmade, rfl⟩ := (hkeeps kind f t v).1 hkept
    obtain ⟨raw, rfl⟩ := hmade.eq_check hhead
    rcases Field.check_listed_or_flagged hclosed raw with hlisted | hflagged
    · exact Or.inl hlisted
    · rw [hwarnings, mem_warnings_iff]
      exact Or.inr ⟨kind, f, t, _, hmade, hflagged⟩
  case sound =>
    intro w hw
    obtain ⟨kind, f, t, k, hmade, hclosed, rfl⟩ :=
      exists_made_of_mem_warnings hhead (hwarnings ▸ hw)
    exact ⟨kind, f, t, k.value, (hkeeps kind f t _).2 ⟨k, hmade, rfl⟩, hclosed, rfl⟩
  case unknown =>
    intro w hw
    obtain ⟨kind, f, t, k, hmade, _, rfl⟩ :=
      exists_made_of_mem_warnings hhead (hwarnings ▸ hw)
    cases hmade with
    | type h => exact ⟨fun _ => Text.alike_refl _, fun _ => rfl⟩
    | value hf =>
        have hdiffer := (List.pairwise_cons.1 haccepted.fields_differ).1 f
          (List.mem_of_getElem? hf)
        rw [Text.alike_comm] at hdiffer
        simp [Field.warningOf, hdiffer]
  case first =>
    intro i w hi hkind
    rw [hwarnings, List.getElem?_append] at hi
    split at hi
    · next hlt =>
        have hone := Option.length_toList_le (o := head.bind (·.warning))
        omega
    · -- What stands behind the warning about the type comes from the segments.
      have hbehind : w ∈ ((none : Option Checked).bind (·.warning)).toList ++
          (readings d.name o.record.typeValue d.params (segmentsIn separator rest)).flatMap
            (·.warnings) := List.mem_append_right _ (List.mem_of_getElem? hi)
      obtain ⟨kind, f, t, k, hmade, _, rfl⟩ :=
        exists_made_of_mem_warnings (fun _ h => by cases h) hbehind
      cases hmade with
      | type h => cases h
      | value => cases hkind

end Database

/-! ## Lines -/

/-- **Every record is validated.**  A value that a line gives for a closed list is in the list
that applies to it, or there is a warning with the value and the whole list; every warning is
about such a value of the record; and the warning about an unknown type, if there is one, comes
first. -/
theorem Registry.parse_validates {s : Settings} {r : Registry}
    (h : Registry.ofSettings s = .ok r) {line : Text} {o : Outcome} (hparse : r.parse line = .ok o)
    (hdaily : o.record.daily = false) :
    ∃ d, r.database? o.record.database = some d ∧ o.record.database = d.name ∧
      d.Validated o := by
  rcases parse_cases hparse with ⟨hentry, _⟩ | ⟨trailing, d, hd, hread⟩
  · rw [hdaily] at hentry
    cases hentry
  · have haccepted := accepted_of_ofSettings h d (mem_of_database? hd)
    obtain ⟨_, _, hdatabase, _⟩ := Database.warnings_readLine hread
    have hfound : r.database? o.record.database = some d := by
      rw [hdatabase]
      exact database?_name hd haccepted.trim_name
    refine ⟨d, hfound, hdatabase, ?_⟩
    rcases d.readLine_segments r.splitSeparator (splitHead (Text.trim line)).1
        (splitType (splitHead (Text.trim line)).1).2 (splitHead (Text.trim line)).2 trailing with
      ⟨_, herror⟩ | ⟨_, o', hread', _, haligned⟩
    · rw [hread] at herror
      cases herror
    · obtain rfl : o = o' := Except.ok.inj (hread.symm.trans hread')
      exact haccepted.validated_of_readLine hread (haligned haccepted)

/-- Settings with a list of types, and with a list of gear for each type. -/
def hikeSettings : Settings where
  databases :=
    [ { database := "Exercise"
        params := ["Gear"]
        fields := SortedMap.ofList
          [("Gear", { multi := some ","
                      values := SortedMap.ofList
                        [(allTypesKey, ["Hat"]), ("Hike", ["Boots", "Poles"])] }),
            ("Type", { values := SortedMap.ofList [(allTypesKey, ["Run"])] })] } ]

/-- The database of those settings. -/
def hiking : Database where
  name := "Exercise"
  typeField := { name := "Type", policy := .fixed ⟨["Run"], []⟩ }
  params :=
    [ { name := "Gear"
        policy := .fixed ⟨["Hat"], [("Hike", ["Boots", "Poles"])]⟩
        multi := some "," } ]

/-- What comes of a hike with a hat. -/
def hikeOutcome : Outcome where
  record :=
    { database := "Exercise"
      typeValue := some "Hike".toList
      params := [⟨"Gear", .multi ["Boots", "Hat"]⟩]
      location := some (.parameter "Gear" "boots, hat") }
  warnings :=
    [⟨.unknownType, "Exercise", "Type", "Hike", ["Run"]⟩,
      ⟨.valueNotAllowed, "Exercise", "Gear", "Hat", ["Boots", "Poles"]⟩]

/-- A type that is not listed is flagged, and it is the type that the gear is checked for. -/
theorem parse_validates_hike :
    Registry.ofSettings hikeSettings = .ok { databases := [hiking] } ∧
      Registry.parse { databases := [hiking] } "exercise/hike boots, hat" = .ok hikeOutcome ∧
        hiking.Validated hikeOutcome := by
  have hsettings : Registry.ofSettings hikeSettings = .ok { databases := [hiking] } := rfl
  have hparse : Registry.parse { databases := [hiking] } "exercise/hike boots, hat"
      = .ok hikeOutcome := by decide +kernel
  obtain ⟨d, hd, _, hvalidated⟩ := Registry.parse_validates hsettings hparse rfl
  obtain rfl : hiking = d := Option.some.inj hd
  exact ⟨hsettings, hparse, hvalidated⟩

end Tagline
