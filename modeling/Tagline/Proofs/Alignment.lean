import Tagline.Proofs.Segment

/-!
# Values that stay in their places

The segments of a line belong to the parameters of its database in order.  A segment
without a value leaves its parameter out of the record, and the next segment belongs to
the next parameter all the same.  So the values of a record have lost their places, and
a parameter is found again by its name.  This finds the value of its own segment because
no two parameters of an accepted database are alike.

A line can go wrong in three ways, and which of them it is, is seen from the line: it is
blank, its name is not the name of a database, or it has more segments than the database
has parameters.

* `Field.hasValueIn_iff` — which segments hold a value;
* `find?_readings`, `description_readings` — what segments add is found again by name;
* `Database.Accepted.aligned_of_readings`, `Database.readLine_segments` — the values of a
  line stand in their places;
* `Registry.Parsed`, `Registry.parsed_parse` — what comes of a line;
* `Registry.parse_is_aligned` — both, for the registry of any settings.
-/

namespace Tagline

/-! ## One segment -/

namespace Field

variable {f : Field} {database : Text} {type : Option Text}

/-- A segment holds a value of a field: it is not blank, or one of its pieces is not, if
the field may have several values. -/
def HasValueIn (f : Field) (segment : Text) : Prop :=
  match f.multi with
  | some separator =>
      ∃ piece ∈ Text.pieces separator (Text.trim segment), Text.allBlank piece = false
  | none => Text.allBlank segment = false

/-- A segment holds a value exactly if values stand in it. -/
theorem hasValueIn_iff {segment : Text} :
    f.HasValueIn segment ↔ f.rawValues (Text.trim segment) ≠ [] := by
  have hblank : ∀ t, Text.allBlank t = false ↔ Text.trim t ≠ [] := fun t => by
    rw [← Bool.not_eq_true, Text.allBlank_iff]
  cases hm : f.multi with
  | none => simp [HasValueIn, rawValues, hm, hblank, Text.trim_of_trimmed (Text.trimmed_trim _)]
  | some separator => simp [HasValueIn, rawValues, hm, hblank, valuePieces]

/-- A field has a value from a segment exactly if the segment holds one. -/
theorem isSome_valueFrom?_iff {segment : Text} :
    (f.valueFrom? ((f.checkedValues database type (Text.trim segment)).map
        Checked.value)).isSome = true ↔ f.HasValueIn segment := by
  rw [hasValueIn_iff]
  cases hraws : f.rawValues (Text.trim segment) <;> simp [checkedValues, hraws, valueFrom?]

/-- The segment of the free text adds its text, trimmed, unless it is blank. -/
theorem description_readSegment_of_description (hd : Text.alike f.name descriptionField = true)
    (segment : Text) :
    (f.readSegment database type segment).description
      = (some (Text.trim segment)).filter fun t => !t.isEmpty := by
  by_cases hblank : Text.trim segment = []
  · rw [readSegment_of_blank database type hblank, hblank]
    rfl
  · rw [readSegment_of_description database type hblank hd, Option.filter_some,
      if_pos (by simpa using hblank)]

end Field

/-! ## Several segments -/

section Readings

variable {database : Text} {type : Option Text} {fs : List Field} {segments : List Text}

/-- **The names come in the order of the fields**, each once. -/
theorem names_readings_sublist :
    (((readings database type fs segments).filterMap (·.parameter)).map (·.name)).Sublist
      (fs.map (·.name)) := by
  induction fs generalizing segments with
  | nil => exact .slnil
  | cons f fs ih =>
      cases segments with
      | nil => exact List.nil_sublist _
      | cons segment segments =>
          rw [readings_cons, List.filterMap_cons]
          cases hadded : (f.readSegment database type segment).parameter with
          | none => exact ih.cons f.name
          | some x =>
              rw [List.map_cons, Field.name_of_readSegment hadded]
              exact ih.cons_cons f.name

/-- **What a segment adds is found again by the name of its field.** -/
theorem find?_readings (hdiffer : fs.Pairwise fun f g => Text.alike f.name g.name = false)
    {i : Nat} {f : Field} (hf : fs[i]? = some f) :
    ((readings database type fs segments).filterMap (·.parameter)).find?
        (fun x => Text.alike x.name f.name)
      = segments[i]?.bind fun segment => (f.readSegment database type segment).parameter := by
  induction fs generalizing segments i with
  | nil => cases hf
  | cons g fs ih =>
      obtain ⟨hg, hfs⟩ := List.pairwise_cons.1 hdiffer
      cases segments with
      | nil => rfl
      | cons segment segments =>
          rw [readings_cons, List.filterMap_cons]
          cases i with
          | zero =>
              obtain rfl : g = f := Option.some.inj hf
              cases hadded : (g.readSegment database type segment).parameter with
              | some x =>
                  have hname := Field.name_of_readSegment hadded
                  simp [hname, Text.alike_refl, hadded]
              | none =>
                  -- The later fields have other names.
                  rw [List.getElem?_cons_zero, Option.bind_some, hadded, List.find?_eq_none]
                  intro x hx
                  have hmem := names_readings_sublist.subset (List.mem_map_of_mem hx)
                  obtain ⟨later, hlater, hname⟩ := List.mem_map.1 hmem
                  rw [← hname, Text.alike_comm, hg later hlater]
                  exact Bool.false_ne_true
          | succ i =>
              have hother := hg f (List.mem_of_getElem? hf)
              rw [List.getElem?_cons_succ, ← ih hfs hf]
              cases hadded : (g.readSegment database type segment).parameter with
              | none => rfl
              | some x =>
                  rw [List.find?_cons_of_neg]
                  rw [Field.name_of_readSegment hadded, hother]
                  exact Bool.false_ne_true

/-- Fields that are no free text add none. -/
theorem description_readings_of_other
    (h : ∀ f ∈ fs, Text.alike f.name descriptionField = false) :
    (readings database type fs segments).filterMap (·.description) = [] := by
  rw [List.filterMap_eq_nil_iff]
  intro reading hreading
  obtain ⟨f, segment, hpair, rfl⟩ := mem_readings.1 hreading
  rw [Field.readSegment_of_other (h f (List.of_mem_zip hpair).1)]

/-- **The free text is that of its own segment.** -/
theorem description_readings (hdiffer : fs.Pairwise fun f g => Text.alike f.name g.name = false)
    {i : Nat} {f : Field} (hf : fs[i]? = some f)
    (hd : Text.alike f.name descriptionField = true) :
    (readings database type fs segments).filterMap (·.description)
      = ((segments[i]?.map Text.trim).filter fun t => !t.isEmpty).toList := by
  have hother : ∀ g : Field, Text.alike f.name g.name = false →
      Text.alike g.name descriptionField = false := by
    intro g hg
    rw [← Bool.not_eq_true] at hg ⊢
    exact fun h => hg (Text.alike_trans hd (Text.alike_symm h))
  induction fs generalizing segments i with
  | nil => cases hf
  | cons g fs ih =>
      obtain ⟨hg, hfs⟩ := List.pairwise_cons.1 hdiffer
      cases segments with
      | nil => rfl
      | cons segment segments =>
          rw [readings_cons, List.filterMap_cons]
          cases i with
          | zero =>
              obtain rfl : g = f := Option.some.inj hf
              rw [description_readings_of_other fun k hk => hother k (hg k hk),
                Field.description_readSegment_of_description hd, List.getElem?_cons_zero,
                Option.map_some]
              cases (some (Text.trim segment)).filter fun t => !t.isEmpty <;> rfl
          | succ i =>
              have hgf := hg f (List.mem_of_getElem? hf)
              rw [Text.alike_comm] at hgf
              rw [Field.readSegment_of_other (hother g hgf), ih hfs hf, List.getElem?_cons_succ]

end Readings

/-! ## The record of a line -/

/-- The values of a record stand in the places of the segments of its line. -/
structure Database.Aligned (d : Database) (segments : List Text) (record : Record) : Prop where
  /-- A parameter is there exactly if its segment is there and holds a value. -/
  present : ∀ (i : Nat) (f : Field), d.params[i]? = some f →
    Text.alike f.name descriptionField = false →
    ((record.param? f.name).isSome = true ↔
      ∃ segment, segments[i]? = some segment ∧ f.HasValueIn segment)
  /-- It holds the values of its segment as they are checked, in order, and nothing else. -/
  values : ∀ (i : Nat) (f : Field), d.params[i]? = some f →
    Text.alike f.name descriptionField = false →
    ∀ v, record.param? f.name = some v → ∃ segment, segments[i]? = some segment ∧
      v.texts = (f.checkedValues d.name record.typeValue (Text.trim segment)).map
        Checked.value ∧
      ((∃ ts, v = .multi ts) ↔ f.isMulti = true)
  /-- The free text is the segment of its parameter, trimmed, if that is not blank. -/
  description : ∀ (i : Nat) (f : Field), d.params[i]? = some f →
    Text.alike f.name descriptionField = true →
    record.description = ((segments[i]?.map Text.trim).filter fun t => !t.isEmpty).toList
  /-- Without such a parameter there is no free text. -/
  undescribed : (∀ f ∈ d.params, Text.alike f.name descriptionField = false) →
    record.description = []
  atMostOne : record.description.length ≤ 1
  /-- The names come in the order of the parameters. -/
  order : (record.params.map (·.name)).Sublist d.paramNames
  /-- No name comes twice. -/
  differ : Text.AllDiffer (record.params.map (·.name))
  /-- The line ends in the parameter of its last segment, with the segment as it stands. -/
  location : ∀ earlier segment, segments = earlier ++ [segment] →
    ∃ f : Field, d.params[earlier.length]? = some f ∧
      record.location = some (.parameter f.name segment)

namespace Database

variable {d : Database}

/-- The free text of a database is one parameter or none. -/
theorem description_cases (d : Database) :
    (∃ (i : Nat) (f : Field), d.params[i]? = some f ∧ Text.alike f.name descriptionField = true) ∨
      ∀ f ∈ d.params, Text.alike f.name descriptionField = false := by
  by_cases h : ∃ f ∈ d.params, Text.alike f.name descriptionField = true
  · obtain ⟨f, hf, hd⟩ := h
    obtain ⟨i, hi⟩ := List.mem_iff_getElem?.1 hf
    exact Or.inl ⟨i, f, hi, hd⟩
  · refine Or.inr fun f hf => ?_
    rw [← Bool.not_eq_true]
    exact fun hd => h ⟨f, hf, hd⟩

/-- **What segments come to stands in their places.** -/
theorem Accepted.aligned_of_readings (haccepted : d.Accepted) {segments : List Text}
    {record : Record}
    (hparams : record.params
      = (readings d.name record.typeValue d.params segments).filterMap (·.parameter))
    (hdescription : record.description
      = (readings d.name record.typeValue d.params segments).filterMap (·.description))
    (hlocation : ∀ earlier segment, segments = earlier ++ [segment] →
      ∃ f : Field, d.params[earlier.length]? = some f ∧
        record.location = some (.parameter f.name segment)) : d.Aligned segments record := by
  have hdiffer := haccepted.params_differ
  have hnames : Text.AllDiffer d.paramNames := List.pairwise_map.2 hdiffer
  have horder : (record.params.map (·.name)).Sublist d.paramNames := by
    rw [hparams]
    exact names_readings_sublist
  have hfound : ∀ (i : Nat) (f : Field), d.params[i]? = some f →
      Text.alike f.name descriptionField = false →
        record.param? f.name = segments[i]?.bind fun segment => f.valueFrom?
          ((f.checkedValues d.name record.typeValue (Text.trim segment)).map Checked.value) := by
    intro i f hf hother
    rw [Record.param?, hparams, find?_readings hdiffer hf, Option.map_bind]
    refine congrArg (Option.bind segments[i]?) (funext fun segment => ?_)
    simp [Field.readSegment_of_other hother, Function.comp_def]
  refine ⟨fun i f hf hother => ?_, fun i f hf hother v hv => ?_, fun i f hf hd => ?_,
    fun hnone => ?_, ?_, horder, hnames.sublist horder, hlocation⟩
  · rw [hfound i f hf hother]
    cases hsegment : segments[i]? with
    | none => simp
    | some segment => simp [Field.isSome_valueFrom?_iff]
  · rw [hfound i f hf hother] at hv
    obtain ⟨segment, hsegment, hvalue⟩ := Option.bind_eq_some_iff.1 hv
    exact ⟨segment, hsegment, Field.eq_of_valueFrom? hvalue⟩
  · rw [hdescription, description_readings hdiffer hf hd]
  · rw [hdescription, description_readings_of_other hnone]
  · rw [hdescription]
    rcases d.description_cases with ⟨i, f, hf, hd⟩ | hnone
    · rw [description_readings hdiffer hf hd]
      exact Option.length_toList_le
    · rw [description_readings_of_other hnone]
      exact Nat.zero_le 1

end Database

/-! ## Lines -/

/-- The head of a line: all up to the first blank behind those at its start. -/
def lineHead (line : Text) : Text :=
  (Text.trim line).takeWhile fun c => !Text.isBlank c

/-- The name of a line: all of its head up to the first slash. -/
def lineName (line : Text) : Text :=
  (lineHead line).takeWhile fun c => c != '/'

/-- What stands behind the head of a line and the blanks after it. -/
def lineRest? (line : Text) : Option Text :=
  match (Text.trim line).dropWhile fun c => !Text.isBlank c with
  | [] => none
  | rest => some (Text.trimStart rest)

/-- The parts between the separators of what stands behind a head, if anything does. -/
def segmentsIn (separator : Text) : Option Text → List Text
  | none => []
  | some rest => Text.pieces separator rest

/-- The segments of a line. -/
def Registry.segments (r : Registry) (line : Text) : List Text :=
  segmentsIn r.splitSeparator (lineRest? line)

/-- A trimmed line is cut into its head and its rest. -/
theorem splitHead_trim (line : Text) :
    splitHead (Text.trim line) = (lineHead line, lineRest? line) := by
  cases hafter : (Text.trim line).dropWhile fun c => !Text.isBlank c <;>
    simp [splitHead, lineHead, lineRest?, hafter]

/-- The name in a head is all up to the first slash. -/
theorem splitType_fst (head : Text) : (splitType head).1 = head.takeWhile fun c => c != '/' := by
  by_cases hslash : '/' ∈ head
  · obtain ⟨name, type, rfl, hname⟩ := List.eq_append_cons_of_mem hslash
    have hkept : ∀ c ∈ name, (c != '/') = true := fun c hc => by
      rw [bne_iff_ne]
      rintro rfl
      exact hname hc
    rw [splitType_append hname, List.takeWhile_append_of_pos hkept]
    simp
  · rw [splitType_of_not_mem hslash]
    refine (List.takeWhile_eq_self_iff.2 fun c hc => ?_).symm
    simp only [bne_iff_ne]
    rintro rfl
    exact hslash hc

namespace Database

/-- **What comes of the segments of a line**: there are too many of them, or the record
has their values in their places. -/
theorem readLine_segments (d : Database) (separator head : Text) (type rest : Option Text)
    (trailing : Bool) :
    (d.params.length < (segmentsIn separator rest).length ∧
        d.readLine separator head type rest trailing = .error
          (.tooManyParameters d.name d.params.length (segmentsIn separator rest).length)) ∨
      (segmentsIn separator rest).length ≤ d.params.length ∧
        ∃ o, d.readLine separator head type rest trailing = .ok o ∧ o.record.daily = false ∧
          (d.Accepted → d.Aligned (segmentsIn separator rest) o.record) := by
  cases rest with
  | none =>
      refine Or.inr ⟨Nat.zero_le _, _, rfl, rfl, fun haccepted => ?_⟩
      refine haccepted.aligned_of_readings ?_ ?_ ?_
      · simp [readings, segmentsIn]
      · simp [readings, segmentsIn]
      · intro earlier segment hnone
        simp [segmentsIn] at hnone
  | some body =>
      rcases Nat.lt_or_ge d.params.length (Text.pieces separator body).length with hmany | hfew
      · exact Or.inl ⟨hmany, by simp [readLine, readSegments, hmany, Except.map, segmentsIn]⟩
      · -- There are enough parameters, so the segments are read.
        obtain ⟨o, hread⟩ : ∃ o, d.readLine separator head type (some body) trailing = .ok o := by
          simp [readLine, readSegments, Nat.not_lt.2 hfew, Except.map]
        obtain ⟨value, ws, o', hsegments, rfl, _⟩ := readLine_some_eq_ok hread
        obtain ⟨_, rfl, hdaily⟩ := readSegments_head hsegments
        obtain ⟨hadded, hdescription, _⟩ := readSegments_eq_ok hsegments
        obtain ⟨fs, f, more, ps, last, hparams, hpieces, hlength, hends⟩ :=
          readSegments_ends hsegments
        refine Or.inr ⟨hfew, _, hread, hdaily, fun haccepted => ?_⟩
        refine haccepted.aligned_of_readings hadded hdescription fun earlier segment heq => ⟨f, ?_⟩
        obtain ⟨hearlier, hlast⟩ := List.append_inj' (hpieces.symm.trans heq) rfl
        obtain rfl := (List.cons.inj hlast).1
        refine ⟨?_, hends⟩
        rw [hparams, ← hearlier, ← hlength]
        simp

end Database

/-- What comes of a line. -/
inductive Registry.Parsed (r : Registry) (line : Text) : Except LineError Outcome → Prop where
  | blank (hblank : Text.allBlank line = true) : Parsed r line (.error .empty)
  | daily (hblank : Text.allBlank line = false) (hdaily : Text.trim line ∈ r.dailyEntries) :
      Parsed r line (.ok { record := { database := Text.trim line, daily := true } })
  | unknown (hblank : Text.allBlank line = false) (hdaily : Text.trim line ∉ r.dailyEntries)
      (hname : r.database? (lineName line) = none) :
      Parsed r line (.error (.unknownDatabase (lineName line)))
  | tooMany (hblank : Text.allBlank line = false) (hdaily : Text.trim line ∉ r.dailyEntries)
      {d : Database} (hname : r.database? (lineName line) = some d)
      (hmany : d.params.length < (r.segments line).length) :
      Parsed r line
        (.error (.tooManyParameters d.name d.params.length (r.segments line).length))
  | read (hblank : Text.allBlank line = false) (hdaily : Text.trim line ∉ r.dailyEntries)
      {d : Database} (hname : r.database? (lineName line) = some d)
      (hfew : (r.segments line).length ≤ d.params.length) {o : Outcome}
      (hentry : o.record.daily = false)
      (haligned : d.Accepted → d.Aligned (r.segments line) o.record) : Parsed r line (.ok o)

/-- A daily entry is the line itself. -/
theorem Registry.dailyEntry?_eq_some {r : Registry} {line entry : Text}
    (h : r.dailyEntry? line = some entry) : entry = line ∧ line ∈ r.dailyEntries := by
  obtain rfl : entry = line := by simpa using List.find?_some h
  exact ⟨rfl, List.mem_of_find?_eq_some h⟩

/-- How a line is read, with its parts as they stand in it. -/
theorem Registry.parse_eq (r : Registry) (line : Text) :
    ∃ trailing, r.parse line =
      if (Text.trim line).isEmpty then .error .empty
      else
        match r.dailyEntry? (Text.trim line) with
        | some entry => .ok { record := { database := entry, daily := true } }
        | none =>
            match r.database? (lineName line) with
            | none => .error (.unknownDatabase (lineName line))
            | some d => d.readLine r.splitSeparator (lineHead line)
                (splitType (lineHead line)).2 (lineRest? line) trailing := by
  refine ⟨decide ((Text.trimEnd line).length < line.length), ?_⟩
  have hname : (splitType (lineHead line)).1 = lineName line := splitType_fst _
  rw [← hname]
  have hhead : lineHead line = (splitHead (Text.trim line)).1 := by rw [splitHead_trim]
  have hrest : lineRest? line = (splitHead (Text.trim line)).2 := by rw [splitHead_trim]
  rw [hhead, hrest]
  rfl

/-- **What comes of a line.** -/
theorem Registry.parsed_parse (r : Registry) (line : Text) : r.Parsed line (r.parse line) := by
  obtain ⟨trailing, hparse⟩ := r.parse_eq line
  rw [hparse]
  cases hblank : Text.allBlank line with
  | true =>
      rw [if_pos (by simp [Text.allBlank_iff.1 hblank])]
      exact .blank hblank
  | false =>
      have hne : ¬ (Text.trim line).isEmpty = true := by
        rw [List.isEmpty_iff, ← Text.allBlank_iff, hblank]
        exact Bool.false_ne_true
      rw [if_neg hne]
      cases hentry : r.dailyEntry? (Text.trim line) with
      | some entry =>
          obtain ⟨rfl, hmem⟩ := dailyEntry?_eq_some hentry
          exact .daily hblank hmem
      | none =>
          have hdaily := dailyEntry?_eq_none_iff.1 hentry
          cases hname : r.database? (lineName line) with
          | none => exact .unknown hblank hdaily hname
          | some d =>
              dsimp only
              rcases d.readLine_segments r.splitSeparator (lineHead line)
                (splitType (lineHead line)).2 (lineRest? line) trailing with
                ⟨hmany, herror⟩ | ⟨hfew, o, hread, hrecord, haligned⟩
              · rw [herror]
                exact .tooMany hblank hdaily hname hmany
              · rw [hread]
                exact .read hblank hdaily hname hfew hrecord haligned

/-- **Values stay in their places.**  A line is refused exactly if it is blank; or else,
being no daily entry, if its name is not the name of a database; or else if it has more
segments than the database has parameters.  Any other line that is no daily entry is
read, and every parameter has the values of its own segment, whatever the segments in
front of it hold. -/
theorem Registry.parse_is_aligned {s : Settings} {r : Registry}
    (h : Registry.ofSettings s = .ok r) (line : Text) :
    (r.parse line = .error .empty ↔ Text.allBlank line = true) ∧
    (∀ name, r.parse line = .error (.unknownDatabase name) ↔
      Text.allBlank line = false ∧ Text.trim line ∉ r.dailyEntries ∧
        r.database? (lineName line) = none ∧ lineName line = name) ∧
    (∀ name expected found, r.parse line = .error (.tooManyParameters name expected found) ↔
      Text.allBlank line = false ∧ Text.trim line ∉ r.dailyEntries ∧
        ∃ d, r.database? (lineName line) = some d ∧
          d.params.length < (r.segments line).length ∧ d.name = name ∧
          d.params.length = expected ∧ (r.segments line).length = found) ∧
    ((∃ o, r.parse line = .ok o ∧ o.record.daily = true) ↔
      Text.allBlank line = false ∧ Text.trim line ∈ r.dailyEntries) ∧
    ((∃ o, r.parse line = .ok o ∧ o.record.daily = false) ↔
      Text.allBlank line = false ∧ Text.trim line ∉ r.dailyEntries ∧
        ∃ d, r.database? (lineName line) = some d ∧
          (r.segments line).length ≤ d.params.length) ∧
    ∀ o, r.parse line = .ok o → o.record.daily = false →
      ∃ d, r.database? (lineName line) = some d ∧ d.Aligned (r.segments line) o.record := by
  have hparsed := r.parsed_parse line
  generalize r.parse line = result at hparsed
  cases hparsed with
  | blank hblank => simp [hblank]
  | daily hblank hdaily => simp [hblank, hdaily]
  | unknown hblank hdaily hname => simp [hblank, hdaily, hname]
  | tooMany hblank hdaily hname hmany => simp [hblank, hdaily, hname, hmany]
  | @read hblank hdaily d hname hfew o hrecord haligned =>
      have haccepted := accepted_of_ofSettings h d (mem_of_database? hname)
      simp [hblank, hdaily, hname, hfew, hrecord, haligned haccepted]

/-- Settings of a workshop: the parameter for free text stands between two others, and a
job may have several parts. -/
def jobSettings : Settings where
  dailyEntries := ["Inventory"]
  databases :=
    [ { database := "Job"
        params := ["Tool", "Description", "Parts", "Place"]
        fields := SortedMap.ofList
          [("Parts", { allowed := some .history, multi := some "," }),
            ("Tool", { values := SortedMap.ofList [("_ALL", ["Saw", "Plane"])] })] } ]

/-- The database of those settings. -/
def job : Database where
  name := "Job"
  typeField := { name := "Type" }
  params :=
    [ { name := "Tool", policy := .fixed ⟨["Saw", "Plane"], []⟩ }, { name := "Description" },
      { name := "Parts", policy := .history ⟨[], []⟩, multi := some "," }, { name := "Place" } ]

/-- The registry of those settings. -/
def jobRegistry : Registry where
  dailyEntries := ["Inventory"]
  databases := [job]

/-- A job without a note and without a place, in which two parts are empty. -/
def jobLine : Text := " job/Repair  SAW;; bolt,, NUT ,; "

/-- The segments keep their places though two of them are blank, and so do the parts. -/
theorem parse_is_aligned_job :
    Registry.ofSettings jobSettings = .ok jobRegistry ∧
      jobRegistry.parse "  " = .error .empty ∧
      jobRegistry.parse "Jobs Saw" = .error (.unknownDatabase "Jobs") ∧
      jobRegistry.parse "Job Saw;;;;" = .error (.tooManyParameters "Job" 4 5) ∧
      ∃ o, jobRegistry.parse jobLine = .ok o ∧
        job.Aligned ["SAW".toList, [], " bolt,, NUT ,".toList, []] o.record ∧
        o.record.params = [⟨"Tool", .single "Saw"⟩, ⟨"Parts", .multi ["Bolt", "Nut"]⟩] ∧
        o.record.description = [] ∧ o.record.location = some (.parameter "Place" []) := by
  have hsettings : Registry.ofSettings jobSettings = .ok jobRegistry := rfl
  have hname : jobRegistry.database? (lineName jobLine) = some job := rfl
  have hsegments : jobRegistry.segments jobLine
      = ["SAW".toList, [], " bolt,, NUT ,".toList, []] := by decide +kernel
  obtain ⟨hempty, _⟩ := Registry.parse_is_aligned hsettings "  "
  obtain ⟨_, hunknown, _⟩ := Registry.parse_is_aligned hsettings "Jobs Saw"
  obtain ⟨_, _, hmany, _⟩ := Registry.parse_is_aligned hsettings "Job Saw;;;;"
  obtain ⟨_, _, _, _, hread, haligned⟩ := Registry.parse_is_aligned hsettings jobLine
  obtain ⟨o, hparse, hrecord⟩ := hread.2
    ⟨by decide +kernel, by decide +kernel, job, hname, by rw [hsegments]; decide⟩
  obtain ⟨d, hd, hplaces⟩ := haligned o hparse hrecord
  obtain rfl : job = d := Option.some.inj (hname.symm.trans hd)
  rw [hsegments] at hplaces
  have hkept : (jobRegistry.parse jobLine).toOption.map
      (fun o => (o.record.params, o.record.description, o.record.location))
        = some ([⟨"Tool", .single "Saw"⟩, ⟨"Parts", .multi ["Bolt", "Nut"]⟩], [],
          some (.parameter "Place" [])) := by decide +kernel
  rw [hparse] at hkept
  simp only [Except.toOption, Option.map_some, Option.some.injEq, Prod.mk.injEq] at hkept
  exact ⟨hsettings, hempty.2 (by decide),
    (hunknown "Jobs").2 ⟨by decide, by decide +kernel, rfl, by decide +kernel⟩,
    (hmany "Job" 4 5).2 ⟨by decide, by decide +kernel, job, rfl, by decide +kernel, rfl, rfl,
      by decide +kernel⟩,
    o, hparse, hplaces, hkept⟩

end Tagline
