import Tagline.Proofs.Segment

/-!
# Filling in the value in which a line ends

A line ends in a value: the type, or the last value of its last segment.  Whatever is
filled in for what is typed of it, the line is cut at the same places in front, so all
that is read there stays as it is.

* `Database.readSegments_append` — the readings of segments with another last value;
* `Database.readSegments_fills`, `Database.readLine_fills` — they differ in that value only;
* `Registry.parse_fills_parameter`, `Registry.parse_fills_type` — so does the reading of a
  line that ends in a parameter or in the type.
-/

namespace Tagline

namespace Database

variable {d : Database} {c : Char} {type : Option Text}

/-- What readings of segments come to, the last of them where the line ends. -/
def outcomeOf (d : Database) (type : Option Text) (before : List Reading) (last : Reading)
    (location : Location) : Outcome where
  record :=
    { database := d.name
      typeValue := type
      params := before.filterMap (·.parameter) ++ last.parameter.toList
      description := before.filterMap (·.description) ++ last.description.toList
      location := some location }
  warnings := before.flatMap (·.warnings) ++ last.warnings

/-- **The reading of segments with another last value**: the readings of the segments in
front, then that of the last segment. -/
theorem readSegments_append (type : Option Text) {fs more : List Field} {f : Field}
    (hparams : d.params = fs ++ f :: more) {front value p : Text} {ps : List Text}
    (hfront : Text.pieces [c] front = ps ++ [p]) (hlength : fs.length = ps.length)
    (hvalue : c ∉ value) :
    d.readSegments [c] type (front ++ value)
      = .ok (d.outcomeOf type (readings d.name type fs ps)
          (f.readSegment d.name type (p ++ value)) (.parameter f.name (p ++ value))) := by
  have hsegments : Text.pieces [c] (front ++ value) = ps ++ [p ++ value] :=
    Text.pieces_append hfront hvalue
  have hzip : d.params.zip (ps ++ [p ++ value]) = fs.zip ps ++ [(f, p ++ value)] := by
    rw [hparams, List.zip_append hlength]
    simp
  have hfew : ¬ d.params.length < (ps ++ [p ++ value]).length := by
    rw [hparams]
    simp
    omega
  have hparameter : ∀ r : Reading, [r].filterMap (·.parameter) = r.parameter.toList := by
    rintro ⟨_ | _, _, _⟩ <;> rfl
  have hdescription : ∀ r : Reading, [r].filterMap (·.description) = r.description.toList := by
    rintro ⟨_, _ | _, _⟩ <;> rfl
  simp only [readSegments, hsegments, if_neg hfew, hzip, List.map_append, List.map_cons,
    List.map_nil, List.filterMap_append, hparameter, hdescription, List.flatMap_append,
    List.flatMap_singleton, List.getLast?_append, List.getLast?_singleton]
  rfl

end Database

/-! ## Outcomes -/

/-- The values of a field that stand in front of the one of which `typed` is typed. -/
def Record.earlier (r : Record) (name typed : Text) : List Text :=
  Field.valuesBefore typed (((r.param? name).map (·.texts)).getD [])

/-- The parameter of a name stands behind others, if it is there. -/
theorem Record.param?_of_append {r : Record} {others : List Parameter} {last : Option Parameter}
    {name : Text} (hparams : r.params = others ++ last.toList)
    (hothers : ∀ x ∈ others, Text.alike x.name name = false)
    (hlast : ∀ x, last = some x → x.name = name) :
    r.param? name = last.map (·.value) ∧
      r.params.filter (fun x => !Text.alike x.name name) = others := by
  have hkept : others.filter (fun x => !Text.alike x.name name) = others :=
    List.filter_eq_self.2 fun x hx => by simp [hothers x hx]
  have hnone : others.find? (fun x => Text.alike x.name name) = none :=
    List.find?_eq_none.2 fun x hx => by simp [hothers x hx]
  rw [param?, hparams, List.find?_append, hnone, List.filter_append, hkept]
  cases last with
  | none => simp
  | some x => simp [hlast x rfl]

/-- The outcome `filled` has a value for a parameter where `o` has what is typed of it,
and is as `o` in everything else. -/
structure Outcome.FillsParameter (o filled : Outcome) (f : Field) (typed value : Text) :
    Prop where
  database : filled.record.database = o.record.database
  typeValue : filled.record.typeValue = o.record.typeValue
  description : filled.record.description = o.record.description
  params : filled.record.params
    = (o.record.params.filter fun p => !Text.alike p.name f.name) ++
        [{ name := f.name
           value := f.valueOf (o.record.earlier f.name typed) (f.kept value) }]
  unflagged : (f.check o.record.database .valueNotAllowed o.record.typeValue value).warning = none
  warnings : o.warnings = filled.warnings ++
    f.warningsAbout o.record.database .valueNotAllowed o.record.typeValue typed

namespace Database

variable {d : Database} {c : Char} {type : Option Text}

/-- The parameters in front of one have other names. -/
theorem Accepted.not_alike_front (haccepted : d.Accepted) {fs more : List Field} {f : Field}
    (hparams : d.params = fs ++ f :: more) : ∀ g ∈ fs, Text.alike g.name f.name = false := by
  have hdiffer := haccepted.params_differ
  rw [hparams, List.pairwise_append] at hdiffer
  exact fun g hg => hdiffer.2.2 g hg f List.mem_cons_self

/-- Readings that differ in the last one only, which has a value for `f`. -/
theorem fillsParameter_outcomeOf {f : Field} {before : List Reading} {last : Reading}
    {values : List Checked} {typed value : Text} {l l' : Location}
    (hothers : ∀ x ∈ before.filterMap (·.parameter), Text.alike x.name f.name = false)
    (hname : ∀ x, last.parameter = some x → x.name = f.name)
    (hdescription : last.description = none)
    (hwarnings : last.warnings = values.filterMap Checked.warning ++
      f.warningsAbout d.name .valueNotAllowed type typed)
    (htexts : Field.valuesBefore typed ((last.parameter.map (·.value.texts)).getD [])
      = values.map Checked.value)
    (hholds : f.Holds type value) :
    (d.outcomeOf type before last l).FillsParameter
      (d.outcomeOf type before
        { parameter := some
            { name := f.name
              value := f.valueOf (values.map Checked.value) (f.kept value) }
          warnings := values.filterMap Checked.warning } l')
      f typed value := by
  obtain ⟨hparam, hfilter⟩ := Record.param?_of_append
    (r := (d.outcomeOf type before last l).record) rfl hothers hname
  have hearlier : (d.outcomeOf type before last l).record.earlier f.name typed
      = values.map Checked.value := by
    rw [Record.earlier, hparam, ← htexts]
    cases last.parameter <;> rfl
  exact
    { database := rfl
      typeValue := rfl
      description := by simp [outcomeOf, hdescription]
      params := by
        rw [hfilter, hearlier]
        rfl
      unflagged := congrArg Checked.warning (Field.check_of_holds hholds d.name .valueNotAllowed)
      warnings := by
        simp only [outcomeOf, hwarnings, List.append_assoc] }

/-- **Segments with another last value**: what is read of them differs in that value
only. -/
theorem readSegments_fills (haccepted : d.Accepted) (hone : ∀ f ∈ d.params, f.SeparatesByOne)
    (hc : Text.isBlank c = false) {rest : Text} {o : Outcome}
    (hend : ∀ b ∈ rest.getLast?, Text.isBlank b = false)
    (h : d.readSegments [c] type rest = .ok o) :
    ∃ f ∈ d.params, ∃ segment front,
      o.record.location = some (.parameter f.name segment) ∧ o.record.database = d.name ∧
      o.record.typeValue = type ∧
      rest = front ++ currentPiece segment f.multi ∧
      ∀ gap value, (∀ b ∈ gap, Text.isBlank b = true) → c ∉ value → value ≠ [] →
        f.Fits value → f.Holds type value → Text.alike f.name descriptionField = false →
        ∃ filled, d.readSegments [c] type (front ++ gap ++ value) = .ok filled ∧
          o.FillsParameter filled f (currentPiece segment f.multi) value := by
  obtain ⟨fs, f, more, ps, segment, hparams, hrest, hlength, _⟩ := readSegments_ends h
  have hf : f ∈ d.params := by simp [hparams]
  obtain ⟨p, hp⟩ := currentPiece_suffix segment f.multi
  have hlast : segment ∈ Text.pieces [c] rest := hrest ▸ List.mem_append_right _ (by simp)
  have hfree : c ∉ currentPiece segment f.multi := fun hmem =>
    Text.not_mem_of_mem_pieces hlast ((currentPiece_suffix segment f.multi).subset hmem)
  have hfits : f.Fits (currentPiece segment f.multi) := by
    refine Field.fits_currentPiece (hone f hf) fun b hb => hend b ?_
    obtain ⟨front, hfront⟩ := Text.getLast_pieces_suffix [c] (t := rest) (p := segment)
      (by rw [hrest, List.getLast?_append, List.getLast?_singleton]; rfl)
    rw [← hfront]
    exact List.mem_getLast?_append_of_mem_getLast? hb
  have hopens : f.Opens p := Field.opens_of_currentPiece (hone f hf) hp.symm
  obtain ⟨front, hsplit, hfront⟩ := Text.exists_front_of_pieces (hp.symm ▸ hrest)
  have hread := readSegments_append type hparams hfront hlength hfree
  rw [← hsplit, h] at hread
  obtain rfl := Except.ok.inj hread
  have hlocation : some (Location.parameter f.name (p ++ currentPiece segment f.multi))
      = some (.parameter f.name segment) := by rw [hp]
  refine ⟨f, hf, segment, front, hlocation, rfl, rfl, hsplit, ?_⟩
  intro gap value hgap hvalue hne hfitsValue hholds hd
  have hfree' : c ∉ gap ++ value := by
    rw [List.mem_append, not_or]
    exact ⟨not_mem_of_blank hc hgap, hvalue⟩
  have hread' := readSegments_append type hparams hfront hlength hfree'
  rw [← List.append_assoc, ← List.append_assoc, Field.readSegment_of_holds (hone f hf) hd hopens
    hgap hfitsValue hne hholds] at hread'
  obtain ⟨hdescription, hwarnings, htexts⟩ := Field.readSegment_of_typed d.name type
    (hone f hf) hd hopens hfits
  refine ⟨_, hread', fillsParameter_outcomeOf ?_ (fun _ => Field.name_of_readSegment) hdescription
    hwarnings htexts hholds⟩
  intro x hx
  obtain ⟨reading, hreading, hparameter⟩ := List.mem_filterMap.1 hx
  obtain ⟨g, s, hpair, rfl⟩ := mem_readings.1 hreading
  rw [Field.name_of_readSegment hparameter]
  exact haccepted.not_alike_front hparams g (List.of_mem_zip hpair).1

end Database

/-! ## Lines -/

/-- The outcome `filled` has a value for the type where `o` has what is typed of it, and
is as `o` in everything else. -/
structure Outcome.FillsType (o filled : Outcome) (f : Field) (typed value : Text) : Prop where
  database : filled.record.database = o.record.database
  typeValue : filled.record.typeValue = some (f.kept value)
  description : filled.record.description = o.record.description
  params : filled.record.params = o.record.params
  unflagged : (f.check o.record.database .unknownType none value).warning = none
  warnings : o.warnings = filled.warnings ++
    f.warningsAbout o.record.database .unknownType none typed

/-- Warnings about what stands in front belong to both outcomes. -/
theorem Outcome.FillsParameter.warn {o filled : Outcome} {f : Field} {typed value : Text}
    (h : o.FillsParameter filled f typed value) (ws : List Warning) :
    Outcome.FillsParameter { o with warnings := ws ++ o.warnings }
      { filled with warnings := ws ++ filled.warnings } f typed value :=
  { h with warnings := by rw [List.append_assoc, ← h.warnings] }

namespace Database

variable {d : Database} {c : Char} {head : Text} {type : Option Text} {trailing : Bool}

/-- A blank behind the head begins an empty segment. -/
theorem readLine_trailing (separator : Text) (hparams : d.params ≠ []) (typed : Text) :
    d.readLine separator head (some typed) none true
      = d.readLine separator head (some typed) (some []) false := by
  obtain ⟨f, more, hd⟩ := List.exists_cons_of_ne_nil hparams
  have hempty : ∀ type, f.readSegment d.name type [] = {} := fun type =>
    Field.readSegment_of_blank d.name type rfl
  simp [readLine, readSegments, headLocation, hd, Text.pieces, Text.piecesFrom, hempty,
    Except.map]

/-- **A line with another last value** differs in that value only. -/
theorem readLine_fills (haccepted : d.Accepted) (hone : ∀ f ∈ d.params, f.SeparatesByOne)
    (hc : Text.isBlank c = false) {rest : Text} {o : Outcome}
    (hend : ∀ b ∈ rest.getLast?, Text.isBlank b = false)
    (h : d.readLine [c] head type (some rest) trailing = .ok o) :
    ∃ f ∈ d.params, ∃ segment front,
      o.record.location = some (.parameter f.name segment) ∧ o.record.database = d.name ∧
      rest = front ++ currentPiece segment f.multi ∧
      ∀ gap value, (∀ b ∈ gap, Text.isBlank b = true) → c ∉ value → value ≠ [] →
        f.Fits value → f.Holds o.record.typeValue value →
        Text.alike f.name descriptionField = false →
        ∃ filled, d.readLine [c] head type (some (front ++ gap ++ value)) false = .ok filled ∧
          o.FillsParameter filled f (currentPiece segment f.multi) value := by
  obtain ⟨kept, ws, o', hsegments, rfl, hagain⟩ := readLine_some_eq_ok h
  obtain ⟨f, hf, segment, front, hlocation, hdatabase, htype, hrest, hfills⟩ :=
    readSegments_fills haccepted hone hc hend hsegments
  refine ⟨f, hf, segment, front, hlocation, hdatabase, hrest, ?_⟩
  intro gap value hgap hvalue hne hfits hholds hd
  have hholds' : f.Holds kept value := htype ▸ hholds
  obtain ⟨filled, hfilled, h⟩ := hfills gap value hgap hvalue hne hfits hholds' hd
  exact ⟨_, hagain _ filled false hfilled, h.warn ws⟩

/-- **A head with another type** differs in the type only. -/
theorem readLine_fills_type {typed : Text} {o : Outcome} (htyped : Text.Trimmed typed)
    (h : d.readLine [c] head (some typed) none trailing = .ok o) (head' : Text)
    (trailing' : Bool) {value : Text} (hne : value ≠ []) (hvalue : Text.Trimmed value)
    (hholds : d.typeField.Holds none value) :
    ∃ filled, d.readLine [c] head' (some value) none trailing' = .ok filled ∧
      o.FillsType filled d.typeField typed value := by
  obtain rfl := Except.ok.inj h
  refine ⟨_, rfl, ?_⟩
  have hcheck := Field.check_of_holds hholds d.name .unknownType
  exact
    { database := rfl
      typeValue := by simp [Text.trim_of_trimmed hvalue, Option.filter, hne, hcheck]
      description := rfl
      params := rfl
      unflagged := congrArg Checked.warning hcheck
      warnings := by
        by_cases hempty : typed = []
        · simp [Text.trim_of_trimmed hvalue, Option.filter, hne, hcheck, hempty,
            Field.warningsAbout, Text.trim_of_trimmed Text.trimmed_nil]
        · simp [Text.trim_of_trimmed hvalue, Text.trim_of_trimmed htyped, Option.filter, hne,
            hcheck, hempty, Field.warningsAbout] }

end Database

namespace Registry

variable {r : Registry} {c : Char} {body : Text} {o : Outcome}

/-- A body is what is read, with blanks behind it, and the reader is told whether there
are any. -/
theorem parse_eq_readLine (hstart : ∀ b ∈ body.head?, Text.isBlank b = false)
    (h : r.parse body = .ok o) (hplace : o.record.location ≠ none) :
    ∃ line gap d, body = line ++ gap ∧ (∀ b ∈ gap, Text.isBlank b = true) ∧
      Text.Trimmed line ∧ line ≠ [] ∧ r.database? (splitType (splitHead line).1).1 = some d ∧
      d.readLine r.splitSeparator (splitHead line).1 (splitType (splitHead line).1).2
        (splitHead line).2 (!gap.isEmpty) = .ok o := by
  obtain ⟨gap, hbody, hgap⟩ := Text.trimEnd_append body
  have hne : Text.trimEnd body ≠ [] := by
    intro hnil
    simp [parse, hnil, Text.trimStart] at h
  have htrim : Text.Trimmed (Text.trimEnd body) := by
    refine ⟨fun b hb => hstart b ?_, Text.getLast_trimEnd body⟩
    rw [hbody]
    exact List.mem_head?_append_of_mem_head? hb
  have htrailing : decide ((Text.trimEnd body).length < body.length) = !gap.isEmpty := by
    have hlength := congrArg List.length hbody
    rw [List.length_append] at hlength
    cases gap <;> simp at hlength ⊢ <;> omega
  simp only [parse, Text.trimStart_of_trimmed htrim, htrailing] at h
  rw [if_neg (by simpa using hne)] at h
  refine ⟨Text.trimEnd body, gap, ?_⟩
  split at h
  · obtain rfl := Except.ok.inj h
    exact absurd rfl hplace
  · split at h
    · cases h
    · next d hd => exact ⟨d, hbody, hgap, htrim, hne, hd, h⟩

/-- **A line that ends in a parameter** has a rest behind its head, or the blanks behind
it begin one. -/
theorem parse_parameter_cases (hstart : ∀ b ∈ body.head?, Text.isBlank b = false)
    (h : r.parse body = .ok o)
    {name segment : Text} (hplace : o.record.location = some (.parameter name segment)) :
    ∃ head blanks rest gap d, body = head ++ blanks ++ rest ++ gap ∧
      (∀ b ∈ head, Text.isBlank b = false) ∧ head ≠ [] ∧ blanks ≠ [] ∧
      (∀ b ∈ blanks, Text.isBlank b = true) ∧ (∀ b ∈ gap, Text.isBlank b = true) ∧
      Text.Trimmed rest ∧ (rest = [] → gap = []) ∧
      r.database? (splitType head).1 = some d ∧
      d.readLine r.splitSeparator head (splitType head).2 (some rest) false = .ok o := by
  obtain ⟨line, gap, d, hbody, hgap, htrim, hne, hd, hread⟩ :=
    parse_eq_readLine hstart h (by simp [hplace])
  rcases splitHead_cases line with ⟨hblank, hsplit⟩ |
    ⟨head, blanks, rest, hline, hhead, hblanksNe, hblanks, hrest, hsplit⟩
  · -- Only the blanks behind the head put the end of the line into a parameter.
    rw [hsplit] at hd hread
    have hlocation : d.headLocation line (splitType line).2 (!gap.isEmpty)
        = some (.parameter name segment) :=
      (congrArg (·.record.location) (Except.ok.inj hread)).trans hplace
    simp only [Database.headLocation] at hlocation
    split at hlocation
    · cases hlocation
    · next typed htyped =>
        split at hlocation
        · next htrailing =>
            have hgapNe : gap ≠ [] := by simpa using htrailing
            have hparams : d.params ≠ [] := by
              intro hnil
              simp [hnil] at hlocation
            refine ⟨line, gap, [], [], d, by simpa using hbody, hblank, hne, hgapNe, hgap, by simp,
              Text.trimmed_nil, fun _ => rfl, hd, ?_⟩
            rw [htyped, ← Database.readLine_trailing _ hparams, ← htyped, ← htrailing]
            exact hread
        · cases hlocation
  · rw [hsplit] at hd hread
    have hheadNe : head ≠ [] := by
      rintro rfl
      obtain ⟨b, tail, rfl⟩ := List.exists_cons_of_ne_nil hblanksNe
      have hfirst := htrim.1 b (by simp [hline])
      rw [hblanks b List.mem_cons_self] at hfirst
      cases hfirst
    have hrestNe : rest ≠ [] := by
      rintro rfl
      have hlast := htrim.2 (blanks.getLast hblanksNe)
        (by simp [hline, List.getLast?_append, List.getLast?_eq_some_getLast hblanksNe])
      rw [hblanks _ (List.getLast_mem hblanksNe)] at hlast
      cases hlast
    have htrimRest : Text.Trimmed rest := by
      refine ⟨hrest, fun b hb => htrim.2 b ?_⟩
      rw [hline]
      exact List.mem_getLast?_append_of_mem_getLast? hb
    exact ⟨head, blanks, rest, gap, d, by rw [hbody, hline], hhead, hheadNe, hblanksNe, hblanks,
      hgap, htrimRest, fun hnil => absurd hnil hrestNe, hd, hread⟩

/-- **A line that ends in the type** is a name, a slash and the type. -/
theorem parse_type_cases (hstart : ∀ b ∈ body.head?, Text.isBlank b = false)
    (h : r.parse body = .ok o) {typed : Text}
    (hplace : o.record.location = some (.type typed)) :
    ∃ name d, body = name ++ '/' :: typed ∧ (∀ b ∈ body, Text.isBlank b = false) ∧
      '/' ∉ name ∧ r.database? name = some d ∧
      d.readLine r.splitSeparator body (some typed) none false = .ok o := by
  obtain ⟨line, gap, d, hbody, hgap, htrim, hne, hd, hread⟩ :=
    parse_eq_readLine hstart h (by simp [hplace])
  rcases splitHead_cases line with ⟨hblank, hsplit⟩ | ⟨head, _, rest, _, _, _, _, _, hsplit⟩
  · rw [hsplit] at hd hread
    have hlocation : d.headLocation line (splitType line).2 (!gap.isEmpty)
        = some (.type typed) :=
      (congrArg (·.record.location) (Except.ok.inj hread)).trans hplace
    simp only [Database.headLocation] at hlocation
    split at hlocation
    · cases hlocation
    · next t ht =>
        split at hlocation
        · cases hhead : d.params.head? <;> simp [hhead] at hlocation
        · next htrailing =>
            have hgapNil : gap = [] := by simpa using htrailing
            rw [hgapNil, List.append_nil] at hbody
            obtain rfl : t = typed := by simpa using hlocation
            subst hbody
            obtain ⟨hline, hslash⟩ := splitType_eq_some ht
            rw [ht, hgapNil] at hread
            exact ⟨(splitType body).1, d, hline, hblank, hslash, hd, hread⟩
  · rw [hsplit] at hread
    obtain ⟨kept, ws, o', hsegments, rfl, _⟩ := Database.readLine_some_eq_ok hread
    obtain ⟨fs, f, more, ps, segment, _, _, _, hparameter⟩ := Database.readSegments_ends hsegments
    have hplaces := hparameter.symm.trans hplace
    simp at hplaces

/-- A head with blanks and a rest behind it is read as such. -/
theorem parse_of_parts {head blanks rest : Text} {d : Database}
    (hhead : ∀ b ∈ head, Text.isBlank b = false) (hheadNe : head ≠ []) (hblanksNe : blanks ≠ [])
    (hblanks : ∀ b ∈ blanks, Text.isBlank b = true) (hrest : Text.Trimmed rest)
    (hrestNe : rest ≠ []) (hd : r.database? (splitType head).1 = some d)
    (hentry : r.dailyEntry? (Text.trim (head ++ blanks ++ rest)) = none) :
    r.parse (head ++ blanks ++ rest)
      = d.readLine r.splitSeparator head (splitType head).2 (some rest) false := by
  have hsplit := splitHead_append_blanks hhead hblanksNe hblanks hrest.1
  have htrim : Text.Trimmed (head ++ blanks ++ rest) :=
    Text.trimmed_word_append hhead hheadNe hrest hrestNe blanks
  rw [Text.trim_of_trimmed htrim] at hentry
  rw [parse_of_trimmed htrim (by simp [hheadNe]) hentry (by rw [hsplit]; exact hd), hsplit]

/-- **A value that is filled in where a line ends in a parameter** is read there, and
everything in front of it as before. -/
theorem parse_fills_parameter (hsep : r.splitSeparator = [c]) (hc : Text.isBlank c = false)
    (haccepted : ∀ d ∈ r.databases, d.Accepted)
    (hone : ∀ d ∈ r.databases, ∀ f ∈ d.params, f.SeparatesByOne)
    (hstart : ∀ b ∈ body.head?, Text.isBlank b = false) (h : r.parse body = .ok o)
    {name segment : Text} (hplace : o.record.location = some (.parameter name segment)) :
    ∃ d f front, r.database? o.record.database = some d ∧ f ∈ d.params ∧ name = f.name ∧
      front ≠ [] ∧ front <+: body ∧
      (currentPiece segment f.multi ≠ [] →
        Text.trimEnd body = front ++ currentPiece segment f.multi) ∧
      ∀ value line, value ≠ [] → f.Fits value → c ∉ value → f.Holds o.record.typeValue value →
        Text.alike f.name descriptionField = false →
        line = (if currentPiece segment f.multi = [] then body else front) ++ value →
        r.dailyEntry? (Text.trim line) = none →
        ∃ filled, r.parse line = .ok filled ∧
          o.FillsParameter filled f (currentPiece segment f.multi) value := by
  obtain ⟨head, blanks, rest, gap, d, hbody, hhead, hheadNe, hblanksNe, hblanks, hgap, hrest,
    hgapNil, hd, hread⟩ := parse_parameter_cases hstart h hplace
  rw [hsep] at hread
  have hmem := mem_of_database? hd
  obtain ⟨f, hf, segment', front, hlocation, hdatabase, hsplit, hfills⟩ :=
    Database.readLine_fills (haccepted d hmem) (hone d hmem) hc hrest.2 hread
  rw [hplace, Option.some.injEq, Location.parameter.injEq] at hlocation
  obtain ⟨rfl, rfl⟩ := hlocation
  refine ⟨d, f, head ++ blanks ++ front, ?_, hf, rfl, by simp [hheadNe], ?_, fun htyped => ?_, ?_⟩
  · rw [hdatabase]
    exact database?_name hd (haccepted d hmem).trim_name
  · exact ⟨currentPiece segment f.multi ++ gap, by rw [hbody, hsplit]; simp⟩
  · have hrestNe : rest ≠ [] := by simp [hsplit, htyped]
    rw [hbody, Text.trimEnd_append_of_blank _ hgap,
      Text.trimEnd_append_of_trimmed (head ++ blanks) hrestNe hrest, hsplit, ← List.append_assoc]
  intro value line hne hfits hvalue hholds hdescription hline hentry
  -- What stands between the front and the value: the blanks in front of the cursor, if
  -- nothing is typed.
  obtain ⟨between, hbetween, hblank, hempty⟩ : ∃ between,
      line = head ++ blanks ++ (front ++ between ++ value) ∧
        (∀ b ∈ between, Text.isBlank b = true) ∧ (front = [] → between = []) := by
    by_cases htyped : currentPiece segment f.multi = []
    · rw [htyped, List.append_nil] at hsplit
      refine ⟨gap, ?_, hgap, fun hnil => hgapNil (hsplit.trans hnil)⟩
      rw [hline, if_pos htyped, hbody, hsplit]
      simp
    · refine ⟨[], ?_, by simp, fun _ => rfl⟩
      rw [hline, if_neg htyped]
      simp
  have htrim : Text.Trimmed (front ++ between ++ value) := by
    refine Text.trimmed_append_of_head (fun b hb => ?_) hne hfits.1
    cases front with
    | nil =>
        rw [hempty rfl] at hb
        exact hfits.1.1 b hb
    | cons first front => exact hrest.1 b (by rw [hsplit]; exact hb)
  obtain ⟨filled, hfilled, hfill⟩ :=
    hfills between value hblank hvalue hne hfits hholds hdescription
  refine ⟨filled, ?_, hfill⟩
  rw [hbetween] at hentry ⊢
  rw [parse_of_parts hhead hheadNe hblanksNe hblanks htrim (by simp [hne]) hd hentry, hsep,
    hfilled]

/-- **A value that is filled in where a line ends in the type** is read there. -/
theorem parse_fills_type (haccepted : ∀ d ∈ r.databases, d.Accepted)
    (hsep : r.splitSeparator = [c])
    (hstart : ∀ b ∈ body.head?, Text.isBlank b = false) (h : r.parse body = .ok o)
    {typed : Text} (hplace : o.record.location = some (.type typed)) :
    ∃ d front, r.database? o.record.database = some d ∧ body = front ++ typed ∧
      front ≠ [] ∧ Text.Trimmed typed ∧
      ∀ value, value ≠ [] → (∀ b ∈ value, Text.isBlank b = false) →
        d.typeField.Holds none value → r.dailyEntry? (Text.trim (front ++ value)) = none →
        ∃ filled, r.parse (front ++ value) = .ok filled ∧
          o.FillsType filled d.typeField typed value := by
  obtain ⟨name, d, hbody, hblank, hslash, hd, hread⟩ := parse_type_cases hstart h hplace
  have hmem := mem_of_database? hd
  have htyped : Text.Trimmed typed := Text.trimmed_of_no_blank fun b hb =>
    hblank b (by simp [hbody, hb])
  have hdatabase : o.record.database = d.name :=
    (congrArg (·.record.database) (Except.ok.inj hread)).symm
  have hfront : body = name ++ ['/'] ++ typed := by simp [hbody]
  refine ⟨d, name ++ ['/'], ?_, hfront, by simp, htyped, ?_⟩
  · rw [hdatabase]
    exact database?_name hd (haccepted d hmem).trim_name
  intro value hne hvalue hholds hentry
  have hline : ∀ b ∈ name ++ ['/'] ++ value, Text.isBlank b = false := by
    intro b hb
    rcases List.mem_append.1 hb with hb | hb
    · exact hblank b (hfront ▸ List.mem_append_left _ hb)
    · exact hvalue b hb
  have htrim := Text.trimmed_of_no_blank hline
  have hsplit : splitType (name ++ ['/'] ++ value) = (name, some value) := by
    rw [List.append_assoc, List.singleton_append, splitType_append hslash]
  obtain ⟨filled, hfilled, hfill⟩ := Database.readLine_fills_type htyped (hsep ▸ hread)
    (name ++ ['/'] ++ value) false hne
    (Text.trimmed_of_no_blank hvalue) hholds
  refine ⟨filled, ?_, hfill⟩
  rw [Text.trim_of_trimmed htrim] at hentry
  rw [parse_of_trimmed htrim (by simp) hentry
      (by rw [splitHead_of_no_blank hline, hsplit]; exact hd),
    splitHead_of_no_blank hline, hsplit, hsep]
  exact hfilled

end Registry

end Tagline
