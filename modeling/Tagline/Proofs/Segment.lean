import Tagline.Proofs.Suggestion

/-!
# Segments with another last value

A segment ends in a value, which is its last piece if the field may have several.  What
stands in front of it **opens** it: nothing but blanks stands between the value and the
separator before it.  So the pieces in front are the same whatever the value is, and
with them all that is read from them.  A value that a closed list **holds** in this very
spelling is read as it stands, and an open field takes its normal spelling, both without
a warning.

* `Field.readSegment_of_other` — a segment adds what is checked of its values;
* `Field.rawValues_append` — the values of a segment with another last value;
* `Field.opens_of_currentPiece` — what is typed of a value is opened by the rest;
* `Field.readSegment_of_holds`, `Field.readSegment_of_typed` — what the segment adds with
  a held value, and with what is typed of it.
-/

namespace Tagline

/-! ## Values -/

theorem not_mem_of_blank {x : Char} (hx : Text.isBlank x = false) {t : Text}
    (h : ∀ c ∈ t, Text.isBlank c = true) : x ∉ t := fun hmem => by
  rw [h x hmem] at hx
  cases hx

/-- Blanks around a segment do not count for the values in it. -/
theorem valuePieces_append_of_blank {x : Char} (hx : Text.isBlank x = false) {lead tail : Text}
    (hlead : ∀ c ∈ lead, Text.isBlank c = true) (htail : ∀ c ∈ tail, Text.isBlank c = true)
    (t : Text) : valuePieces [x] (lead ++ t ++ tail) = valuePieces [x] t := by
  have hfront : ∀ t, valuePieces [x] (lead ++ t) = valuePieces [x] t := by
    intro t
    obtain ⟨p, ps, hpieces⟩ := List.exists_cons_of_ne_nil (Text.pieces_ne_nil [x] t)
    have htrim : Text.trim (lead ++ p) = Text.trim p := by
      have h : Text.trim (lead ++ p ++ []) = Text.trim p :=
        Text.trim_append_of_blank hlead (by simp) p
      rwa [List.append_nil] at h
    simp only [valuePieces, Text.pieces_append_left hpieces (not_mem_of_blank hx hlead), hpieces,
      List.map_cons, htrim]
  have hback : ∀ t, valuePieces [x] (t ++ tail) = valuePieces [x] t := by
    intro t
    obtain ⟨ps, p, hpieces⟩ := Text.pieces_eq_concat [x] t
    have htrim : Text.trim (p ++ tail) = Text.trim p :=
      Text.trim_append_of_blank (fun _ h => absurd h List.not_mem_nil) htail p
    simp only [valuePieces, Text.pieces_append hpieces (not_mem_of_blank hx htail), hpieces,
      List.map_append, List.map_cons, htrim]
  rw [hback, hfront]

theorem valuePieces_trim {x : Char} (hx : Text.isBlank x = false) (t : Text) :
    valuePieces [x] (Text.trim t) = valuePieces [x] t := by
  obtain ⟨lead, tail, heq, hlead, htail⟩ := Text.eq_surrounded_trim t
  conv_rhs => rw [heq]
  rw [valuePieces_append_of_blank hx hlead htail]

namespace Field

variable {f : Field} {database : Text} {type : Option Text} {raw : Text}

/-- The spelling in which a field keeps a value that it offers. -/
def kept (f : Field) (value : Text) : Text :=
  if f.isFixed then value else Text.normalize value

/-- A value that a closed list holds, before all others that are alike to it. -/
def Holds (f : Field) (type : Option Text) (value : Text) : Prop :=
  f.isFixed = true → f.canonical value type = some value

/-- **A held value is kept without a warning.** -/
theorem check_of_holds (h : f.Holds type raw) (database : Text) (kind : WarningKind) :
    f.check database kind type raw = { value := f.kept raw } := by
  by_cases hfixed : f.isFixed = true
  · have hcanonical := h hfixed
    have hlist : (f.allowedValues type).isEmpty = false := by
      cases hvalues : f.allowedValues type with
      | nil => simp [canonical, hvalues] at hcanonical
      | cons a as => rfl
    rw [check_of_canonical (by simp [hfixed, hlist]) hcanonical, kept,
      if_pos hfixed]
  · rw [check_of_open (by simp [hfixed]), kept, if_neg hfixed]

/-- What a value is kept as is a spelling of it, with a warning or without. -/
theorem isSpelling_check (ht : Text.Trimmed raw) (hne : raw ≠ []) (database : Text)
    (kind : WarningKind) (type : Option Text) :
    IsSpelling raw (f.check database kind type raw).value := by
  by_cases hopen : (!f.isFixed || (f.allowedValues type).isEmpty) = true
  · rw [check_of_open hopen]
    exact isSpelling_normalize ht hne
  · replace hopen : (!f.isFixed || (f.allowedValues type).isEmpty) = false := by simpa using hopen
    cases ha : f.canonical raw type with
    | none =>
        rw [check_of_canonical_none hopen ha]
        exact isSpelling_normalize ht hne
    | some a =>
        have halike := alike_of_canonical ha
        rw [Text.trim_of_trimmed ht] at halike
        rw [check_of_canonical hopen ha]
        exact isSpelling_of_alike halike ht hne

/-! ## Segments -/

/-- The values that stand in a segment, before they are checked. -/
def rawValues (f : Field) (segment : Text) : List Text :=
  match f.multi with
  | some separator => valuePieces separator segment
  | none => [Text.trim segment].filter fun t => !t.isEmpty

/-- The value of a field that has `earlier` values in front of the last one. -/
def valueOf (f : Field) (earlier : List Text) (last : Text) : Value :=
  match f.multi with
  | some _ => .multi (earlier ++ [last])
  | none => .single last

/-- The separator between the values of a field is a single character and not blank. -/
def SeparatesByOne (f : Field) : Prop :=
  ∀ m, f.multi = some m → ∃ x, m = [x] ∧ Text.isBlank x = false

/-- The values in a segment are trimmed and not empty, whatever separates them. -/
theorem of_mem_rawValues {segment : Text} (h : raw ∈ f.rawValues segment) :
    Text.Trimmed raw ∧ raw ≠ [] := by
  unfold rawValues at h
  split at h
  · obtain ⟨hmem, hne⟩ := List.mem_filter.1 h
    obtain ⟨piece, _, rfl⟩ := List.mem_map.1 hmem
    exact ⟨Text.trimmed_trim piece, by simpa using hne⟩
  · obtain ⟨hmem, hne⟩ := List.mem_filter.1 h
    rw [List.mem_singleton.1 hmem] at hne ⊢
    exact ⟨Text.trimmed_trim segment, by simpa using hne⟩

theorem rawValues_nil (f : Field) : f.rawValues [] = [] := by
  unfold rawValues
  cases f.multi <;> rfl

/-- A segment of a field with one value holds one or none. -/
theorem length_rawValues_le (hmulti : f.multi = none) (segment : Text) :
    (f.rawValues segment).length ≤ 1 := by
  simp only [rawValues, hmulti]
  exact List.length_filter_le (fun t : Text => !t.isEmpty) [Text.trim segment]

/-- A field with one value reads no value in front of the last one. -/
theorem eq_nil_of_rawValues_concat (hmulti : f.multi = none) {segment : Text} {raws : List Text}
    (h : f.rawValues segment = raws ++ [raw]) : raws = [] := by
  have hle := length_rawValues_le hmulti segment
  rw [h, List.length_append, List.length_singleton] at hle
  exact List.length_eq_zero_iff.1 (by omega)

/-- What is checked of the values in a segment. -/
def checkedValues (f : Field) (database : Text) (type : Option Text) (segment : Text) :
    List Checked :=
  (f.rawValues segment).map (f.check database .valueNotAllowed type)

/-- The values that a field keeps are not empty. -/
theorem ne_nil_of_mem_checkedValues {segment : Text} {k : Checked}
    (h : k ∈ f.checkedValues database type segment) : k.value ≠ [] := by
  obtain ⟨raw, hraw, rfl⟩ := List.mem_map.1 h
  obtain ⟨htrim, hne⟩ := of_mem_rawValues hraw
  exact (isSpelling_check htrim hne database .valueNotAllowed type).ne

/-- The value that a field has from some values that were checked. -/
def valueFrom? (f : Field) : List Text → Option Value
  | [] => none
  | value :: values => some (if f.isMulti then .multi (value :: values) else .single value)

/-- **What a segment adds**, unless it is free text: the values in it as they are checked,
and their warnings. -/
theorem readSegment_of_other (hd : Text.alike f.name descriptionField = false)
    (segment : Text) :
    f.readSegment database type segment =
      let checked := f.checkedValues database type (Text.trim segment)
      { parameter := (f.valueFrom? (checked.map Checked.value)).map fun value =>
          { name := f.name, value }
        warnings := checked.filterMap Checked.warning } := by
  by_cases hblank : Text.trim segment = []
  · rw [readSegment_of_blank database type hblank, hblank, checkedValues, rawValues_nil]
    rfl
  have hkept : ∀ k ∈ f.checkedValues database type (Text.trim segment), k.value ≠ [] :=
    fun k hk => ne_nil_of_mem_checkedValues hk
  cases hm : f.multi with
  | none =>
      have hagain := Text.trim_of_trimmed (Text.trimmed_trim segment)
      have hone : f.checkedValues database type (Text.trim segment)
          = [f.check database .valueNotAllowed type (Text.trim segment)] := by
        simp [checkedValues, rawValues, hm, hagain, hblank]
      rw [hone] at hkept ⊢
      rw [readSegment_of_single database type hblank hd hm]
      cases hw : (f.check database .valueNotAllowed type (Text.trim segment)).warning <;>
        simp [valueFrom?, isMulti, hm, hw, hkept _ List.mem_cons_self]
  | some m =>
      have hpieces : (valuePieces m (Text.trim segment)).map
          (f.check database .valueNotAllowed type)
            = f.checkedValues database type (Text.trim segment) := by
        simp [checkedValues, rawValues, hm]
      rw [readSegment_of_multi database type hblank hd hm, hpieces]
      cases hchecked : f.checkedValues database type (Text.trim segment) with
      | nil => rfl
      | cons k ks =>
          have hk := hkept k (hchecked ▸ List.mem_cons_self)
          simp [valueFrom?, isMulti, hm, hk]

/-- **The value that a field has from a segment** holds what is checked of the values in
it, and is a list exactly if the field may have several. -/
theorem eq_of_valueFrom? {segment : Text} {v : Value}
    (h : f.valueFrom? ((f.checkedValues database type segment).map Checked.value) = some v) :
    v.texts = (f.checkedValues database type segment).map Checked.value ∧
      ((∃ ts, v = .multi ts) ↔ f.isMulti = true) := by
  cases hvalues : (f.checkedValues database type segment).map Checked.value with
  | nil =>
      rw [hvalues] at h
      cases h
  | cons value values =>
      rw [hvalues] at h
      obtain rfl := Option.some.inj h
      cases hm : f.multi with
      | some m => simp [isMulti, hm, Value.texts]
      | none =>
          -- Without a separator there is one value.
          have hlength := congrArg List.length hvalues
          have hle := length_rawValues_le hm segment
          rw [checkedValues, List.length_map, List.length_map, List.length_cons] at hlength
          obtain rfl : values = [] := List.length_eq_zero_iff.1 (by omega)
          simp [isMulti, hm, Value.texts]

/-- Blanks around a segment do not count for its values, if the separator is not blank. -/
theorem rawValues_trim (hone : f.SeparatesByOne) (segment : Text) :
    f.rawValues (Text.trim segment) = f.rawValues segment := by
  unfold rawValues
  cases hm : f.multi with
  | none => simp [Text.trim_of_trimmed (Text.trimmed_trim segment)]
  | some m =>
      obtain ⟨x, rfl, hx⟩ := hone m hm
      exact valuePieces_trim hx segment

/-- What a segment adds, for a separator that no trimming takes away. -/
theorem readSegment_of_separatesByOne (hone : f.SeparatesByOne)
    (hd : Text.alike f.name descriptionField = false) (segment : Text) :
    f.readSegment database type segment =
      let checked := f.checkedValues database type segment
      { parameter := (f.valueFrom? (checked.map Checked.value)).map fun value =>
          { name := f.name, value }
        warnings := checked.filterMap Checked.warning } := by
  rw [readSegment_of_other hd, checkedValues, rawValues_trim hone]
  rfl

/-- **What a segment with values adds**: the values in front of the last one, and the
last one. -/
theorem readSegment_of_rawValues_concat (hone : f.SeparatesByOne)
    (hd : Text.alike f.name descriptionField = false) {segment : Text} {raws : List Text}
    (h : f.rawValues segment = raws ++ [raw]) :
    f.readSegment database type segment =
      let check := f.check database .valueNotAllowed type
      { parameter := some
          { name := f.name
            value := f.valueOf ((raws.map check).map Checked.value) (check raw).value }
        warnings := (raws.map check).filterMap Checked.warning ++ (check raw).warning.toList } := by
  have hlast : ∀ k : Checked, [k].filterMap Checked.warning = k.warning.toList := by
    rintro ⟨_, _ | _⟩ <;> rfl
  rw [readSegment_of_separatesByOne hone hd, checkedValues, h]
  simp only [List.map_append, List.map_cons, List.map_nil, List.filterMap_append, hlast]
  cases hm : f.multi with
  | none =>
      obtain rfl := eq_nil_of_rawValues_concat hm h
      simp [valueFrom?, valueOf, isMulti, hm]
  | some m => cases raws <;> simp [valueFrom?, valueOf, isMulti, hm]

/-! ## The value in which a segment ends -/

/-- A text that stands in front of a value in a segment: nothing but blanks stands
between the value and the separator before it. -/
def Opens (f : Field) (front : Text) : Prop :=
  match f.multi with
  | some m => ∃ ps p, Text.pieces m front = ps ++ [p] ∧ ∀ c ∈ p, Text.isBlank c = true
  | none => ∀ c ∈ front, Text.isBlank c = true

/-- A value that can stand in a segment: it is trimmed and does not hold the separator
between values. -/
def Fits (f : Field) (value : Text) : Prop :=
  Text.Trimmed value ∧ ∀ m, f.multi = some m → ∀ c ∈ m, c ∉ value

/-- **The values of a segment with another last value** are the same in front of it. -/
theorem rawValues_append (hone : f.SeparatesByOne) {front gap value : Text}
    (hfront : f.Opens front) (hgap : ∀ c ∈ gap, Text.isBlank c = true) (hfits : f.Fits value) :
    f.rawValues (front ++ gap ++ value)
      = f.rawValues front ++ [value].filter fun t => !t.isEmpty := by
  unfold Opens at hfront
  obtain ⟨htrim, hfree⟩ := hfits
  unfold rawValues
  split at hfront
  · next m hm =>
      obtain ⟨x, rfl, hx⟩ := hone m hm
      obtain ⟨ps, p, hpieces, hblank⟩ := hfront
      have hnot : x ∉ gap ++ value := by
        rw [List.mem_append, not_or]
        exact ⟨not_mem_of_blank hx hgap, hfree [x] hm x List.mem_cons_self⟩
      have hlast : Text.trim (p ++ (gap ++ value)) = value := by
        rw [← List.append_assoc]
        refine Text.trim_append_of_trimmed ?_ htrim
        simpa [or_imp, forall_and] using And.intro hblank hgap
      simp only [valuePieces, List.append_assoc, Text.pieces_append hpieces hnot, hpieces,
        List.map_append, List.map_cons, List.map_nil, hlast, Text.trim_of_blank hblank,
        List.filter_append]
      simp
  · next hm =>
      have hlast : Text.trim (front ++ gap ++ value) = value := by
        refine Text.trim_append_of_trimmed ?_ htrim
        simpa [or_imp, forall_and] using And.intro hfront hgap
      rw [hlast, Text.trim_of_blank hfront]
      rfl

/-- What is typed of a value does not hold the separator between values. -/
theorem not_mem_currentPiece {x : Char} (hm : f.multi = some [x]) (segment : Text) :
    x ∉ currentPiece segment f.multi := by
  obtain ⟨ps, p, hpieces⟩ := Text.pieces_eq_concat [x] segment
  have hcurrent : currentPiece segment f.multi = Text.trimStart p := by
    rw [hm]
    exact congrArg Text.trimStart (Text.getD_afterLast? hpieces)
  rw [hcurrent]
  exact fun hmem => Text.not_mem_of_mem_pieces (hpieces ▸ List.mem_append_right _ (by simp))
    ((List.dropWhile_sublist _).subset hmem)

/-- What is typed of a value fits, if the segment does not end in a blank. -/
theorem fits_currentPiece (hone : f.SeparatesByOne) {segment : Text}
    (hend : ∀ c ∈ segment.getLast?, Text.isBlank c = false) :
    f.Fits (currentPiece segment f.multi) := by
  refine ⟨⟨fun c hc => ?_, fun c hc => ?_⟩, fun m hm c hc => ?_⟩
  · unfold currentPiece at hc
    obtain ⟨rest, hrest⟩ := List.head?_eq_some_iff.1 hc
    exact Text.dropWhile_head_false Text.isBlank hrest
  · refine hend c ?_
    obtain ⟨front, hfront⟩ := currentPiece_suffix segment f.multi
    rw [← hfront]
    exact List.mem_getLast?_append_of_mem_getLast? hc
  · obtain ⟨x, rfl, _⟩ := hone m hm
    rw [List.mem_singleton.1 hc]
    exact not_mem_currentPiece hm segment

/-- What stands in front of what is typed of a value opens it. -/
theorem opens_of_currentPiece (hone : f.SeparatesByOne) {segment front : Text}
    (h : segment = front ++ currentPiece segment f.multi) : f.Opens front := by
  unfold Opens
  split
  · next m hm =>
      obtain ⟨x, rfl, hx⟩ := hone m hm
      obtain ⟨ps, p, hpieces⟩ := Text.pieces_eq_concat [x] segment
      obtain ⟨qs, q, hfront⟩ := Text.pieces_eq_concat [x] front
      obtain ⟨lead, hlead, hblank⟩ := Text.trimStart_append p
      have hcurrent : currentPiece segment f.multi = Text.trimStart p := by
        rw [hm]
        exact congrArg Text.trimStart (Text.getD_afterLast? hpieces)
      have hjoined := Text.pieces_append hfront (not_mem_currentPiece hm segment)
      rw [← h, hpieces, hcurrent] at hjoined
      obtain ⟨_, hlast⟩ := List.append_inj' hjoined rfl
      have heq : lead = q :=
        List.append_cancel_right (hlead.symm.trans (List.cons.inj hlast).1)
      exact ⟨qs, q, hfront, heq ▸ hblank⟩
  · next hm =>
      rw [hm] at h
      obtain ⟨lead, hlead, hblank⟩ := Text.trimStart_append segment
      have heq : front = lead := List.append_cancel_right (h.symm.trans hlead)
      rw [heq]
      exact hblank

variable {database : Text}

/-- The warnings about what is typed of a value. -/
def warningsAbout (f : Field) (database : Text) (kind : WarningKind) (type : Option Text)
    (typed : Text) : List Warning :=
  if typed.isEmpty then [] else (f.check database kind type typed).warning.toList

/-- Of the values that are read, those in front of the one of which `typed` is typed. -/
def valuesBefore (typed : Text) (texts : List Text) : List Text :=
  if typed.isEmpty then texts else texts.dropLast

/-- **What a segment adds that ends in a held value.** -/
theorem readSegment_of_holds (hone : f.SeparatesByOne)
    (hd : Text.alike f.name descriptionField = false) {front gap value : Text}
    (hfront : f.Opens front) (hgap : ∀ c ∈ gap, Text.isBlank c = true) (hfits : f.Fits value)
    (hne : value ≠ []) (hholds : f.Holds type value) :
    f.readSegment database type (front ++ gap ++ value) =
      { parameter := some
          { name := f.name
            value := f.valueOf ((f.checkedValues database type front).map Checked.value)
              (f.kept value) }
        warnings := (f.checkedValues database type front).filterMap Checked.warning } := by
  have hraws : f.rawValues (front ++ gap ++ value) = f.rawValues front ++ [value] := by
    rw [rawValues_append hone hfront hgap hfits]
    simp [hne]
  rw [readSegment_of_rawValues_concat hone hd hraws]
  simp [checkedValues, check_of_holds hholds]

/-- **What a segment adds**: the values that are checked in it, and their warnings. -/
theorem readSegment_eq_checkedValues (database : Text) (type : Option Text)
    (hone : f.SeparatesByOne) (hd : Text.alike f.name descriptionField = false) (segment : Text) :
    (f.readSegment database type segment).description = none ∧
      (f.readSegment database type segment).warnings
        = (f.checkedValues database type segment).filterMap Checked.warning ∧
      ((f.readSegment database type segment).parameter.map (·.value.texts)).getD []
        = (f.checkedValues database type segment).map Checked.value := by
  rw [readSegment_of_separatesByOne hone hd]
  refine ⟨rfl, rfl, ?_⟩
  cases hvalue : f.valueFrom? ((f.checkedValues database type segment).map Checked.value) with
  | some v => simpa [hvalue] using (eq_of_valueFrom? hvalue).1
  | none =>
      cases hchecked : f.checkedValues database type segment with
      | nil => rfl
      | cons k ks => simp [hchecked, valueFrom?] at hvalue

/-- **What a segment adds as it is typed**: the same values in front, and what is typed
of the last one if anything is. -/
theorem readSegment_of_typed (database : Text) (type : Option Text) (hone : f.SeparatesByOne)
    (hd : Text.alike f.name descriptionField = false) {front typed : Text}
    (hfront : f.Opens front) (hfits : f.Fits typed) :
    (f.readSegment database type (front ++ typed)).description = none ∧
      (f.readSegment database type (front ++ typed)).warnings
        = (f.checkedValues database type front).filterMap Checked.warning ++
          f.warningsAbout database .valueNotAllowed type typed ∧
      valuesBefore typed (((f.readSegment database type (front ++ typed)).parameter.map
          (·.value.texts)).getD [])
        = (f.checkedValues database type front).map Checked.value := by
  obtain ⟨hdescription, hwarnings, htexts⟩ :=
    readSegment_eq_checkedValues database type hone hd (front ++ typed)
  have hraws : f.rawValues (front ++ [] ++ typed)
      = f.rawValues front ++ [typed].filter fun t => !t.isEmpty :=
    rawValues_append hone hfront (by simp) hfits
  rw [List.append_nil] at hraws
  refine ⟨hdescription, ?_, ?_⟩
  · rw [hwarnings, checkedValues, hraws, checkedValues]
    by_cases htyped : typed = []
    · simp [warningsAbout, htyped]
    · cases hw : (f.check database .valueNotAllowed type typed).warning <;>
        simp [warningsAbout, htyped, hw]
  · rw [htexts, checkedValues, hraws, checkedValues]
    by_cases htyped : typed = []
    · simp [valuesBefore, htyped]
    · simp [valuesBefore, htyped]

end Field

end Tagline
