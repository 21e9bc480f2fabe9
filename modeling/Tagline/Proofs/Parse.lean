import Tagline.Parse
import Tagline.Proofs.Registry
import Tagline.Proofs.Text.Normal
import Tagline.Proofs.Text.Places
import Mathlib.Data.List.TakeWhile

/-!
# Values and segments that are read back

A checked value is a **spelling** of what is typed: trimmed, not empty, and with
no mark that was not typed.  A value that is checked without a warning is kept by
a second check: its declared spelling is found again, and its normal spelling is
a normal form.

From single values this goes up to segments.  What a segment adds to a record is
written as a segment again (`Reading.segment?`), and reading that one adds the
same.

* `Field.check_check` — a clean value is kept by its own check;
* `Field.isWritten_readSegment` — a clean segment is read back;
* `Database.readSegments_ends`, `Database.readLine_cases`, `Registry.parse_cases` — how
  segments and a line come to their record;
* `Registry.parse_of_trimmed`, `readLine_of_keepsType` — how a line in standard form
  is read.
-/

namespace Tagline

/-! ## Values -/

/-- A value that stands for a typed text: it brings in no separator. -/
structure IsSpelling (raw value : Text) : Prop where
  trimmed : Text.Trimmed value
  ne : value ≠ []
  mark : ∀ d, Text.isMark d = true → d ≠ ' ' → d ∉ raw → d ∉ value
  blank : (∀ c ∈ raw, Text.isBlank c = false) → ∀ c ∈ value, Text.isBlank c = false

/-- The normal spelling of a trimmed text is a spelling of it. -/
theorem isSpelling_normalize {raw : Text} (ht : Text.Trimmed raw) (hne : raw ≠ []) :
    IsSpelling raw (Text.normalize raw) where
  trimmed := Text.trimmed_normalize raw
  ne h := hne (by rw [← Text.trim_of_trimmed ht, Text.normalize_eq_nil_iff.1 h])
  mark _ hd hspace h := Text.not_mem_normalize hd hspace h
  blank := Text.no_blank_normalize

/-- So is every variant of it. -/
theorem isSpelling_of_alike {raw value : Text} (h : Text.alike value raw = true)
    (ht : Text.Trimmed raw) (hne : raw ≠ []) : IsSpelling raw value where
  trimmed := Text.trimmed_of_alike h ht
  ne heq := hne ((Text.eq_nil_iff_of_alike h).1 heq)
  mark _ hd _ hraw hmem := hraw ((Text.mem_iff_of_alike h hd).1 hmem)
  blank hraw c hc := by
    by_cases hblank : Text.isBlank c = true
    · exact hraw c ((Text.mem_iff_of_alike h (Text.isMark_of_isBlank hblank)).1 hc)
    · simpa using hblank

namespace Field

variable {f : Field} {database : Text} {kind : WarningKind} {type : Option Text} {raw : Text}

/-- A value of a field without a closed list takes its normal spelling. -/
theorem check_of_open (h : (!f.isFixed || (f.allowedValues type).isEmpty) = true) :
    f.check database kind type raw = { value := Text.normalize raw } := by
  simp only [check, h, if_true]

/-- A value of a closed list takes the declared spelling. -/
theorem check_of_canonical (h : (!f.isFixed || (f.allowedValues type).isEmpty) = false)
    {a : Text} (ha : f.canonical raw type = some a) :
    f.check database kind type raw = { value := a } := by
  simp only [check, h, ha, Bool.false_eq_true, if_false]

/-- A value that a closed list does not hold takes its normal spelling, with a warning. -/
theorem check_of_canonical_none (h : (!f.isFixed || (f.allowedValues type).isEmpty) = false)
    (ha : f.canonical raw type = none) :
    f.check database kind type raw =
      { value := Text.normalize raw
        warning := some
          { kind, database, field := f.name, value := Text.normalize raw
            allowed := f.allowedValues type } } := by
  simp only [check, h, ha, Bool.false_eq_true, if_false]

/-- A declared spelling is alike to what is typed. -/
theorem alike_of_canonical {a : Text} (h : f.canonical raw type = some a) :
    Text.alike a (Text.trim raw) = true := by
  unfold canonical at h
  split at h
  · simpa using List.find?_some h
  · simp at h

/-- The declared spelling is its own declared spelling. -/
theorem canonical_canonical {a : Text} (h : f.canonical raw type = some a)
    (htrim : Text.trim a = a) : f.canonical a type = some a := by
  have hlower := Text.alike_iff.1 (alike_of_canonical h)
  rw [← h]
  simp only [canonical, htrim, Text.alike, hlower]

/-- **A clean value is kept.**  Checked without a warning, it is a spelling of
what was typed, and its own check gives it again. -/
theorem check_check (ht : Text.Trimmed raw) (hne : raw ≠ [])
    (hclean : (f.check database kind type raw).warning = none) :
    IsSpelling raw (f.check database kind type raw).value ∧
      f.check database kind type (f.check database kind type raw).value
        = f.check database kind type raw := by
  by_cases hopen : (!f.isFixed || (f.allowedValues type).isEmpty) = true
  · simp only [check_of_open hopen, Text.normalize_normalize, and_true]
    exact isSpelling_normalize ht hne
  · replace hopen : (!f.isFixed || (f.allowedValues type).isEmpty) = false := by simpa using hopen
    cases ha : f.canonical raw type with
    | none =>
        rw [check_of_canonical_none hopen ha] at hclean
        cases hclean
    | some a =>
        have halike := alike_of_canonical ha
        rw [Text.trim_of_trimmed ht] at halike
        have hspelling := isSpelling_of_alike halike ht hne
        have hagain := canonical_canonical ha (Text.trim_of_trimmed hspelling.trimmed)
        rw [check_of_canonical hopen ha]
        exact ⟨hspelling, check_of_canonical hopen hagain⟩

end Field

/-! ## Segments -/

/-- A value as it is written in its segment. -/
def Value.joined (separator : Option Text) : Value → Text
  | .single t => t
  | .multi ts => (separator.getD []).intercalate ts

/-- The segment that says what a reading says, if it says anything. -/
def Reading.segment? (r : Reading) (f : Field) : Option Text :=
  match r.description with
  | some t => some t
  | none => r.parameter.map fun p => p.value.joined f.multi

namespace Field

variable {f : Field} (database : Text) (type : Option Text) {s : Text}

/-- A blank segment adds nothing. -/
theorem readSegment_of_blank (h : Text.trim s = []) : f.readSegment database type s = {} := by
  simp [readSegment, h]

/-- The segment of the free text adds its text. -/
theorem readSegment_of_description (h : Text.trim s ≠ [])
    (hd : Text.alike f.name descriptionField = true) :
    f.readSegment database type s = { description := some (Text.trim s) } := by
  simp [readSegment, h, hd]

/-- What the segment of a field with one value adds. -/
theorem readSegment_of_single (h : Text.trim s ≠ [])
    (hd : Text.alike f.name descriptionField = false) (hmulti : f.multi = none) :
    f.readSegment database type s =
      let c := f.check database .valueNotAllowed type (Text.trim s)
      { parameter := if c.value = [] then none
          else some { name := f.name, value := .single c.value }
        warnings := c.warning.toList } := by
  simp [readSegment, h, hd, hmulti, Value.isEmpty, Value.texts]

/-- What the segment of a field with several values adds. -/
theorem readSegment_of_multi (h : Text.trim s ≠ [])
    (hd : Text.alike f.name descriptionField = false) {m : Text} (hmulti : f.multi = some m) :
    f.readSegment database type s =
      let cs := (valuePieces m (Text.trim s)).map (f.check database .valueNotAllowed type)
      { parameter := if (cs.map Checked.value).all List.isEmpty then none
          else some { name := f.name, value := .multi (cs.map Checked.value) }
        warnings := cs.filterMap Checked.warning } := by
  simp only [readSegment, hd, hmulti, Value.isEmpty, Value.texts, Bool.false_eq_true, if_false]
  simp [h]

/-- **What a segment adds**: checked parts of it, or free text. -/
theorem readSegment_cases (f : Field) (s : Text) :
    ∃ raws : List Text,
      (∀ raw ∈ raws, raw <:+: s ∧ Text.Trimmed raw ∧ raw ≠ []) ∧
      (∀ p, (f.readSegment database type s).parameter = some p →
        p.value.texts = (raws.map (f.check database .valueNotAllowed type)).map Checked.value) ∧
      (∀ t, (f.readSegment database type s).description = some t → t = Text.trim s) ∧
      (f.readSegment database type s).warnings
        = (raws.map (f.check database .valueNotAllowed type)).filterMap Checked.warning := by
  by_cases hblank : Text.trim s = []
  · rw [readSegment_of_blank database type hblank]
    exact ⟨[], by simp, by simp, by simp, rfl⟩
  by_cases hd : Text.alike f.name descriptionField = true
  · rw [readSegment_of_description database type hblank hd]
    exact ⟨[], by simp, by simp, by simp, rfl⟩
  replace hd : Text.alike f.name descriptionField = false := by simpa using hd
  cases hmulti : f.multi with
  | none =>
      rw [readSegment_of_single database type hblank hd hmulti]
      refine ⟨[Text.trim s], ?_, fun p hp => ?_, by simp, ?_⟩
      · intro raw hraw
        rw [List.mem_singleton.1 hraw]
        exact ⟨Text.trim_isInfix s, Text.trimmed_trim s, hblank⟩
      · simp only [Option.ite_none_left_eq_some, Option.some.injEq] at hp
        rw [← hp.2]
        rfl
      · cases hwarning : (f.check database .valueNotAllowed type (Text.trim s)).warning <;>
          simp [hwarning]
  | some m =>
      rw [readSegment_of_multi database type hblank hd hmulti]
      refine ⟨valuePieces m (Text.trim s), ?_, fun p hp => ?_, by simp, rfl⟩
      · intro raw hraw
        obtain ⟨hpiece, hne⟩ := List.mem_filter.1 hraw
        obtain ⟨q, hq, rfl⟩ := List.mem_map.1 hpiece
        have hin : Text.trim q <:+: s :=
          ((Text.trim_isInfix q).trans (Text.infix_of_mem_pieces hq)).trans (Text.trim_isInfix s)
        exact ⟨hin, Text.trimmed_trim q, by simpa using hne⟩
      · simp only [Option.ite_none_left_eq_some, Option.some.injEq] at hp
        rw [← hp.2]
        rfl

end Field

/-- The pieces of a segment are trimmed, not empty, and made of its characters. -/
theorem of_mem_valuePieces {x : Char} {s p : Text} (hp : p ∈ valuePieces [x] s) :
    Text.Trimmed p ∧ p ≠ [] ∧ x ∉ p ∧ ∀ c ∈ p, c ∈ s := by
  obtain ⟨hmem, hne⟩ := List.mem_filter.1 hp
  obtain ⟨q, hq, rfl⟩ := List.mem_map.1 hmem
  refine ⟨Text.trimmed_trim q, by simpa using hne, fun hx => ?_, fun c hc => ?_⟩
  · exact Text.not_mem_of_mem_pieces hq (Text.mem_of_mem_trim hx)
  · exact Text.mem_of_mem_pieces hq (Text.mem_of_mem_trim hc)

/-- Values joined with their separator make a trimmed text that is cut into them. -/
theorem valuePieces_intercalate {x : Char} {vs : List Text} (hx : Text.isBlank x = false)
    (hne : vs ≠ []) (h : ∀ v ∈ vs, Text.Trimmed v ∧ v ≠ [] ∧ x ∉ v) :
    Text.Trimmed ([x].intercalate vs) ∧ [x].intercalate vs ≠ [] ∧
      valuePieces [x] ([x].intercalate vs) = vs := by
  refine ⟨Text.trimmed_intercalate (fun v hv => (h v hv).1) (Or.inl hx), fun heq => ?_, ?_⟩
  · rcases Text.intercalate_eq_nil heq with hnil | hone
    · exact hne hnil
    · exact (h [] (by simp [hone])).2.1 rfl
  · have htrim : vs.map Text.trim = vs := by
      conv_rhs => rw [← List.map_id vs]
      exact List.map_congr_left fun v hv => Text.trim_of_trimmed (h v hv).1
    have hall : vs.filter (fun p => !p.isEmpty) = vs :=
      List.filter_eq_self.2 fun v hv => by simpa using (h v hv).2.1
    rw [valuePieces, Text.pieces_intercalate hne fun v hv => (h v hv).2.2, htrim, hall]

/-- A mark that is no blank, so that no trimming and no change of case moves it. -/
def IsSeparator (c : Char) : Prop :=
  Text.isMark c = true ∧ Text.isBlank c = false

/-- A space is no separator. -/
theorem IsSeparator.ne_space {c : Char} (h : IsSeparator c) : c ≠ ' ' := by
  rintro rfl
  exact absurd h.2 (by decide)

/-- A spelling holds no separator that is not typed. -/
theorem IsSpelling.not_mem {raw value : Text} (h : IsSpelling raw value) {c : Char}
    (hc : IsSeparator c) (hraw : c ∉ raw) : c ∉ value :=
  h.mark c hc.1 hc.ne_space hraw

/-- What the reading of a segment says is written as a segment without the
separator `c` that is read in the same way. -/
def Reading.IsWritten (r : Reading) (f : Field) (database : Text) (type : Option Text)
    (c : Char) : Prop :=
  match r.segment? f with
  | none => r = {}
  | some u => Text.Trimmed u ∧ u ≠ [] ∧ c ∉ u ∧ f.readSegment database type u = r

namespace Field

variable {f : Field} {database : Text} {type : Option Text} {s : Text} {c : Char}

/-- A single value is read back from the segment in which it is written. -/
theorem isWritten_of_single (hc : IsSeparator c) (h : Text.trim s ≠ [])
    (hd : Text.alike f.name descriptionField = false) (hmulti : f.multi = none) (hs : c ∉ s)
    (hclean : (f.readSegment database type s).warnings = []) :
    (f.readSegment database type s).IsWritten f database type c := by
  have hread := readSegment_of_single database type h hd hmulti
  rw [hread] at hclean ⊢
  obtain ⟨hspelling, hkeep⟩ := check_check (Text.trimmed_trim s) h
    (Option.toList_eq_nil_iff.1 hclean)
  have htrim := Text.trim_of_trimmed hspelling.trimmed
  have hagain := readSegment_of_single database type
    (s := (f.check database .valueNotAllowed type (Text.trim s)).value)
    (htrim.symm ▸ hspelling.ne) hd hmulti
  simp only [Reading.IsWritten, Reading.segment?, if_neg hspelling.ne, Option.map_some,
    Value.joined]
  refine ⟨hspelling.trimmed, hspelling.ne, hspelling.not_mem hc fun hmem => ?_, ?_⟩
  · exact hs (Text.mem_of_mem_trim hmem)
  · simp only [hagain, htrim, hkeep, if_neg hspelling.ne]

/-- The checked pieces of a clean segment. -/
theorem of_mem_checked {x : Char} (hx : IsSeparator x) {t : Text}
    (hclean : ((valuePieces [x] t).map (f.check database .valueNotAllowed type)).filterMap
      Checked.warning = [])
    {k : Checked}
    (hk : k ∈ (valuePieces [x] t).map (f.check database .valueNotAllowed type)) :
    Text.Trimmed k.value ∧ k.value ≠ [] ∧ x ∉ k.value ∧
      (∀ c, IsSeparator c → c ∉ t → c ∉ k.value) ∧
      f.check database .valueNotAllowed type k.value = k := by
  have hwarning := List.filterMap_eq_nil_iff.1 hclean k hk
  obtain ⟨p, hp, rfl⟩ := List.mem_map.1 hk
  obtain ⟨htrim, hne, hnot, hmem⟩ := of_mem_valuePieces hp
  obtain ⟨hspelling, hkeep⟩ := check_check htrim hne hwarning
  refine ⟨hspelling.trimmed, hspelling.ne, hspelling.not_mem hx hnot, fun c hc ht => ?_, hkeep⟩
  exact hspelling.not_mem hc fun hcp => ht (hmem c hcp)

/-- A separator that the segment does not hold is not in the join of its values. -/
theorem not_mem_joined {x : Char} (hc : IsSeparator c) (hx : IsSeparator x) {t : Text}
    (ht : c ∉ t)
    (hclean : ((valuePieces [x] t).map (f.check database .valueNotAllowed type)).filterMap
      Checked.warning = []) :
    c ∉ [x].intercalate
      (((valuePieces [x] t).map (f.check database .valueNotAllowed type)).map Checked.value) := by
  intro hmem
  have hvalue : ∀ v ∈ ((valuePieces [x] t).map
      (f.check database .valueNotAllowed type)).map Checked.value, c ∉ v := by
    intro v hv
    obtain ⟨k, hk, rfl⟩ := List.mem_map.1 hv
    exact (of_mem_checked hx hclean hk).2.2.2.1 c hc ht
  rcases Text.mem_intercalate hmem with rfl | ⟨v, hv, hcv⟩
  · -- Without its separator the segment is one piece, and nothing is joined.
    have hone : valuePieces [c] t = [] ∨ valuePieces [c] t = [Text.trim t] := by
      rw [valuePieces, Text.pieces_of_not_mem ht]
      by_cases hblank : Text.trim t = []
      · simp [hblank]
      · simp [hblank]
    rcases hone with hnil | hone
    · simp [hnil] at hmem
    · rw [hone] at hmem hvalue
      exact hvalue _ List.mem_cons_self (by simpa using hmem)
  · exact hvalue v hv hcv

/-- So are several values from theirs, joined with their separator. -/
theorem isWritten_of_multi (hc : IsSeparator c) (h : Text.trim s ≠ [])
    (hd : Text.alike f.name descriptionField = false) {x : Char} (hx : IsSeparator x)
    (hmulti : f.multi = some [x]) (hs : c ∉ s)
    (hclean : (f.readSegment database type s).warnings = []) :
    (f.readSegment database type s).IsWritten f database type c := by
  have hread := readSegment_of_multi database type h hd hmulti
  rw [hread] at hclean ⊢
  simp only at hclean ⊢
  have hst : c ∉ Text.trim s := fun hmem => hs (Text.mem_of_mem_trim hmem)
  have hchecked := fun k => of_mem_checked (k := k) hx hclean
  have hjoined := not_mem_joined hc hx hst hclean
  by_cases hnone : valuePieces [x] (Text.trim s) = []
  · simp [Reading.IsWritten, Reading.segment?, hnone]
  generalize hcs : (valuePieces [x] (Text.trim s)).map
    (f.check database .valueNotAllowed type) = cs at hclean hchecked hjoined
  have hvs : ∀ v ∈ cs.map Checked.value, Text.Trimmed v ∧ v ≠ [] ∧ x ∉ v := by
    intro v hv
    obtain ⟨k, hk, rfl⟩ := List.mem_map.1 hv
    obtain ⟨htrim, hne, hnot, _⟩ := hchecked k hk
    exact ⟨htrim, hne, hnot⟩
  have hne : cs.map Checked.value ≠ [] := fun h0 =>
    hnone (List.map_eq_nil_iff.1 (hcs.trans (List.map_eq_nil_iff.1 h0)))
  have hsome : (cs.map Checked.value).all List.isEmpty = false := by
    obtain ⟨v, vs, heq⟩ := List.exists_cons_of_ne_nil hne
    have hv := (hvs v (heq ▸ List.mem_cons_self)).2.1
    simp [heq, hv]
  obtain ⟨htrimmed, hjoin, hpieces⟩ := valuePieces_intercalate hx.2 hne hvs
  have hkeep : (cs.map Checked.value).map (f.check database .valueNotAllowed type) = cs := by
    conv_rhs => rw [← List.map_id cs]
    rw [List.map_map]
    exact List.map_congr_left fun k hk => (hchecked k hk).2.2.2.2
  have hagain := readSegment_of_multi database type
    (s := [x].intercalate (cs.map Checked.value))
    ((Text.trim_of_trimmed htrimmed).symm ▸ hjoin) hd hmulti
  rw [Text.trim_of_trimmed htrimmed, hpieces, hkeep] at hagain
  simp only [Reading.IsWritten, Reading.segment?, hsome, Bool.false_eq_true, if_false,
    Option.map_some, Value.joined, hmulti, Option.getD_some]
  exact ⟨htrimmed, hjoin, hjoined, by simpa only [hsome, Bool.false_eq_true, if_false] using hagain⟩

/-- **A clean segment is read back** from what its reading says. -/
theorem isWritten_readSegment (hc : IsSeparator c)
    (hmulti : ∀ m, f.multi = some m → ∃ x, m = [x] ∧ IsSeparator x) (hs : c ∉ s)
    (hclean : (f.readSegment database type s).warnings = []) :
    (f.readSegment database type s).IsWritten f database type c := by
  by_cases h : Text.trim s = []
  · rw [readSegment_of_blank database type h]
    simp [Reading.IsWritten, Reading.segment?]
  by_cases hd : Text.alike f.name descriptionField = true
  · have htrim := Text.trimmed_trim s
    have hagain := readSegment_of_description database type
      (s := Text.trim s) ((Text.trim_of_trimmed htrim).symm ▸ h) hd
    rw [Text.trim_of_trimmed htrim] at hagain
    rw [readSegment_of_description database type h hd]
    exact ⟨htrim, h, fun hmem => hs (Text.mem_of_mem_trim hmem), hagain⟩
  replace hd : Text.alike f.name descriptionField = false := by simpa using hd
  cases hm : f.multi with
  | none => exact isWritten_of_single hc h hd hm hs hclean
  | some m =>
      obtain ⟨x, rfl, hx⟩ := hmulti m hm
      exact isWritten_of_multi hc h hd hx hm hs hclean

/-- Only the free text goes to the description, and nothing else of it is kept. -/
theorem readSegment_description_cases (f : Field) (database : Text) (type : Option Text)
    (s : Text) :
    (Text.alike f.name descriptionField = true ∧
        (f.readSegment database type s).parameter = none ∧
        ((f.readSegment database type s).description = none →
          f.readSegment database type s = {})) ∨
      (Text.alike f.name descriptionField = false ∧
        (f.readSegment database type s).description = none) := by
  by_cases hd : Text.alike f.name descriptionField = true
  · left
    by_cases h : Text.trim s = []
    · simp [hd, readSegment_of_blank database type h]
    · simp [hd, readSegment_of_description database type h hd]
  · right
    by_cases h : Text.trim s = []
    · simp [hd, readSegment_of_blank database type h]
    · simp [hd, readSegment, h]

/-- What a segment adds under a name, it adds under the name of its field. -/
theorem name_of_readSegment {x : Parameter}
    (h : (f.readSegment database type s).parameter = some x) : x.name = f.name := by
  unfold readSegment at h
  simp only at h
  split at h
  · simp at h
  · split at h
    · simp at h
    · simp only [Option.ite_none_left_eq_some, Option.some.injEq] at h
      rw [← h.2]

end Field

/-! ## Lines -/

namespace Text

theorem cutAt_of_not_mem {c : Char} {t : Text} (h : c ∉ t) : cutAt c t = none := by
  induction t with
  | nil => rfl
  | cons d t ih =>
      simp only [List.mem_cons, not_or] at h
      simp [cutAt, Ne.symm h.1, ih h.2]

/-- A text is cut where the character stands for the first time. -/
theorem cutAt_append {c : Char} {t u : Text} (h : c ∉ t) : cutAt c (t ++ c :: u) = some (t, u) := by
  induction t with
  | nil => simp [cutAt]
  | cons d t ih =>
      simp only [List.mem_cons, not_or] at h
      simp [cutAt, Ne.symm h.1, ih h.2]

end Text

theorem splitType_of_not_mem {name : Text} (h : '/' ∉ name) : splitType name = (name, none) := by
  simp [splitType, Text.cutAt_of_not_mem h]

/-- A head with a slash is a name and a type. -/
theorem splitType_append {name type : Text} (h : '/' ∉ name) :
    splitType (name ++ '/' :: type) = (name, some type) := by
  simp [splitType, Text.cutAt_append h]

/-- A head with a type is a name without a slash, a slash and the type. -/
theorem splitType_eq_some {head type : Text} (h : (splitType head).2 = some type) :
    head = (splitType head).1 ++ '/' :: type ∧ '/' ∉ (splitType head).1 := by
  unfold splitType at h ⊢
  split at h
  · next name found hcut =>
      obtain rfl := Option.some.inj h
      simpa [hcut] using Text.cutAt_eq_some hcut
  · cases h

/-- A head ends with the type behind its slash. -/
theorem splitType_suffix {head type : Text} (h : (splitType head).2 = some type) :
    type <:+ head :=
  ⟨(splitType head).1 ++ ['/'], by
    conv_rhs => rw [(splitType_eq_some h).1]
    simp⟩

/-- The type of a head is a part of the head. -/
theorem mem_of_splitType {head type : Text} (h : (splitType head).2 = some type) :
    ∀ c ∈ type, c ∈ head :=
  fun _ hc => (splitType_suffix h).subset hc

/-- A line without a blank is all head. -/
theorem splitHead_of_no_blank {head : Text} (h : ∀ c ∈ head, Text.isBlank c = false) :
    splitHead head = (head, none) := by
  have htake : head.takeWhile (fun c => !Text.isBlank c) = head :=
    List.takeWhile_eq_self_iff.2 fun c hc => by simp [h c hc]
  have hdrop : head.dropWhile (fun c => !Text.isBlank c) = [] :=
    List.dropWhile_eq_nil_iff.2 fun c hc => by simp [h c hc]
  simp [splitHead, htake, hdrop]

/-- A head with blanks and a rest behind it is taken apart. -/
theorem splitHead_append_blanks {head blanks rest : Text}
    (hhead : ∀ b ∈ head, Text.isBlank b = false) (hne : blanks ≠ [])
    (hblanks : ∀ b ∈ blanks, Text.isBlank b = true)
    (hrest : ∀ b ∈ rest.head?, Text.isBlank b = false) :
    splitHead (head ++ blanks ++ rest) = (head, some rest) := by
  obtain ⟨b, tail, rfl⟩ := List.exists_cons_of_ne_nil hne
  have hb : Text.isBlank b = true := hblanks b List.mem_cons_self
  have htake : (head ++ (b :: tail) ++ rest).takeWhile (fun c => !Text.isBlank c) = head := by
    rw [List.append_assoc, List.takeWhile_append_of_pos fun c hc => by simp [hhead c hc]]
    simp [hb]
  have hdrop : (head ++ (b :: tail) ++ rest).dropWhile (fun c => !Text.isBlank c)
      = b :: (tail ++ rest) := by
    rw [List.append_assoc, List.dropWhile_append_of_pos fun c hc => by simp [hhead c hc]]
    simp [hb]
  have hstart : Text.trimStart (b :: (tail ++ rest)) = rest := by
    rw [← List.cons_append, Text.trimStart_append_of_blank hblanks]
    exact Text.dropWhile_of_head hrest
  simp only [splitHead, htake, hdrop, hstart]

/-- A head and a body with a space between them are taken apart. -/
theorem splitHead_append {head body : Text} (h : ∀ c ∈ head, Text.isBlank c = false)
    (hbody : Text.Trimmed body) : splitHead (head ++ ' ' :: body) = (head, some body) := by
  have hspace : ∀ b ∈ [' '], Text.isBlank b = true := fun b hb => by
    obtain rfl := List.mem_singleton.1 hb
    rfl
  have hsplit := splitHead_append_blanks h (List.cons_ne_nil ' ' []) hspace hbody.1
  rwa [List.append_assoc, List.singleton_append] at hsplit

/-- A line is its head alone, or a head with blanks and a rest behind it. -/
theorem splitHead_cases (line : Text) :
    ((∀ b ∈ line, Text.isBlank b = false) ∧ splitHead line = (line, none)) ∨
      ∃ head blanks rest, line = head ++ blanks ++ rest ∧
        (∀ b ∈ head, Text.isBlank b = false) ∧ blanks ≠ [] ∧
        (∀ b ∈ blanks, Text.isBlank b = true) ∧ (∀ b ∈ rest.head?, Text.isBlank b = false) ∧
        splitHead line = (head, some rest) := by
  have hline := List.takeWhile_append_dropWhile (p := fun c => !Text.isBlank c) (l := line)
  have hhead : ∀ b ∈ line.takeWhile fun c => !Text.isBlank c, Text.isBlank b = false := by
    intro b hb
    simpa using List.all_eq_true.1 List.all_takeWhile b hb
  cases htail : line.dropWhile fun c => !Text.isBlank c with
  | nil =>
      rw [htail, List.append_nil] at hline
      rw [hline] at hhead
      exact Or.inl ⟨hhead, splitHead_of_no_blank hhead⟩
  | cons b tail =>
      have hb : Text.isBlank b = true := by
        simpa using Text.dropWhile_head_false _ htail
      obtain ⟨blanks, htrim, hblanks⟩ := Text.trimStart_append (b :: tail)
      refine Or.inr ⟨_, blanks, Text.trimStart (b :: tail), ?_, hhead, ?_, hblanks, ?_, ?_⟩
      · rw [List.append_assoc, ← htrim, ← htail, hline]
      · rintro rfl
        have hstart : Text.trimStart (b :: tail) = Text.trimStart tail :=
          List.dropWhile_cons_of_pos hb
        have hlength := congrArg List.length htrim
        rw [List.nil_append, hstart] at hlength
        have hle := (Text.trimStart_suffix tail).length_le
        simp at hlength
        omega
      · intro b' hb'
        obtain ⟨rest, hrest⟩ := List.head?_eq_some_iff.1 hb'
        exact Text.dropWhile_head_false Text.isBlank hrest
      · simp [splitHead, htail]

/-- A line ends with what follows its head, and is its head if nothing does. -/
theorem splitHead_suffix (line : Text) :
    ((splitHead line).2 = none ∧ (splitHead line).1 = line) ∨
      ∃ rest, (splitHead line).2 = some rest ∧ rest <:+ line := by
  rcases splitHead_cases line with ⟨_, hsplit⟩ | ⟨head, blanks, rest, hline, _, _, _, _, hsplit⟩
  · exact Or.inl (by simp [hsplit])
  · exact Or.inr ⟨rest, by rw [hsplit], head ++ blanks, hline.symm⟩

theorem splitHead_fst (line : Text) :
    (splitHead line).1 = line.takeWhile fun c => !Text.isBlank c := by
  unfold splitHead
  dsimp only
  split <;> rfl

theorem no_blank_of_splitHead (line : Text) :
    ∀ c ∈ (splitHead line).1, Text.isBlank c = false := by
  intro c hc
  rw [splitHead_fst] at hc
  simpa using List.all_eq_true.1 List.all_takeWhile c hc

namespace Registry

/-- **How a line comes to its record**: it is a daily entry, or its head names a
database that reads the rest. -/
theorem parse_cases {r : Registry} {line : Text} {o : Outcome} (h : r.parse line = .ok o) :
    (o.record.daily = true ∧ o.warnings = []) ∨
      ∃ (trailing : Bool) (d : Database),
        r.database? (splitType (splitHead (Text.trim line)).1).1 = some d ∧
          d.readLine r.splitSeparator (splitHead (Text.trim line)).1
            (splitType (splitHead (Text.trim line)).1).2 (splitHead (Text.trim line)).2 trailing
            = .ok o := by
  unfold parse at h
  simp only at h
  split at h
  · simp at h
  · split at h
    · obtain rfl := Except.ok.inj h
      exact Or.inl ⟨rfl, rfl⟩
    · split at h
      · simp at h
      · next d hd => exact Or.inr ⟨_, d, hd, h⟩

/-- The parts of a line that is no daily entry. -/
theorem parse_eq_ok {r : Registry} {line : Text} {o : Outcome} (h : r.parse line = .ok o)
    (hdaily : o.record.daily = false) :
    ∃ (head : Text) (rest : Option Text) (trailing : Bool) (d : Database),
      (∀ c ∈ head, Text.isBlank c = false) ∧ r.database? (splitType head).1 = some d ∧
        d.readLine r.splitSeparator head (splitType head).2 rest trailing = .ok o := by
  rcases parse_cases h with ⟨hentry, _⟩ | ⟨trailing, d, hd, hread⟩
  · rw [hdaily] at hentry
    cases hentry
  · exact ⟨_, _, trailing, d, no_blank_of_splitHead _, hd, hread⟩

/-- How a trimmed line that is no daily entry is read. -/
theorem parse_of_trimmed {r : Registry} {line : Text} {d : Database} (ht : Text.Trimmed line)
    (hne : line ≠ []) (hdaily : r.dailyEntry? line = none)
    (hd : r.database? (splitType (splitHead line).1).1 = some d) :
    r.parse line = d.readLine r.splitSeparator (splitHead line).1
      (splitType (splitHead line).1).2 (splitHead line).2 false := by
  simp [parse, Text.trimEnd_of_trimmed ht, Text.trimStart_of_trimmed ht, hne, hdaily, hd]

end Registry

/-! ## Segments -/

/-- What segments add, each for its own field. -/
def readings (database : Text) (type : Option Text) (fs : List Field) (segments : List Text) :
    List Reading :=
  (fs.zip segments).map fun (f, segment) => f.readSegment database type segment

/-- The first segment belongs to the first field. -/
theorem readings_cons {database : Text} {type : Option Text} {fs : List Field}
    {segments : List Text} (f : Field) (segment : Text) :
    readings database type (f :: fs) (segment :: segments)
      = f.readSegment database type segment :: readings database type fs segments := rfl

/-- A reading comes from a segment and the field in its place. -/
theorem mem_readings {database : Text} {type : Option Text} {fs : List Field}
    {segments : List Text} {reading : Reading} :
    reading ∈ readings database type fs segments ↔
      ∃ f segment, (f, segment) ∈ fs.zip segments ∧
        f.readSegment database type segment = reading := by
  simp only [readings, List.mem_map, Prod.exists]

namespace Database

variable {d : Database} {separator head : Text} {type rest : Option Text} {trailing : Bool}

/-- A type that its own check gives back, without a warning. -/
def KeepsType (d : Database) (t : Text) : Prop :=
  t ≠ [] ∧ (∀ c ∈ t, Text.isBlank c = false) ∧
    d.typeField.check d.name .unknownType none t = { value := t }

/-- A type that is checked without a warning is kept. -/
theorem keepsType_check {raw : Text} (hne : Text.trim raw ≠ [])
    (hblank : ∀ c ∈ raw, Text.isBlank c = false)
    (hclean : (d.typeField.check d.name .unknownType none (Text.trim raw)).warning = none) :
    d.KeepsType (d.typeField.check d.name .unknownType none (Text.trim raw)).value := by
  obtain ⟨hspelling, hkeep⟩ := Field.check_check (Text.trimmed_trim raw) hne hclean
  refine ⟨hspelling.ne, hspelling.blank fun c hc => hblank c (Text.mem_of_mem_trim hc), ?_⟩
  rw [hkeep]
  generalize d.typeField.check d.name .unknownType none (Text.trim raw) = k at hclean
  obtain ⟨value, warning⟩ := k
  obtain rfl : warning = none := hclean
  rfl

/-- A line with segments is no daily entry, and they do not decide on its database and type. -/
theorem readSegments_head {body : Text} {o : Outcome}
    (h : d.readSegments separator type body = .ok o) :
    o.record.database = d.name ∧ o.record.typeValue = type ∧ o.record.daily = false := by
  unfold readSegments at h
  simp only at h
  split at h
  · simp at h
  · obtain rfl := Except.ok.inj h
    exact ⟨rfl, rfl, rfl⟩

/-- **What segments are read to** is what their readings add. -/
theorem readSegments_eq_ok {body : Text} {o : Outcome}
    (h : d.readSegments separator type body = .ok o) :
    o.record.params = (readings d.name type d.params (Text.pieces separator body)).filterMap
        (·.parameter) ∧
      o.record.description = (readings d.name type d.params (Text.pieces separator body)).filterMap
        (·.description) ∧
      o.warnings = (readings d.name type d.params (Text.pieces separator body)).flatMap
        (·.warnings) := by
  unfold readSegments at h
  dsimp only at h
  split at h
  · cases h
  · obtain rfl := Except.ok.inj h
    exact ⟨rfl, rfl, rfl⟩

/-- **Where segments end**: in the last one, with as many parameters in front of it as
segments. -/
theorem readSegments_ends {body : Text} {o : Outcome}
    (h : d.readSegments separator type body = .ok o) :
    ∃ fs f more ps segment, d.params = fs ++ f :: more ∧
      Text.pieces separator body = ps ++ [segment] ∧ fs.length = ps.length ∧
      o.record.location = some (.parameter f.name segment) := by
  obtain ⟨ps, segment, hpieces⟩ := Text.pieces_eq_concat separator body
  unfold readSegments at h
  simp only [hpieces] at h
  split at h
  · cases h
  · next hfew =>
      obtain rfl := Except.ok.inj h
      rw [List.length_append, List.length_singleton] at hfew
      have hlt : ps.length < d.params.length := by omega
      obtain ⟨fs, f, more, hparams, hlength⟩ :
          ∃ fs f more, d.params = fs ++ f :: more ∧ fs.length = ps.length := by
        refine ⟨d.params.take ps.length, d.params[ps.length], d.params.drop (ps.length + 1), ?_, ?_⟩
        · rw [← List.drop_eq_getElem_cons hlt, List.take_append_drop]
        · rw [List.length_take]
          omega
      refine ⟨fs, f, more, ps, segment, hparams, hpieces, hlength, ?_⟩
      simp [hparams, List.zip_append hlength]

/-- **A line with segments** is read as its segments are, with the warning about its type
in front; and so is the line with any other segments. -/
theorem readLine_some_eq_ok {body : Text} {o : Outcome}
    (h : d.readLine separator head type (some body) trailing = .ok o) :
    ∃ value ws o', d.readSegments separator value body = .ok o' ∧
      o = { o' with warnings := ws ++ o'.warnings } ∧
      ∀ other filled again, d.readSegments separator value other = .ok filled →
        d.readLine separator head type (some other) again
          = .ok { filled with warnings := ws ++ filled.warnings } := by
  unfold readLine at h
  generalize hchecked : ((type.map Text.trim).filter fun t => !t.isEmpty).map
    (d.typeField.check d.name .unknownType none) = checked at h
  cases hsegments : d.readSegments separator (checked.map (·.value)) body with
  | error e => simp [hsegments, Except.map] at h
  | ok o' =>
      simp only [hsegments, Except.map, Except.ok.injEq] at h
      refine ⟨_, _, o', hsegments, h.symm, fun other filled again hfilled => ?_⟩
      simp only [readLine, hchecked, hfilled, Except.map]

/-- **What a line is made of**: a type that is checked, and segments that are read for
the checked type. -/
theorem readLine_cases {o : Outcome}
    (h : d.readLine separator head type rest trailing = .ok o) :
    ∃ checked : Option Checked,
      (∀ k, checked = some k → ∃ t, type = some t ∧ Text.trim t ≠ [] ∧
        k = d.typeField.check d.name .unknownType none (Text.trim t)) ∧
      o.record.database = d.name ∧ o.record.typeValue = checked.map (·.value) ∧
      ((rest = none ∧ o.record.params = [] ∧ o.record.description = [] ∧
          o.warnings = (checked.bind (·.warning)).toList) ∨
        ∃ body segments, rest = some body ∧
          d.readSegments separator o.record.typeValue body = .ok segments ∧
          o.record.params = segments.record.params ∧
          o.record.description = segments.record.description ∧
          o.warnings = (checked.bind (·.warning)).toList ++ segments.warnings) := by
  unfold readLine at h
  generalize hchecked : ((type.map Text.trim).filter fun t => !t.isEmpty).map
    (d.typeField.check d.name .unknownType none) = checked at h
  have htype : ∀ k, checked = some k → ∃ t, type = some t ∧ Text.trim t ≠ [] ∧
      k = d.typeField.check d.name .unknownType none (Text.trim t) := by
    rintro k rfl
    obtain ⟨t, ht, rfl⟩ := Option.map_eq_some_iff.1 hchecked
    obtain ⟨hmap, hne⟩ := Option.filter_eq_some_iff.1 ht
    obtain ⟨raw, hraw, rfl⟩ := Option.map_eq_some_iff.1 hmap
    exact ⟨raw, hraw, by simpa using hne, rfl⟩
  cases rest with
  | none =>
      obtain rfl := Except.ok.inj h
      exact ⟨checked, htype, rfl, rfl, Or.inl ⟨rfl, rfl, rfl, rfl⟩⟩
  | some body =>
      cases hseg : d.readSegments separator (checked.map (·.value)) body with
      | error e => simp [hseg, Except.map] at h
      | ok segments =>
          simp only [hseg, Except.map, Except.ok.injEq] at h
          subst h
          obtain ⟨hdatabase, hvalue, _⟩ := readSegments_head hseg
          refine ⟨checked, htype, hdatabase, hvalue,
            Or.inr ⟨body, segments, rfl, ?_, rfl, rfl, rfl⟩⟩
          rw [hvalue]
          exact hseg

/-- **What a clean line is made of.**  Its type is kept by its check, and the rest
is read as segments. -/
theorem readLine_eq_ok {o : Outcome}
    (h : d.readLine separator head type rest trailing = .ok o) (hclean : o.warnings = [])
    (htype : ∀ t, type = some t → ∀ c ∈ t, Text.isBlank c = false) :
    o.record.database = d.name ∧ (∀ t, o.record.typeValue = some t → d.KeepsType t) ∧
      ((o.record.params = [] ∧ o.record.description = []) ∨
        ∃ body o', d.readSegments separator o.record.typeValue body = .ok o' ∧
          o'.warnings = [] ∧ o'.record.params = o.record.params ∧
          o'.record.description = o.record.description) := by
  obtain ⟨checked, hchecked, hdatabase, hvalue, hrest⟩ := readLine_cases h
  have hkept : (checked.bind (·.warning)).toList = [] →
      ∀ t, o.record.typeValue = some t → d.KeepsType t := by
    intro hnone t ht
    rw [hvalue] at ht
    obtain ⟨k, rfl, rfl⟩ := Option.map_eq_some_iff.1 ht
    obtain ⟨raw, hraw, hne, rfl⟩ := hchecked k rfl
    exact keepsType_check hne (htype raw hraw) (by simpa using hnone)
  rcases hrest with ⟨_, hparams, hdescription, hwarnings⟩ |
    ⟨body, segments, _, hseg, hparams, hdescription, hwarnings⟩
  · exact ⟨hdatabase, hkept (hwarnings ▸ hclean), Or.inl ⟨hparams, hdescription⟩⟩
  · obtain ⟨hhead, hsegments⟩ := List.append_eq_nil_iff.1 (hwarnings ▸ hclean)
    exact ⟨hdatabase, hkept hhead,
      Or.inr ⟨body, segments, hseg, hsegments, hparams.symm, hdescription.symm⟩⟩

/-- How a line with a kept type is read. -/
theorem readLine_of_keepsType (htype : ∀ t, type = some t → d.KeepsType t) :
    d.readLine separator head type rest trailing =
      match rest with
      | none =>
          .ok
            { record :=
                { database := d.name
                  typeValue := type
                  location := d.headLocation head type trailing } }
      | some rest => d.readSegments separator type rest := by
  have hchecked : ((type.map Text.trim).filter fun t => !t.isEmpty).map
      (d.typeField.check d.name .unknownType none) = type.map fun t => { value := t } := by
    cases type with
    | none => rfl
    | some t =>
        obtain ⟨hne, hblank, hcheck⟩ := htype t rfl
        simp [Text.trim_of_trimmed (Text.trimmed_of_no_blank hblank), hne, hcheck]
  have hvalue : (type.map fun t => ({ value := t } : Checked)).map (·.value) = type := by
    rw [Option.map_map]
    exact Option.map_id'
  have hwarning : (type.map fun t => ({ value := t } : Checked)).bind (·.warning) = none := by
    cases type <;> rfl
  unfold readLine
  rw [hchecked]
  simp only [hvalue, hwarning, Option.toList_none, List.nil_append]
  cases rest with
  | none => rfl
  | some body =>
      dsimp only
      cases d.readSegments separator type body <;> rfl

end Database

end Tagline
