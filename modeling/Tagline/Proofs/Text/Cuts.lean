import Tagline.Text.Normal
import Tagline.Proofs.Text.Letters
import Tagline.Proofs.Text.Pieces

/-!
# Cutting a text in lower case

Commas, hyphens and blanks stop lower-casing, which looks at nothing behind them.  So a
text is trimmed, cut into pieces and cut into words at the same places before and after
it is lower-cased, and texts that are alike have alike parts.  Numerals go the same way:
the letter of an exponent is their only letter.

* `trim_lower`, `words_lower`, `pieces_lower` — the cuts of a text in lower case;
* `isNumeral_lower` — numerals in lower case;
* `isVerbatim_lower` — a text is kept as it is whatever the case of its letters.
-/

namespace Tagline

namespace Text

/-! ## Stops -/

/-- A mark is kept by lower-casing. -/
theorem isLow_of_isMark {c : Char} (h : isMark c = true) : IsLow c := by
  refine isLow_of_mem_lowerForms (c := c) ?_
  rw [lowerForms_of_isMark h]
  exact List.mem_cons_self

/-- No blank is cased or case-ignorable. -/
theorem blanks_uncased : ∀ n ∈ markCodes, isBlank (Char.ofNat n) = true →
    isCased (Char.ofNat n) = false ∧ isCaseIgnorable (Char.ofNat n) = false := by
  decide +kernel

/-- **Every blank is a stop**, so that words are lowered one by one. -/
theorem stopsCase_of_isBlank {c : Char} (h : isBlank c = true) : StopsCase c := by
  have hmark := isMark_of_isBlank h
  have hcase := blanks_uncased c.toNat (mem_markCodes hmark)
  rw [Char.ofNat_toNat] at hcase
  exact ⟨isLow_of_isMark hmark, (hcase h).1, (hcase h).2⟩

theorem stopsCase_space : StopsCase ' ' := stopsCase_of_isBlank (by decide)

theorem stopsCase_comma : StopsCase ',' := ⟨⟨by decide, by decide⟩, by decide, by decide⟩

/-- **A join is lower-cased part by part**, if its separator is a stop. -/
theorem lower_intercalate {c : Char} (hc : StopsCase c) (ps : List Text) :
    lower ([c].intercalate ps) = [c].intercalate (ps.map lower) := by
  induction ps with
  | nil => rfl
  | cons p ps ih =>
      cases ps with
      | nil => simp
      | cons q qs =>
          rw [List.map_cons] at ih
          rw [List.map_cons, List.map_cons, List.intercalate_cons_cons,
            List.intercalate_cons_cons, List.append_assoc, List.append_assoc,
            List.singleton_append, List.singleton_append, lower_append_stop hc, ih]

theorem lower_of_blank {t : Text} (h : ∀ c ∈ t, isBlank c = true) : lower t = t :=
  lowerAfter_of_isLow fun c hc => isLow_of_isMark (isMark_of_isBlank (h c hc))

/-- Blanks in front of a text stay there. -/
theorem lower_append_of_blank_left {lead : Text} (h : ∀ c ∈ lead, isBlank c = true) (t : Text) :
    lower (lead ++ t) = lead ++ lower t := by
  induction lead with
  | nil => rfl
  | cons c lead ih =>
      obtain ⟨hc, hlead⟩ := List.forall_mem_cons.1 h
      have hstop := lower_append_stop (stopsCase_of_isBlank hc) [] (lead ++ t)
      rw [List.cons_append, List.cons_append, ← ih hlead]
      exact hstop

/-- So do blanks behind it. -/
theorem lower_append_of_blank_right (t : Text) {tail : Text} (h : ∀ c ∈ tail, isBlank c = true) :
    lower (t ++ tail) = lower t ++ tail := by
  cases tail with
  | nil => simp
  | cons c tail =>
      obtain ⟨hc, htail⟩ := List.forall_mem_cons.1 h
      rw [lower_append_stop (stopsCase_of_isBlank hc), lower_of_blank htail]

/-! ## Cuts -/

/-- **A text is trimmed in lower case as it is as it stands.** -/
theorem trim_lower (t : Text) : trim (lower t) = lower (trim t) := by
  obtain ⟨lead, tail, heq, hlead, htail⟩ := eq_surrounded_trim t
  have halike : alike (lower (trim t)) (trim t) = true := alike_iff.2 (lower_lower _)
  have hlower : lower t = lead ++ lower (trim t) ++ tail := by
    conv_lhs => rw [heq]
    rw [lower_append_of_blank_right _ htail, lower_append_of_blank_left hlead]
  rw [hlower, trim_surrounded hlead htail (trimmed_of_alike halike (trimmed_trim t))]

/-- **A text is cut into pieces in lower case where it is cut as it stands**, if the
separator is a mark that stops lower-casing. -/
theorem pieces_lower {c : Char} (hc : StopsCase c) (hmark : isMark c = true) (t : Text) :
    pieces [c] (lower t) = (pieces [c] t).map lower := by
  have hjoin : [c].intercalate (pieces [c] t) = t := intercalate_pieces (by simp) t
  have hlower := lower_intercalate hc (pieces [c] t)
  rw [hjoin] at hlower
  rw [hlower, pieces_intercalate]
  · simpa using pieces_ne_nil [c] t
  · intro q hq
    obtain ⟨p, hp, rfl⟩ := List.mem_map.1 hq
    rw [mem_lower_iff hmark]
    exact not_mem_of_mem_pieces hp

/-- **A text is cut into words in lower case where it is cut as it stands.** -/
theorem words_lower (t : Text) : words (lower t) = (words t).map lower := by
  induction t using blank_induction with
  | part t hblank =>
      by_cases hne : t = []
      · rw [hne]
        rfl
      · have hlower : ∀ c ∈ lower t, isBlank c = false := by
          intro c hc
          by_cases hcb : isBlank c = true
          · exact hblank c ((mem_lower_iff (isMark_of_isBlank hcb)).1 hc)
          · simpa using hcb
        rw [words_of_no_blank (mt lower_eq_nil.1 hne) hlower, words_of_no_blank hne hblank]
        rfl
  | cut s c t hc ihs iht =>
      rw [lower_append_stop (stopsCase_of_isBlank hc), words_append_blank hc,
        words_append_blank hc, ihs, iht, List.map_append]

/-! ## Numerals -/

/-- The characters of which numerals are made. -/
def isNumeralChar (c : Char) : Bool :=
  isDigit c || c == '+' || c == '-' || c == '.' || c == 'e' || c == 'E'

/-- The lower-case form of a character of a numeral. -/
def lowerExponent (c : Char) : Char :=
  if c = 'E' then 'e' else c

/-- The sign is a character of numerals as well. -/
theorem isNumeralChar_of_dropSign {t : Text} (h : ∀ c ∈ dropSign t, isNumeralChar c = true) :
    ∀ c ∈ t, isNumeralChar c = true := by
  intro c hc
  unfold dropSign at h
  split at h
  · rcases List.mem_cons.1 hc with rfl | hc
    · decide
    · exact h c hc
  · rcases List.mem_cons.1 hc with rfl | hc
    · decide
    · exact h c hc
  · exact h c hc

theorem isNumeralChar_of_isDigit {c : Char} (h : isDigit c = true) : isNumeralChar c = true := by
  simp [isNumeralChar, h]

/-- An exponent is made of such characters. -/
theorem isNumeralChar_of_isExponent {t : Text} (h : isExponent t = true) :
    ∀ c ∈ t, isNumeralChar c = true := by
  cases t with
  | nil => simp
  | cons e t =>
      simp only [isExponent, Bool.and_eq_true, Bool.or_eq_true, beq_iff_eq] at h
      obtain ⟨⟨he, _⟩, hdigits⟩ := h
      have hrest : ∀ c ∈ t, isNumeralChar c = true := isNumeralChar_of_dropSign fun c hc =>
        isNumeralChar_of_isDigit (List.all_eq_true.1 hdigits c hc)
      intro c hc
      rcases List.mem_cons.1 hc with rfl | hc
      · rcases he with rfl | rfl <;> decide
      · exact hrest c hc

/-- A numeral consists of those characters. -/
theorem isNumeralChar_of_isNumeral {t : Text} (h : isNumeral t = true) :
    ∀ c ∈ t, isNumeralChar c = true := by
  unfold isNumeral at h
  simp only [Bool.and_eq_true] at h
  obtain ⟨_, hexponent⟩ := h
  refine isNumeralChar_of_dropSign fun c hc => ?_
  have hdigits : ∀ u : Text, ∀ c ∈ u.takeWhile isDigit, isNumeralChar c = true := fun u c hc =>
    isNumeralChar_of_isDigit (List.all_eq_true.1 List.all_takeWhile c hc)
  rw [← List.takeWhile_append_dropWhile (p := isDigit) (l := dropSign t), List.mem_append] at hc
  rcases hc with hc | hc
  · exact hdigits _ c hc
  · unfold fraction at hexponent
    split at hexponent
    · next rest heq =>
        rw [heq, List.mem_cons,
          ← List.takeWhile_append_dropWhile (p := isDigit) (l := rest), List.mem_append] at hc
        rcases hc with rfl | hc | hc
        · decide
        · exact hdigits _ c hc
        · exact isNumeralChar_of_isExponent hexponent c hc
    · exact isNumeralChar_of_isExponent hexponent c hc

/-- A small e in the place of a capital one is no digit either. -/
theorem isDigit_comp_lowerExponent : isDigit ∘ lowerExponent = isDigit := by
  funext c
  by_cases hc : c = 'E'
  · subst hc
    decide
  · simp [lowerExponent, hc]

/-- A character that is neither case of the exponent's letter is kept and not made. -/
theorem lowerExponent_eq_iff {c d : Char} (he : d ≠ 'e') (hE : d ≠ 'E') :
    lowerExponent c = d ↔ c = d := by
  unfold lowerExponent
  split
  · next hc =>
      subst hc
      exact ⟨fun h => absurd h.symm he, fun h => absurd h.symm hE⟩
  · exact Iff.rfl

theorem dropSign_cons (c : Char) (t : Text) :
    dropSign (c :: t) = if c = '+' ∨ c = '-' then t else c :: t := by
  unfold dropSign
  split <;> simp_all

/-- The sign comes off in either case of the exponent. -/
theorem dropSign_map (t : Text) :
    dropSign (t.map lowerExponent) = (dropSign t).map lowerExponent := by
  cases t with
  | nil => rfl
  | cons c t =>
      have hplus := lowerExponent_eq_iff (c := c) (d := '+') (by decide) (by decide)
      have hminus := lowerExponent_eq_iff (c := c) (d := '-') (by decide) (by decide)
      simp only [List.map_cons, dropSign_cons, hplus, hminus]
      split <;> rfl

/-- An exponent is one in either case. -/
theorem isExponent_map (t : Text) : isExponent (t.map lowerExponent) = isExponent t := by
  cases t with
  | nil => rfl
  | cons c t =>
      have hletter : (lowerExponent c == 'e' || lowerExponent c == 'E')
          = (c == 'e' || c == 'E') := by
        unfold lowerExponent
        split
        · next hc =>
            subst hc
            rfl
        · rfl
      rw [List.map_cons, isExponent, isExponent, hletter, dropSign_map, List.isEmpty_map,
        List.all_map, isDigit_comp_lowerExponent]

theorem fraction_cons (c : Char) (t : Text) :
    fraction (c :: t)
      = if c = '.' then (t.takeWhile isDigit, t.dropWhile isDigit) else ([], c :: t) := by
  unfold fraction
  split <;> simp_all

/-- The fraction is cut off in either case of the exponent. -/
theorem fraction_map (t : Text) :
    fraction (t.map lowerExponent)
      = ((fraction t).1.map lowerExponent, (fraction t).2.map lowerExponent) := by
  cases t with
  | nil => rfl
  | cons c t =>
      have hpoint := lowerExponent_eq_iff (c := c) (d := '.') (by decide) (by decide)
      simp only [List.map_cons, fraction_cons, hpoint, List.takeWhile_map, List.dropWhile_map,
        isDigit_comp_lowerExponent]
      split <;> rfl

/-- **A numeral is one in either case of its exponent.** -/
theorem isNumeral_map (t : Text) : isNumeral (t.map lowerExponent) = isNumeral t := by
  simp only [isNumeral, dropSign_map, List.takeWhile_map, List.dropWhile_map,
    isDigit_comp_lowerExponent, fraction_map, List.isEmpty_map, isExponent_map]

/-- A digit is a mark. -/
theorem isMark_of_isDigit {c : Char} (h : isDigit c = true) : isMark c = true := by
  simp only [isDigit, Bool.and_eq_true, decide_eq_true_eq, Char.le_def, UInt32.le_iff_toNat_le] at h
  have hlow : 0x30 ≤ c.toNat := h.1
  have hhigh : c.toNat ≤ 0x39 := h.2
  simp only [isMark, markRanges, List.any_cons, List.any_nil, Bool.or_eq_true, Bool.and_eq_true,
    decide_eq_true_eq]
  omega

/-- A character of a numeral is a mark or the letter of an exponent. -/
theorem isNumeralChar_cases {c : Char} (h : isNumeralChar c = true) :
    isMark c = true ∨ c = 'e' ∨ c = 'E' := by
  simp only [isNumeralChar, Bool.or_eq_true, beq_iff_eq] at h
  rcases h with ((((h | rfl) | rfl) | rfl) | rfl) | rfl
  · exact Or.inl (isMark_of_isDigit h)
  · exact Or.inl (by decide)
  · exact Or.inl (by decide)
  · exact Or.inl (by decide)
  · exact Or.inr (Or.inl rfl)
  · exact Or.inr (Or.inr rfl)

/-- Of the characters of numerals only the capital e is lowered. -/
theorem lower_of_isNumeralChar {t : Text} (h : ∀ c ∈ t, isNumeralChar c = true) :
    lower t = t.map lowerExponent := by
  have hchar : ∀ c, isNumeralChar c = true → c ≠ 'Σ' ∧ lowerChar c = [lowerExponent c] := by
    intro c hc
    rcases isNumeralChar_cases hc with hmark | rfl | rfl
    · have hlow := isLow_of_isMark hmark
      have hkept : lowerExponent c = c := by
        refine if_neg fun hE => ?_
        rw [hE] at hmark
        exact absurd hmark (by decide)
      rw [hkept]
      exact hlow
    · decide
    · decide
  have hgo : ∀ before, lowerAfter before t = t.map lowerExponent := by
    induction t with
    | nil => exact fun _ => rfl
    | cons c t ih =>
        intro before
        obtain ⟨hc, hrest⟩ := List.forall_mem_cons.1 h
        obtain ⟨hsigma, hlower⟩ := hchar c hc
        rw [lowerAfter, if_neg hsigma, hlower, ih hrest]
        rfl
  exact hgo []

/-- Every character of a text has a form in the lower-cased text. -/
theorem exists_form_mem_lower {c : Char} {t : Text} (h : c ∈ t) :
    ∃ d ∈ lowerForms c, d ∈ lower t := by
  obtain ⟨before, after, rfl⟩ := List.append_of_mem h
  have hgo : ∀ far, ∃ d ∈ lowerForms c, d ∈ lowerAfter far (before ++ c :: after) := by
    clear h
    induction before with
    | nil =>
        intro far
        obtain ⟨part, hne, hpart, heq⟩ := lowerAfter_cons far c after
        obtain ⟨d, hd⟩ := List.exists_mem_of_ne_nil part hne
        rw [List.nil_append, heq]
        exact ⟨d, hpart d hd, List.mem_append_left _ hd⟩
    | cons b before ih =>
        intro far
        obtain ⟨part, _, _, heq⟩ := lowerAfter_cons far b (before ++ c :: after)
        obtain ⟨d, hform, hd⟩ := ih (b :: far)
        rw [List.cons_append, heq]
        exact ⟨d, hform, List.mem_append_right _ hd⟩
  exact hgo []

/-- Only characters of numerals are lowered to such characters. -/
theorem isNumeralChar_of_mem_lowerForms {c d : Char} (hd : d ∈ lowerForms c)
    (h : isNumeralChar d = true) : isNumeralChar c = true := by
  rcases isNumeralChar_cases h with hmark | rfl | rfl
  · rwa [← eq_of_isMark_of_mem_lowerForms hd hmark]
  · unfold lowerForms at hd
    split at hd
    · exact absurd hd (by decide)
    · rcases eq_of_e_mem hd with rfl | rfl <;> decide
  · exact absurd (isLow_of_mem_lowerForms hd).2 (by decide)

/-- **A numeral is one in lower case as well**, and nothing else is. -/
theorem isNumeral_lower (t : Text) : isNumeral (lower t) = isNumeral t := by
  by_cases h : ∀ c ∈ t, isNumeralChar c = true
  · rw [lower_of_isNumeralChar h, isNumeral_map]
  · have hplain : isNumeral t = false := by
      rw [← Bool.not_eq_true]
      exact fun hnumeral => h (isNumeralChar_of_isNumeral hnumeral)
    have hlower : isNumeral (lower t) = false := by
      rw [← Bool.not_eq_true]
      intro hnumeral
      refine h fun c hc => ?_
      obtain ⟨d, hform, hd⟩ := exists_form_mem_lower hc
      exact isNumeralChar_of_mem_lowerForms hform (isNumeralChar_of_isNumeral hnumeral d hd)
    rw [hplain, hlower]

/-- **What is kept as it is is kept in lower case as well.** -/
theorem isVerbatim_lower (t : Text) : isVerbatim (lower t) = isVerbatim t := by
  rw [isVerbatim, isVerbatim, words_lower, List.length_map, isNumeral_lower]

end Text

end Tagline
