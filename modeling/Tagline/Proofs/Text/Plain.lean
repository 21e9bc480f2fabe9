import Tagline.Proofs.Text.Cuts
import Tagline.Proofs.Text.Normal

/-!
# Values that normalizing changes in case only

The normal spelling of a value is compared with the value itself, ignoring case.
Normalizing changes more than case in two ways: it puts one space in the place of
several blanks and none beside a comma, and it changes letters whose upper-case form
has another lower-case form than the letter has.  A **plain** value gives no occasion
for either, so its normal spelling is alike to it.

The argument goes down the cuts of the normal spelling.  Commas, spaces and hyphens
are characters that lower-casing does not look across, so the lower-cased form of a
join is the join of the lower-cased parts.

* `lower_intercalate_map` — what is alike part by part is alike as a join;
* `lower_titleCase` — title case keeps steady letters up to case;
* `alike_normalize` — the normal spelling of a plain value is alike to it.
-/

namespace Tagline

namespace Text

/-! ## Joins -/

/-- **A map that keeps the parts up to case keeps their join up to case.** -/
theorem lower_intercalate_map {c : Char} (hc : StopsCase c) {f : Text → Text} {ps : List Text}
    (h : ∀ p ∈ ps, lower (f p) = lower p) :
    lower ([c].intercalate (ps.map f)) = lower ([c].intercalate ps) := by
  rw [lower_intercalate hc, lower_intercalate hc, List.map_map]
  congr 1
  exact List.map_congr_left h

/-- A cut and a join with a map in between that keeps the parts up to case. -/
theorem lower_join_map {c : Char} (hc : StopsCase c) {f : Text → Text} {t : Text}
    (h : ∀ p ∈ pieces [c] t, lower (f p) = lower p) :
    lower ([c].intercalate ((pieces [c] t).map f)) = lower t := by
  have hjoin : [c].intercalate (pieces [c] t) = t := intercalate_pieces (by simp) t
  have hmap := lower_intercalate_map hc h
  rwa [hjoin] at hmap

/-! ## Letters -/

/-- A character that is the same up to case in upper case, and no sigma: how a sigma
is lowered depends on what stands around it. -/
structure Steady (c : Char) : Prop where
  noSigma : c ≠ 'Σ'
  noUpperSigma : upperChar c ≠ 'Σ'
  lowerChar_upperChar : lowerChar (upperChar c) = lowerChar c

/-- Every ASCII character is steady, so an ASCII value is plain once its spaces are even. -/
theorem steady_of_ascii {c : Char} (h : c.toNat < 128) : Steady c := by
  have hall : ∀ n < 128, Char.ofNat n ≠ 'Σ' ∧ upperChar (Char.ofNat n) ≠ 'Σ' ∧
      lowerChar (upperChar (Char.ofNat n)) = lowerChar (Char.ofNat n) := by
    decide +kernel
  obtain ⟨hsigma, hupper, hlower⟩ := hall c.toNat h
  rw [Char.ofNat_toNat] at hsigma hupper hlower
  exact ⟨hsigma, hupper, hlower⟩

/-- Without a sigma, lower-casing goes character by character. -/
theorem lowerAfter_of_no_sigma {before t : Text} (h : 'Σ' ∉ t) :
    lowerAfter before t = t.flatMap lowerChar := by
  induction t generalizing before with
  | nil => rfl
  | cons c t ih =>
      simp only [List.mem_cons, not_or] at h
      obtain ⟨hfirst, hrest⟩ := h
      rw [lowerAfter, if_neg (Ne.symm hfirst), ih hrest, List.flatMap_cons]

/-- No capital sigma is left in lower case. -/
theorem sigma_not_mem_lower (t : Text) : 'Σ' ∉ lower t := by
  intro hmem
  obtain ⟨c, _, hform⟩ := mem_lowerAfter hmem
  exact (isLow_of_mem_lowerForms hform).1 rfl

/-- **Title case keeps steady letters up to case.** -/
theorem lower_titleCase {s : Text} (h : ∀ c ∈ s, Steady c) : lower (titleCase s) = lower s := by
  have hsigma : 'Σ' ∉ s := fun hmem => (h 'Σ' hmem).noSigma rfl
  cases s with
  | nil => rfl
  | cons c t =>
      have hc : Steady c := h c List.mem_cons_self
      have htitle : 'Σ' ∉ titleCase (c :: t) := by
        rw [titleCase, List.mem_cons, not_or]
        exact ⟨Ne.symm hc.noUpperSigma, sigma_not_mem_lower t⟩
      have hrest : 'Σ' ∉ t := fun hmem => hsigma (List.mem_cons_of_mem _ hmem)
      have hlower : (lower t).flatMap lowerChar = t.flatMap lowerChar :=
        calc (lower t).flatMap lowerChar
            = lower (lower t) := (lowerAfter_of_no_sigma (sigma_not_mem_lower t)).symm
          _ = lower t := lower_lower t
          _ = t.flatMap lowerChar := lowerAfter_of_no_sigma hrest
      calc lower (titleCase (c :: t))
          = (upperChar c :: lower t).flatMap lowerChar := lowerAfter_of_no_sigma htitle
        _ = lowerChar c ++ t.flatMap lowerChar := by
              rw [List.flatMap_cons, hc.lowerChar_upperChar, hlower]
        _ = lower (c :: t) := (lowerAfter_of_no_sigma hsigma).symm

/-! ## Values -/

/-- Every comma part is its words with one space between them. -/
def EvenlySpaced (t : Text) : Prop :=
  ∀ p ∈ pieces [','] t, [' '].intercalate (words p) = p

instance (t : Text) : Decidable t.EvenlySpaced :=
  inferInstanceAs (Decidable (∀ p ∈ pieces [','] t, [' '].intercalate (words p) = p))

/-- A value that is kept as it is, or has even spaces and steady letters. -/
def Plain (t : Text) : Prop :=
  isVerbatim t = true ∨ t.EvenlySpaced ∧ ∀ c ∈ t, Steady c

/-- Title case keeps a word of steady letters up to case. -/
theorem lower_titleWord {w : Text} (h : ∀ c ∈ w, Steady c) : lower (titleWord w) = lower w := by
  refine lower_join_map stopsCase_hyphen fun p hp => ?_
  exact lower_titleCase fun c hc => h c (mem_of_mem_pieces hp hc)

/-- It keeps evenly spaced words of such letters. -/
theorem lower_titlePart {p : Text} (h : ∀ c ∈ p, Steady c)
    (hspaced : [' '].intercalate (words p) = p) : lower (titlePart p) = lower p := by
  have hwords : ∀ w ∈ words p, lower (titleWord w) = lower w := by
    intro w hw
    obtain ⟨_, _, hmem⟩ := of_mem_words hw
    exact lower_titleWord fun c hc => h c (hmem c hc)
  have hmap := lower_intercalate_map stopsCase_space hwords
  rwa [hspaced] at hmap

/-- **The normal spelling of a plain value is alike to it.** -/
theorem alike_normalize {t : Text} (htrim : Trimmed t) (h : t.Plain) :
    alike (normalize t) t = true := by
  rw [alike_iff]
  by_cases hverbatim : isVerbatim t = true
  · rw [normalize_of_verbatim (by rwa [trim_of_trimmed htrim]), trim_of_trimmed htrim]
  · obtain ⟨hspaced, hsteady⟩ := h.resolve_left hverbatim
    rw [normalize_of_not_verbatim (by simpa [trim_of_trimmed htrim] using hverbatim),
      trim_of_trimmed htrim]
    refine lower_join_map stopsCase_comma fun p hp => ?_
    exact lower_titlePart (fun c hc => hsteady c (mem_of_mem_pieces hp hc)) (hspaced p hp)

end Text

end Tagline
