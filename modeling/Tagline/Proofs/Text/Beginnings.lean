import Tagline.Proofs.Text.Plain
import Tagline.Proofs.Text.Variants
import Mathlib.Data.List.TakeWhile

/-!
# Lower-casing a beginning

What is typed of a name is a beginning of it, and both are lower-cased before they are
compared, each as a whole.  Lower-casing goes from character to character and looks around
only at a capital sigma, which is a final sigma if nothing cased follows.  So a cut of a text
is seen by one sigma at most: the last one in front of the cut, if nothing but case-ignorable
characters stands between.  If something cased stands on both sides of it, the cut turns an
inner sigma into a final one, and the lower-cased beginning is no beginning of the
lower-cased text.

* `lowerAfter_append_congr` — what follows a text matters only as far as something cased is
  met there;
* `lower_append_cases` — lower-casing goes through a cut, or the cut is seen by a sigma;
* `lower_isPrefix_iff` — when a lower-cased beginning is a beginning.
-/

namespace Tagline

namespace Text

/-- Whether the last character that is not case-ignorable is a capital sigma with something
cased in front of it, so that it ends its word if nothing cased follows. -/
def closesWithSigma (t : Text) : Bool :=
  match t.reverse.dropWhile isCaseIgnorable with
  | [] => false
  | c :: before => c == 'Σ' && meetsCased before

/-! ## What follows -/

/-- What stands behind a text matters for a search only through its answer. -/
theorem meetsCased_append_congr {rest rest' : Text} (h : meetsCased rest = meetsCased rest')
    (t : Text) : meetsCased (t ++ rest) = meetsCased (t ++ rest') := by
  induction t with
  | nil => exact h
  | cons c t ih => rw [List.cons_append, List.cons_append, meetsCased_cons, meetsCased_cons, ih]

/-- **What follows a text** matters only as far as something cased is met there. -/
theorem lowerAfter_append_congr {rest rest' : Text} (h : meetsCased rest = meetsCased rest')
    (before t : Text) :
    ∃ part, lowerAfter before (t ++ rest) = part ++ lowerAfter (t.reverse ++ before) rest ∧
      lowerAfter before (t ++ rest') = part ++ lowerAfter (t.reverse ++ before) rest' := by
  induction t generalizing before with
  | nil => exact ⟨[], rfl, rfl⟩
  | cons c t ih =>
      obtain ⟨part, hpart, hpart'⟩ := ih (c :: before)
      have hends : endsWord before (t ++ rest') = endsWord before (t ++ rest) := by
        rw [endsWord, endsWord, meetsCased_append_congr h]
      refine ⟨(if c = 'Σ' then [if endsWord before (t ++ rest) then 'ς' else 'σ']
        else lowerChar c) ++ part, ?_, ?_⟩
      · rw [List.cons_append, lowerAfter, hpart]
        simp
      · rw [List.cons_append, lowerAfter, hpart', hends]
        simp

/-- A text without a sigma does not see what follows. -/
theorem lowerAfter_append_of_no_sigma {t : Text} (h : 'Σ' ∉ t) (before rest : Text) :
    lowerAfter before (t ++ rest)
      = lowerAfter before t ++ lowerAfter (t.reverse ++ before) rest := by
  induction t generalizing before with
  | nil => rfl
  | cons c t ih =>
      rw [List.mem_cons, not_or] at h
      obtain ⟨hfirst, hlater⟩ := h
      have hne : c ≠ 'Σ' := fun heq => hfirst heq.symm
      rw [List.cons_append, lowerAfter, lowerAfter, if_neg hne, if_neg hne, ih hlater]
      simp

/-! ## Case-ignorable ends -/

/-- A search goes across characters that are ignored. -/
theorem meetsCased_of_ignorable {t : Text} (h : ∀ c ∈ t, isCaseIgnorable c = true)
    (rest : Text) : meetsCased (t ++ rest) = meetsCased rest := by
  unfold meetsCased
  rw [List.dropWhile_append_of_pos h]

/-- A capital sigma is not among them. -/
theorem no_sigma_of_ignorable {t : Text} (h : ∀ c ∈ t, isCaseIgnorable c = true) :
    'Σ' ∉ t := by
  intro hmem
  have hsigma := h 'Σ' hmem
  rw [not_isCaseIgnorable_sigma] at hsigma
  cases hsigma

/-- A text has a last character that is not case-ignorable, or none. -/
theorem exists_last_letter (t : Text) :
    (∀ c ∈ t, isCaseIgnorable c = true) ∨
      ∃ before c between, t = before ++ c :: between ∧ isCaseIgnorable c = false ∧
        ∀ d ∈ between, isCaseIgnorable d = true := by
  have hbetween : ∀ d ∈ (t.reverse.takeWhile isCaseIgnorable).reverse,
      isCaseIgnorable d = true := by
    intro d hd
    exact List.all_eq_true.1 List.all_takeWhile d (List.mem_reverse.1 hd)
  have hcut : t = (t.reverse.dropWhile isCaseIgnorable).reverse
      ++ (t.reverse.takeWhile isCaseIgnorable).reverse := by
    rw [← List.reverse_append, List.takeWhile_append_dropWhile, List.reverse_reverse]
  cases hlast : t.reverse.dropWhile isCaseIgnorable with
  | nil =>
      rw [hlast, List.reverse_nil, List.nil_append] at hcut
      rw [hcut]
      exact Or.inl hbetween
  | cons c before =>
      rw [hlast, List.reverse_cons, List.append_assoc, List.singleton_append] at hcut
      exact Or.inr ⟨_, c, _, hcut, dropWhile_head_false isCaseIgnorable hlast, hbetween⟩

/-- So they do not close with one. -/
theorem closesWithSigma_of_ignorable {t : Text} (h : ∀ c ∈ t, isCaseIgnorable c = true) :
    closesWithSigma t = false := by
  have hnone : t.reverse.dropWhile isCaseIgnorable = [] :=
    List.dropWhile_eq_nil_iff.2 fun c hc => h c (List.mem_reverse.1 hc)
  rw [closesWithSigma, hnone]

/-- The last character that is not ignored decides. -/
theorem closesWithSigma_append {between : Text} (h : ∀ d ∈ between, isCaseIgnorable d = true)
    {c : Char} (hc : isCaseIgnorable c = false) (before : Text) :
    closesWithSigma (before ++ c :: between) = (c == 'Σ' && meetsCased before.reverse) := by
  have hlast : (before ++ c :: between).reverse.dropWhile isCaseIgnorable
      = c :: before.reverse := by
    rw [List.reverse_append, List.reverse_cons, List.append_assoc,
      List.dropWhile_append_of_pos fun d hd => h d (List.mem_reverse.1 hd)]
    simp [hc]
  rw [closesWithSigma, hlast]

/-! ## Cuts -/

/-- **Lower-casing goes through a cut**, unless a sigma in front of the cut ends its word
only where the text is cut. -/
theorem lower_append_cases (front rest : Text) :
    if closesWithSigma front && meetsCased rest then ¬ lower front <+: lower (front ++ rest)
    else lower (front ++ rest) = lower front ++ lowerAfter front.reverse rest := by
  rcases exists_last_letter front with hall | ⟨before, c, between, rfl, hc, hbetween⟩
  · have hrest := lowerAfter_append_of_no_sigma (no_sigma_of_ignorable hall) [] rest
    rw [List.append_nil] at hrest
    rw [closesWithSigma_of_ignorable hall, Bool.false_and, if_neg Bool.false_ne_true]
    exact hrest
  · -- What stands in front of the last letter sees that letter on both sides of the cut.
    have hseen : meetsCased (c :: (between ++ rest)) = meetsCased (c :: between) := by
      simp [meetsCased_cons, hc]
    obtain ⟨part, hwhole, hfront⟩ := lowerAfter_append_congr hseen [] before
    rw [List.append_nil] at hwhole hfront
    rw [closesWithSigma_append hbetween hc, List.append_assoc, List.cons_append, lower, lower,
      hwhole, hfront, lowerAfter, lowerAfter,
      lowerAfter_append_of_no_sigma (no_sigma_of_ignorable hbetween)]
    have hbehind : meetsCased between = false := by
      have h := meetsCased_of_ignorable hbetween []
      rwa [List.append_nil] at h
    rw [endsWord, endsWord, meetsCased_of_ignorable hbetween rest, hbehind]
    by_cases hsigma : c = 'Σ'
    · subst hsigma
      by_cases hinner : (meetsCased before.reverse && meetsCased rest) = true
      · rw [Bool.and_eq_true] at hinner
        rw [hinner.1, hinner.2, if_pos (by rfl), List.prefix_append_right_inj]
        simp
      · have hkept : (meetsCased before.reverse && !meetsCased rest)
            = (meetsCased before.reverse && !false) := by
          cases hb : meetsCased before.reverse <;> simp_all
        rw [if_neg (by simpa using hinner), hkept]
        simp
    · rw [if_neg (by simp [hsigma])]
      simp [hsigma]

/-- **A lower-cased beginning is a beginning** of the lower-cased text exactly if the text is
not cut inside a word behind a capital sigma. -/
theorem lower_isPrefix_iff {front rest : Text} :
    lower front <+: lower (front ++ rest) ↔ (closesWithSigma front && meetsCased rest) = false := by
  have hcases := lower_append_cases front rest
  by_cases hseen : (closesWithSigma front && meetsCased rest) = true
  · rw [if_pos hseen] at hcases
    simp [hcases, hseen]
  · rw [if_neg hseen] at hcases
    rw [hcases]
    simpa using hseen

end Text

end Tagline
