import Tagline.Proofs.Text.Cuts
import Tagline.Proofs.Text.Normal

/-!
# The normal spellings of variants

Two texts that differ only in case are cut at the same places, and their segments differ
only in case as well.  Title case puts the first character of a segment into upper case
and lower-cases the rest **on its own**.  Up to case that changes nothing, with one
exception: a capital sigma that stands next to the first letter and ends its word is a
final sigma in the segment and an inner one in the rest, where no letter stands in front
of it any more.  A segment with such a sigma **turns**; its variant that is typed with a
small final sigma does not turn, and their title cases are no variants of each other.

* `lowerAfter_cases` — what stands in front of a text decides on one sigma at most;
* `alike_titleCase_iff` — title case keeps variants together if both or neither turn;
* `Settles.join` — and so does every cut that is mapped and closed again;
* `alike_normalize_iff` — normal spellings of variants are variants exactly if the same
  segments of both turn.
-/

namespace Tagline

namespace Text

/-! ## What stands in front -/

/-- Whether the first character that is not case-ignorable is a capital sigma with
nothing cased behind it, so that it ends a word if something cased stands in front. -/
def opensWithSigma (t : Text) : Bool :=
  match t.dropWhile isCaseIgnorable with
  | [] => false
  | c :: rest => c == 'Σ' && !meetsCased rest

/-- A character that is case-ignorable is looked across, and any other decides. -/
theorem meetsCased_cons (c : Char) (t : Text) :
    meetsCased (c :: t) = if isCaseIgnorable c then meetsCased t else isCased c := by
  unfold meetsCased
  by_cases hc : isCaseIgnorable c = true <;> simp [hc]

theorem opensWithSigma_cons (c : Char) (t : Text) :
    opensWithSigma (c :: t)
      = if isCaseIgnorable c then opensWithSigma t else c == 'Σ' && !meetsCased t := by
  unfold opensWithSigma
  by_cases hc : isCaseIgnorable c = true <;> simp [hc]

/-- What stands in front matters only as far as something cased is met there. -/
theorem lowerAfter_congr {before before' : Text} (h : meetsCased before = meetsCased before')
    (t : Text) : lowerAfter before t = lowerAfter before' t := by
  induction t generalizing before before' with
  | nil => rfl
  | cons c t ih =>
      have hnext : meetsCased (c :: before) = meetsCased (c :: before') := by
        rw [meetsCased_cons, meetsCased_cons, h]
      rw [lowerAfter, lowerAfter, endsWord, endsWord, h, ih hnext]

/-- A capital sigma is not looked across. -/
theorem not_isCaseIgnorable_sigma : isCaseIgnorable 'Σ' = false := by
  decide +kernel

/-- A lower-cased text with its first final sigma turned into an inner one. -/
def demote (t : Text) : Text :=
  t.takeWhile (· != 'ς') ++
    match t.dropWhile (· != 'ς') with
    | [] => []
    | _ :: rest => 'σ' :: rest

/-- The first final sigma becomes a small one, and the rest stays. -/
theorem demote_append {u : Text} (h : 'ς' ∉ u) (v : Text) :
    demote (u ++ 'ς' :: v) = u ++ 'σ' :: v := by
  have hu : ∀ c ∈ u, (c != 'ς') = true := by
    intro c hc
    simp only [bne_iff_ne]
    rintro rfl
    exact h hc
  unfold demote
  rw [List.takeWhile_append_of_pos hu, List.dropWhile_append_of_pos hu]
  simp

/-- So a text with a final sigma is not what it becomes. -/
theorem demote_ne {u v : Text} (h : 'ς' ∉ u) : demote (u ++ 'ς' :: v) ≠ u ++ 'ς' :: v := by
  rw [demote_append h]
  intro heq
  have htail := List.append_cancel_left heq
  simp at htail

/-- **What stands in front of a text decides on one sigma at most.**  If something cased
stands there and the text opens with a sigma, this is the first final sigma of the
lower-cased text, and an inner one if the text stands alone. -/
theorem lowerAfter_cases (before far t : Text) (hfar : meetsCased far = false) :
    if meetsCased before && opensWithSigma t then
      ∃ u v, 'ς' ∉ u ∧ lowerAfter before t = u ++ 'ς' :: v ∧ lowerAfter far t = u ++ 'σ' :: v
    else lowerAfter far t = lowerAfter before t := by
  induction t generalizing before far with
  | nil => simp [opensWithSigma, lowerAfter]
  | cons c t ih =>
      by_cases hignore : isCaseIgnorable c = true
      · -- The character is passed over, in front and behind.
        have hsigma : c ≠ 'Σ' := by
          rintro rfl
          rw [not_isCaseIgnorable_sigma] at hignore
          cases hignore
        have hih := ih (c :: before) (c :: far) (by rwa [meetsCased_cons, if_pos hignore])
        rw [meetsCased_cons, if_pos hignore] at hih
        rw [opensWithSigma_cons, if_pos hignore]
        simp only [lowerAfter, if_neg hsigma]
        split at hih
        · next hturns =>
            rw [if_pos hturns]
            obtain ⟨u, v, hu, hbefore, halone⟩ := hih
            refine ⟨lowerChar c ++ u, v, ?_, ?_, ?_⟩
            · rw [List.mem_append, not_or]
              refine ⟨fun hmem => ?_, hu⟩
              rw [eq_of_finalSigma_mem hmem] at hignore
              exact absurd hignore (by decide +kernel)
            · rw [hbefore, List.append_assoc]
            · rw [halone, List.append_assoc]
        · next hturns => rw [if_neg hturns, hih]
      · -- What follows sees this character only.
        have htail : lowerAfter (c :: far) t = lowerAfter (c :: before) t := by
          refine lowerAfter_congr ?_ t
          rw [meetsCased_cons, meetsCased_cons, if_neg hignore, if_neg hignore]
        rw [opensWithSigma_cons, if_neg hignore]
        by_cases hsigma : c = 'Σ'
        · subst hsigma
          simp only [lowerAfter, if_true, endsWord, hfar, Bool.false_and, htail, beq_self_eq_true,
            Bool.true_and]
          by_cases hends : (meetsCased before && !meetsCased t) = true
          · simp only [hends, if_true]
            exact ⟨[], _, by simp, rfl, rfl⟩
          · simp [hends]
        · simp [lowerAfter, hsigma, htail]

/-! ## Segments -/

/-- Whether the sigma next to the first letter of a segment ends its word only because
of that letter. -/
def turns : Text → Bool
  | [] => false
  | c :: t => meetsCased [c] && opensWithSigma t

/-- The first character of a text is lowered as it is where it stands alone: nothing cased
stands in front of it. -/
theorem lower_cons (c : Char) (t : Text) : lower (c :: t) = lowerChar c ++ lowerAfter [c] t := by
  have hsigma : lowerChar 'Σ' = ['σ'] := by decide +kernel
  have hstart : endsWord [] t = false := rfl
  rw [lower, lowerAfter, hstart]
  split
  · next hc => rw [hc, hsigma, if_neg (by decide)]
  · rfl

/-- A segment in title case, up to case: the form of its first character, and the rest
on its own. -/
theorem lower_titleCase_cons (c : Char) (t : Text) :
    lower (titleCase (c :: t)) = lowerChar (upperChar c) ++ lower t := by
  have hrest : ∀ before, lowerAfter before (lower t) = lower t := fun before =>
    lowerAfter_of_isLow fun d hd => by
      obtain ⟨e, _, hform⟩ := mem_lowerAfter hd
      exact isLow_of_mem_lowerForms hform
  rw [titleCase, lower_cons, hrest]

/-- Rests that follow what they follow in the same way stay together on their own if both
or neither open with a sigma that ends a word there. -/
theorem lower_eq_iff_of_lowerAfter_eq {before before' t t' : Text}
    (h : lowerAfter before t = lowerAfter before' t') :
    lower t = lower t' ↔
      (meetsCased before && opensWithSigma t) = (meetsCased before' && opensWithSigma t') := by
  have hleft := lowerAfter_cases before [] t rfl
  have hright := lowerAfter_cases before' [] t' rfl
  split at hleft <;> split at hright
  · next hl hr =>
      obtain ⟨u, v, hu, hwhole, halone⟩ := hleft
      obtain ⟨u', v', hu', hwhole', halone'⟩ := hright
      rw [hl, hr]
      refine iff_of_true ?_ rfl
      rw [lower, lower, halone, halone', ← demote_append hu v, ← demote_append hu' v', ← hwhole,
        ← hwhole', h]
  · next hl hr =>
      obtain ⟨u, v, hu, hwhole, halone⟩ := hleft
      refine iff_of_false (fun heq => ?_) fun heq => hr (heq ▸ hl)
      rw [lower, lower, halone, hright, ← h, hwhole, ← demote_append hu v] at heq
      exact demote_ne hu heq
  · next hl hr =>
      obtain ⟨u, v, hu, hwhole, halone⟩ := hright
      refine iff_of_false (fun heq => ?_) fun heq => hl (heq ▸ hr)
      rw [lower, lower, halone, hleft, h, hwhole, ← demote_append hu v] at heq
      exact demote_ne hu heq.symm
  · next hl hr =>
      refine iff_of_true ?_ ?_
      · rw [lower, lower, hleft, hright, h]
      · rw [Bool.eq_iff_iff]
        exact iff_of_false hl hr

/-! ## Title case -/

/-- The dotted capital is a variant of a small i with a dot above behind it.  The dot
stands in the rest then, and is passed over there. -/
theorem alike_titleCase_dotted {c : Char} {t t' : Text} (hc : lowerChar c = ['i'])
    (h : '\u0307' :: lowerAfter ['\u0130'] t = lowerAfter [c] t') :
    alike (titleCase ('\u0130' :: t)) (titleCase (c :: t')) = true ↔
      turns ('\u0130' :: t) = turns (c :: t') := by
  have hdot : isCaseIgnorable '\u0307' = true := by decide +kernel
  have hlowerDot : lowerChar '\u0307' = ['\u0307'] := by decide +kernel
  cases t' with
  | nil => cases h
  | cons d t' =>
      obtain ⟨rfl, htail⟩ : d = '\u0307' ∧
          lowerAfter ['\u0130'] t = lowerAfter ['\u0307', c] t' := by
        rw [lowerAfter] at h
        by_cases hsigma : d = 'Σ'
        · rw [if_pos hsigma, List.singleton_append, List.cons.injEq] at h
          refine absurd h.1 ?_
          split <;> decide
        · have hne : d ≠ '\u0130' := by
            rintro rfl
            rw [if_neg hsigma] at h
            exact absurd (List.cons.inj h).1 (by decide)
          rw [if_neg hsigma, lowerChar_of_ne hne, List.singleton_append, List.cons.injEq] at h
          have hd : d = '\u0307' := eq_of_lowerChar_eq_dot (by rw [lowerChar_of_ne hne, ← h.1])
          subst hd
          exact ⟨rfl, h.2⟩
      have hfirst : lowerChar (upperChar '\u0130') = ['i', '\u0307'] := by decide +kernel
      have hfirst' : lowerChar (upperChar c) = ['i'] := by
        rw [lowerChar_upperChar_congr (show lowerChar c = lowerChar 'i' by
          rw [hc]
          decide +kernel)]
        decide +kernel
      have hrest : lower ('\u0307' :: t') = '\u0307' :: lower t' := by
        have halone : lowerAfter ['\u0307'] t' = lower t' :=
          lowerAfter_congr (by rw [meetsCased_cons, if_pos hdot]) t'
        rw [lower_cons, hlowerDot, halone, List.singleton_append]
      have hturns : turns (c :: '\u0307' :: t')
          = (meetsCased ['\u0307', c] && opensWithSigma t') := by
        rw [turns, opensWithSigma_cons, if_pos hdot, meetsCased_cons '\u0307', if_pos hdot]
      rw [alike_iff, lower_titleCase_cons, lower_titleCase_cons, hfirst, hfirst', hrest, hturns,
        turns]
      simpa using lower_eq_iff_of_lowerAfter_eq htail

/-- **Title case keeps variants together if both or neither turn**, and only then. -/
theorem alike_titleCase_iff {s s' : Text} (h : alike s s' = true) :
    alike (titleCase s) (titleCase s') = true ↔ turns s = turns s' := by
  have hforms : ∀ c, c = '\u0130' ∨ ∃ d, lowerChar c = [d] := fun c => by
    by_cases hc : c = '\u0130'
    · exact Or.inl hc
    · exact Or.inr ⟨_, lowerChar_of_ne hc⟩
  have hdotted : lowerChar '\u0130' = ['i', '\u0307'] := if_pos rfl
  cases s with
  | nil => rw [(eq_nil_iff_of_alike h).1 rfl]; simp
  | cons c t =>
      cases s' with
      | nil => exact absurd ((eq_nil_iff_of_alike h).2 rfl) (by simp)
      | cons c' t' =>
          rw [alike_iff, lower_cons, lower_cons] at h
          -- The first characters have as many forms, or one of them is the dotted capital.
          have hsame : lowerChar c = lowerChar c' → (alike (titleCase (c :: t))
              (titleCase (c' :: t')) = true ↔ turns (c :: t) = turns (c' :: t')) := by
            intro hfirst
            rw [hfirst, List.append_cancel_left_eq] at h
            rw [alike_iff, lower_titleCase_cons, lower_titleCase_cons,
              lowerChar_upperChar_congr hfirst, List.append_cancel_left_eq]
            exact lower_eq_iff_of_lowerAfter_eq h
          rcases hforms c with rfl | ⟨d, hd⟩ <;> rcases hforms c' with rfl | ⟨d', hd'⟩
          · exact hsame rfl
          · rw [hdotted, hd'] at h
            obtain ⟨rfl, htail⟩ := List.cons.inj h
            exact alike_titleCase_dotted hd' htail
          · rw [hdotted, hd] at h
            obtain ⟨rfl, htail⟩ := List.cons.inj h
            rw [eq_comm (a := turns (c :: t)), ← alike_titleCase_dotted hd htail.symm]
            exact ⟨alike_symm, alike_symm⟩
          · refine hsame ?_
            rw [hd, hd'] at h
            rw [hd, hd', (List.cons.inj h).1]

/-! ## Cuts and joins -/

/-- A map of texts keeps variants together exactly if the parts of both that it works on
turn in the same places. -/
def Settles (f : Text → Text) (parts : Text → List Text) : Prop :=
  ∀ s s', alike s s' = true →
    ((alike (f s) (f s') = true ↔ (parts s).map turns = (parts s').map turns) ∧
      (parts s).length = (parts s').length)

/-- **A segment settles its form in title case.** -/
theorem settles_titleCase : Settles titleCase fun s => [s] := by
  intro s s' h
  refine ⟨?_, rfl⟩
  rw [alike_titleCase_iff h]
  simp

/-- What settles a map settles the mapping of it over parts that are alike one by one. -/
theorem Settles.map {f : Text → Text} {parts : Text → List Text} (hf : Settles f parts)
    {ps qs : List Text} (h : ps.map lower = qs.map lower) :
    ((ps.map f).map lower = (qs.map f).map lower ↔
      (ps.flatMap parts).map turns = (qs.flatMap parts).map turns) ∧
      (ps.flatMap parts).length = (qs.flatMap parts).length := by
  induction ps generalizing qs with
  | nil =>
      rw [List.map_nil, eq_comm, List.map_eq_nil_iff] at h
      rw [h]
      simp
  | cons p ps ih =>
      cases qs with
      | nil => cases h
      | cons q qs =>
          obtain ⟨hfirst, hrest⟩ := List.cons.inj h
          obtain ⟨hsettle, hlength⟩ := hf p q (alike_iff.2 hfirst)
          obtain ⟨hsettles, hlengths⟩ := ih hrest
          constructor
          · rw [List.flatMap_cons, List.flatMap_cons, List.map_append, List.map_append]
            simp only [List.map_cons, List.cons.injEq]
            rw [← alike_iff, hsettle, hsettles]
            constructor
            · rintro ⟨h, h'⟩
              rw [h, h']
            · exact fun happend => List.append_inj happend (by simpa using hlength)
          · simp [hlength, hlengths]

/-- **A cut that is mapped and closed again** is settled by what settles the map, if
variants are cut at the same places and the mapped parts are found again. -/
theorem Settles.join {f : Text → Text} {parts : Text → List Text} {cut : Text → List Text}
    {c : Char} (hf : Settles f parts) (hc : StopsCase c)
    (hlower : ∀ t, cut (lower t) = (cut t).map lower)
    (hfound : ∀ t, cut ([c].intercalate ((cut t).map f)) = (cut t).map f) :
    Settles (fun t => [c].intercalate ((cut t).map f)) fun t => (cut t).flatMap parts := by
  intro s s' h
  have hparts : (cut s).map lower = (cut s').map lower := by
    rw [← hlower, ← hlower, alike_iff.1 h]
  obtain ⟨hsettles, hlength⟩ := hf.map hparts
  refine ⟨?_, hlength⟩
  rw [← hsettles, alike_iff]
  constructor
  · intro hjoin
    rw [← hfound s, ← hfound s', ← hlower, ← hlower, hjoin]
  · intro hmap
    rw [lower_intercalate hc, lower_intercalate hc, hmap]

/-! ## Values -/

/-- The segments of a value, which are put in title case one by one. -/
def segments (t : Text) : List Text :=
  (pieces [','] t).flatMap fun p => (words p).flatMap (pieces ['-'])

/-- A word settles its form by its segments. -/
theorem settles_titleWord : Settles titleWord (pieces ['-']) := by
  have h := settles_titleCase.join stopsCase_hyphen (pieces_lower stopsCase_hyphen (by decide))
    (pieces_join_map fun _ => mem_of_mem_titleCase (by decide))
  simp only [List.flatMap_singleton'] at h
  exact h

/-- A comma part settles its form by the segments of all its words. -/
theorem settles_titlePart : Settles titlePart fun p => (words p).flatMap (pieces ['-']) :=
  settles_titleWord.join stopsCase_space words_lower words_titlePart

/-- The comma parts of a value in title case, closed again. -/
theorem settles_titleParts :
    Settles (fun t => [','].intercalate ((pieces [','] t).map titlePart)) segments :=
  settles_titlePart.join stopsCase_comma (pieces_lower stopsCase_comma (by decide))
    (pieces_join_map fun _ => comma_mem_of_mem_titlePart)

/-- **The normal spellings of variants are variants** exactly if the values are kept as
they are or turn in the same segments. -/
theorem alike_normalize_iff {a b : Text} (h : alike a b = true) :
    alike (normalize a) (normalize b) = true ↔
      isVerbatim (trim a) = true ∨ (segments (trim a)).map turns = (segments (trim b)).map turns := by
  have htrim : alike (trim a) (trim b) = true := by
    rw [alike_iff, ← trim_lower, ← trim_lower, alike_iff.1 h]
  have hverbatim : isVerbatim (trim a) = isVerbatim (trim b) := by
    rw [← isVerbatim_lower, alike_iff.1 htrim, isVerbatim_lower]
  by_cases hkept : isVerbatim (trim a) = true
  · rw [normalize_of_verbatim hkept, normalize_of_verbatim (hverbatim ▸ hkept)]
    simp [htrim, hkept]
  · have hcut : isVerbatim (trim a) = false := by simpa using hkept
    rw [normalize_of_not_verbatim hcut, normalize_of_not_verbatim (hverbatim ▸ hcut), hcut]
    simp only [Bool.false_eq_true, false_or]
    exact (settles_titleParts _ _ htrim).1

/-- Two spellings of one value that are stored as two: the capital sigma turns, and the
small one that is final as it is typed does not. -/
theorem capital_sigma_turns :
    alike ['Α', 'Σ'] ['Α', 'ς'] = true ∧
      ¬ alike (normalize ['Α', 'Σ']) (normalize ['Α', 'ς']) = true := by
  have hvariants : alike ['Α', 'Σ'] ['Α', 'ς'] = true := by decide +kernel
  refine ⟨hvariants, fun hnormal => ?_⟩
  rcases (alike_normalize_iff hvariants).1 hnormal with hkept | hturns
  · exact absurd hkept (by decide +kernel)
  · exact absurd hturns (by decide +kernel)

end Text

end Tagline
