import Tagline.Proofs.Text.Case

/-!
# Letters in upper and in lower case

Two characters with one lower-case form have one upper-case form, up to case.  For
nearly all letters the reason is that one table undoes the other: a run of capital
letters is turned back by a run of small ones, and no capital letter is changed by the
upper-case table.  Where a run is not undone, the upper-case table leaves its small letters
as they are, but for a few runs whose letters are checked one by one.

Facts about the tables are evaluated together, a few in one theorem, so that the kernel
computes the bits of a table once.

* `imageIn_of_mem_changes` — a table that ascends is a function;
* `mem_changes_of_undoneBy` — a run that is undone is turned back letter by letter;
* `lowerChar_upperChar_congr` — letters with one lower-case form.
-/

namespace Tagline

namespace Text

/-! ## Tables as functions -/

/-- Whether the runs of a table follow one another from a code point on. -/
def ascendsFrom (low : Nat) : List CaseRun → Bool
  | [] => true
  | (first, last, _, _) :: runs =>
      decide (low ≤ first) && decide (first ≤ last) && ascendsFrom (last + 1) runs

/-- **An ascending table is a function**: a change of one of its runs is what a look-up
finds. -/
theorem imageIn_of_mem_changes {runs : List CaseRun} {low n m : Nat}
    (hruns : ascendsFrom low runs = true) (h : (n, m) ∈ changes runs) :
    low ≤ n ∧ imageIn runs n = m := by
  induction runs generalizing low with
  | nil => cases h
  | cons run runs ih =>
      obtain ⟨first, last, step, image⟩ := run
      simp only [ascendsFrom, Bool.and_eq_true, decide_eq_true_eq] at hruns
      obtain ⟨⟨hlow, hle⟩, hrest⟩ := hruns
      rcases mem_changes_cons.1 h with ⟨k, hk, _, hstep, heq⟩ | hlater
      · simp only [Prod.mk.injEq] at heq hk hstep
        obtain ⟨rfl, rfl⟩ := heq
        have hin : first + k ≤ last ∧ (first + k - first) % step = 0 := by
          rw [Nat.add_sub_cancel_left]
          exact ⟨by omega, hstep⟩
        refine ⟨by omega, ?_⟩
        rw [imageIn, if_neg (by omega), if_pos hin]
        omega
      · obtain ⟨hbeyond, himage⟩ := ih hrest hlater
        refine ⟨by omega, ?_⟩
        rw [imageIn, if_neg (by omega), if_neg (by omega), himage]

/-- Whether the first run that reaches up to the image of a run turns it back. -/
def undoneBy (runs : List CaseRun) : CaseRun → Bool
  | (first, last, step, image) =>
      (runs.find? fun run => image.ble run.2.1).any fun (first', last', step', image') =>
        (first + first').beq (image + image') && (first'.ble image &&
          ((image + (last - first)).ble last' && (((image - first') % step').beq 0 &&
            (step % step').beq 0)))

/-- **A run that is undone is turned back** letter by letter. -/
theorem mem_changes_of_undoneBy {runs : List CaseRun} {run : CaseRun}
    (hundone : undoneBy runs run = true) {n m : Nat} (h : (n, m) ∈ changes [run]) :
    (m, n) ∈ changes runs := by
  obtain ⟨first, last, step, image⟩ := run
  obtain ⟨⟨first', last', step', image'⟩, hfind, hback⟩ := (Option.any_eq_true _ _).1 hundone
  have hrun := List.mem_of_find?_eq_some hfind
  simp only [Bool.and_eq_true, Nat.beq_eq, Nat.ble_eq] at hback
  obtain ⟨himage, hlow, hhigh, hoffset, hstep⟩ := hback
  obtain ⟨k, hk, hle, hkstep, heq⟩ := (mem_changes_cons.1 h).resolve_right List.not_mem_nil
  simp only [Prod.mk.injEq] at heq hk hkstep hle
  obtain ⟨rfl, rfl⟩ := heq
  have hdvd : step' ∣ (image - first') + k :=
    Nat.dvd_add (Nat.dvd_of_mod_eq_zero hoffset)
      ((Nat.dvd_of_mod_eq_zero hstep).trans (Nat.dvd_of_mod_eq_zero hkstep))
  have hone : (image + k, first + k) ∈ changes [(first', last', step', image')] := by
    refine mem_changes_cons.2 (Or.inl ⟨(image - first') + k, ?_, ?_, ?_, ?_⟩)
    · dsimp only
      omega
    · dsimp only
      omega
    · exact Nat.mod_eq_zero_of_dvd hdvd
    · simp only [Prod.mk.injEq]
      omega
  obtain ⟨before, after, rfl⟩ := List.append_of_mem hrun
  simp only [changes, List.flatMap_append, List.flatMap_cons, List.flatMap_nil,
    List.append_nil, List.mem_append] at hone ⊢
  exact Or.inr (Or.inl hone)

/-- Whether a table gives `m` for no other code point than `n`. -/
def givesOnlyFor (runs : List CaseRun) (m n : Nat) : Bool :=
  runs.all fun (first, last, _, image) =>
    m.blt image || ((image + (last - first)).blt m || (first + m).beq (image + n))

/-- What is given for one code point only is given for that one. -/
theorem eq_of_givesOnlyFor {runs : List CaseRun} {m n k : Nat}
    (honly : givesOnlyFor runs m n = true) (h : (k, m) ∈ changes runs) : k = n := by
  obtain ⟨⟨first, last, step, image⟩, hrun, hin⟩ := List.mem_flatMap.1 h
  obtain ⟨j, hj, heq⟩ := List.mem_map.1 hin
  have hone := List.all_eq_true.1 honly _ hrun
  simp only [List.mem_filter, List.mem_range, Prod.mk.injEq] at hj heq
  simp only [Bool.or_eq_true, Nat.blt_eq, Nat.beq_eq] at hone
  omega

/-! ## The two tables -/

/-- The runs of the lower-case table that the upper-case table does not turn back, though
it changes their small letters: digraphs in title case and the capital letters beside them,
and capital letters without a small one of their own. -/
def loneRuns : List CaseRun :=
  [ (0x1C5, 0x1C5, 1, 0x1C6), (0x1C8, 0x1C8, 1, 0x1C9), (0x1CB, 0x1DB, 2, 0x1CC),
    (0x1F2, 0x1F4, 2, 0x1F3), (0x3F4, 0x3F4, 1, 0x3B8), (0x2126, 0x2126, 1, 0x3C9),
    (0x212A, 0x212A, 1, 0x6B), (0x212B, 0x212B, 1, 0xE5) ]

/-- The digraphs in title case, which both tables change. -/
def titleDigraphs : List Nat := [0x1C5, 0x1C8, 0x1CB, 0x1F2]

/-- The runs of both tables follow one another. -/
theorem tables_ascend : ascendsFrom 0 lowerRuns = true ∧ ascendsFrom 0 upperRuns = true := by
  decide +kernel

/-- **The tables turn one another back.**  The small letters of a run come back, or the
upper-case table leaves them as they are, or the run is one of the few, whose letters come
back as well; and what both tables change are digraphs in title case. -/
theorem tables_turn_back :
    (lowerRuns.all (fun run => undoneBy upperRuns run ||
        ((imageBits [run] &&& sourceBits upperRuns).beq 0 || loneRuns.contains run)) = true ∧
      ∀ m ∈ images loneRuns, imageIn lowerRuns (imageIn upperRuns m) = m) ∧
    sourceBits lowerRuns &&& sourceBits upperRuns = bits titleDigraphs ∧
      ∀ n ∈ titleDigraphs, imageIn lowerRuns (imageIn upperRuns n) = imageIn lowerRuns n := by
  decide +kernel

/-- A number with a bit is one of the list. -/
theorem mem_of_testBit_bits {ns : List Nat} {n : Nat} (h : (bits ns).testBit n = true) :
    n ∈ ns := by
  induction ns with
  | nil => simp [bits] at h
  | cons m ns ih =>
      rw [bits, Nat.testBit_or, Bool.or_eq_true] at h
      rcases h with h | h
      · rw [Nat.testBit_two_pow, decide_eq_true_eq] at h
        exact h ▸ List.mem_cons_self
      · exact List.mem_cons_of_mem _ (ih h)

/-- A letter that the lower-case table changes keeps its lower-case form in upper
case. -/
theorem lower_upper_of_mem_sources {n : Nat} (h : n ∈ sources lowerRuns) :
    imageIn lowerRuns (imageIn upperRuns n) = imageIn lowerRuns n := by
  by_cases hupper : n ∈ sources upperRuns
  · have hboth : n ∈ titleDigraphs := by
      refine mem_of_testBit_bits ?_
      rw [← tables_turn_back.2.1, Nat.testBit_and, testBit_sourceBits h, testBit_sourceBits hupper]
      rfl
    exact tables_turn_back.2.2 n hboth
  · rw [imageIn_of_not_mem hupper]

/-- So does a letter that comes out of the lower-case table. -/
theorem lower_upper_of_mem_images {m : Nat} (h : m ∈ images lowerRuns) :
    imageIn lowerRuns (imageIn upperRuns m) = m := by
  obtain ⟨⟨n, m⟩, hchange, rfl⟩ := List.mem_map.1 h
  dsimp only at h ⊢
  obtain ⟨run, hrun, hin⟩ := List.mem_flatMap.1 hchange
  have hone : (n, m) ∈ changes [run] := by
    rw [changes, List.flatMap_cons, List.flatMap_nil, List.append_nil]
    exact hin
  have hcase := List.all_eq_true.1 tables_turn_back.1.1 run hrun
  rw [Bool.or_eq_true, Bool.or_eq_true] at hcase
  rcases hcase with hundone | hkept | hlone
  · have hback := mem_changes_of_undoneBy hundone hone
    rw [(imageIn_of_mem_changes tables_ascend.2 hback).2,
      (imageIn_of_mem_changes tables_ascend.1 hchange).2]
  · have hupper := not_mem_sources (Nat.eq_of_beq_eq_true hkept) (testBit_of_mem_changes hone).2
    rw [imageIn_of_not_mem hupper]
    exact imageIn_of_not_mem (not_mem_sources lowerRuns_settled (testBit_imageBits h))
  · have himage : m ∈ images loneRuns :=
      List.mem_map.2 ⟨(n, m), List.mem_flatMap.2 ⟨run, List.contains_iff_mem.1 hlone, hin⟩, rfl⟩
    exact tables_turn_back.1.2 m himage

/-- **The lower-case form of a letter settles its upper-case form**, up to case. -/
theorem lower_upper_lower (n : Nat) :
    imageIn lowerRuns (imageIn upperRuns (imageIn lowerRuns n))
      = imageIn lowerRuns (imageIn upperRuns n) := by
  rcases imageIn_eq_or_mem lowerRuns n with hkept | hchange
  · rw [hkept]
  · have hsource : n ∈ sources lowerRuns := List.mem_map.2 ⟨_, hchange, rfl⟩
    have himage : imageIn lowerRuns n ∈ images lowerRuns := List.mem_map.2 ⟨_, hchange, rfl⟩
    rw [lower_upper_of_mem_images himage, lower_upper_of_mem_sources hsource]

/-! ## Characters -/

theorem lowerChar_of_ne {c : Char} (h : c ≠ '\u0130') :
    lowerChar c = [Char.ofNat (imageIn lowerRuns c.toNat)] :=
  if_neg h

/-- What comes out of a table for one character only: the small sigma at the end of a word,
the combining dot and the capital letter with a dot come from themselves, and a small e from
both its cases. -/
theorem givesOnlyFor_special :
    givesOnlyFor lowerRuns 'ς'.toNat 'ς'.toNat = true ∧
      givesOnlyFor lowerRuns '\u0307'.toNat '\u0307'.toNat = true ∧
      givesOnlyFor upperRuns '\u0130'.toNat '\u0130'.toNat = true ∧
      givesOnlyFor lowerRuns 'e'.toNat 'E'.toNat = true := by
  decide +kernel

/-- A character that a table gives comes from itself or from the one it is given for. -/
theorem eq_or_eq_of_ofNat_imageIn {runs : List CaseRun} {c d e : Char}
    (hruns : namesChars runs = true) (h : Char.ofNat (imageIn runs c.toNat) = d)
    (honly : givesOnlyFor runs d.toNat e.toNat = true) : c = d ∨ c = e := by
  have hcode : imageIn runs c.toNat = d.toNat := by
    rw [← toNat_ofNat_imageIn hruns c, h]
  rcases imageIn_eq_or_mem runs c.toNat with hkept | hchange
  · exact Or.inl (Char.toNat_inj.1 (hkept.symm.trans hcode))
  · exact Or.inr (Char.toNat_inj.1 (eq_of_givesOnlyFor honly (hcode ▸ hchange)))

/-- Only a final sigma is lowered to a final sigma, where it stands alone. -/
theorem eq_of_finalSigma_mem {c : Char} (h : 'ς' ∈ lowerChar c) : c = 'ς' := by
  by_cases hdot : c = '\u0130'
  · subst hdot
    exact absurd h (by decide)
  · rw [lowerChar_of_ne hdot, List.mem_singleton] at h
    exact (eq_or_eq_of_ofNat_imageIn namesChars_lowerRuns h.symm givesOnlyFor_special.1).elim id id

/-- Only the combining dot is lowered to it. -/
theorem eq_of_lowerChar_eq_dot {c : Char} (h : lowerChar c = ['\u0307']) : c = '\u0307' := by
  by_cases hdot : c = '\u0130'
  · subst hdot
    exact absurd h (by decide)
  · rw [lowerChar_of_ne hdot, List.cons.injEq] at h
    exact (eq_or_eq_of_ofNat_imageIn namesChars_lowerRuns h.1 givesOnlyFor_special.2.1).elim id id

/-- Only the capital letter with a dot is its upper-case form. -/
theorem eq_of_upperChar_eq_dotted {c : Char} (h : upperChar c = '\u0130') : c = '\u0130' :=
  (eq_or_eq_of_ofNat_imageIn namesChars_upperRuns h givesOnlyFor_special.2.2.1).elim id id

/-- Only the two cases of the letter e are lowered to it. -/
theorem eq_of_e_mem {c : Char} (h : 'e' ∈ lowerChar c) : c = 'e' ∨ c = 'E' := by
  by_cases hdot : c = '\u0130'
  · subst hdot
    exact absurd h (by decide)
  · rw [lowerChar_of_ne hdot, List.mem_singleton] at h
    exact eq_or_eq_of_ofNat_imageIn namesChars_lowerRuns h.symm givesOnlyFor_special.2.2.2

/-- **Characters with one lower-case form have one upper-case form**, up to case. -/
theorem lowerChar_upperChar_congr {c d : Char} (h : lowerChar c = lowerChar d) :
    lowerChar (upperChar c) = lowerChar (upperChar d) := by
  have hupper : ∀ e : Char, e ≠ '\u0130' → lowerChar (upperChar e)
      = [Char.ofNat (imageIn lowerRuns (imageIn upperRuns (imageIn lowerRuns e.toNat)))] := by
    intro e he
    have hcode : (upperChar e).toNat = imageIn upperRuns e.toNat :=
      toNat_ofNat_imageIn namesChars_upperRuns e
    rw [lowerChar_of_ne fun hup => he (eq_of_upperChar_eq_dotted hup), hcode,
      lower_upper_lower]
  by_cases hc : c = '\u0130'
  · by_cases hd : d = '\u0130'
    · rw [hc, hd]
    · rw [hc, lowerChar_of_ne hd] at h
      exact absurd (congrArg List.length h) (by simp [lowerChar])
  · by_cases hd : d = '\u0130'
    · rw [hd, lowerChar_of_ne hc] at h
      exact absurd (congrArg List.length h) (by simp [lowerChar])
    · rw [lowerChar_of_ne hc, lowerChar_of_ne hd, List.cons.injEq] at h
      have hcode : imageIn lowerRuns c.toNat = imageIn lowerRuns d.toNat := by
        rw [← toNat_ofNat_imageIn namesChars_lowerRuns c, h.1,
          toNat_ofNat_imageIn namesChars_lowerRuns d]
      rw [hupper c hc, hupper d hd, hcode]

end Text

end Tagline
