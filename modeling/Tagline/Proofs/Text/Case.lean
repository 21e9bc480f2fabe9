import Tagline.Text.Case
import Tagline.Text.Blank
import Mathlib.Data.Char
import Mathlib.Data.List.Basic
import Mathlib.Data.Nat.Bitwise

/-!
# What a change of case keeps

Lower-casing and upper-casing move letters only.  A **mark** is a blank or an
ASCII character that is no letter; no mark is changed, and nothing else becomes
one.  So a text and its lower-cased form have the same marks, and two texts that are
alike do as well.

The tables are settled: no image of a run is changed again.  Hence lower-casing
twice is lower-casing once, and the same holds for the upper-case form of a
character.

Both facts are about finite tables, and a table is compared with a set of code
points through its **bits**: two sets are disjoint when the conjunction of their
bits is zero, which is one operation on numbers.

* `mem_lower_iff` — a mark stands in the lower-cased form where it stands in
  the text;
* `eq_of_isMark_of_mem_lowerForms` — no letter is lowered to a mark;
* `lower_lower`, `upperChar_upperChar` — a second change changes nothing.
-/

namespace Tagline

namespace Text

/-! ## Tables as sets of code points -/

/-- The code points that a table changes, each with its image. -/
def changes (runs : List CaseRun) : List (Nat × Nat) :=
  runs.flatMap fun (first, last, step, image) =>
    ((List.range (last + 1 - first)).filter (· % step == 0)).map fun k =>
      (first + k, image + k)

/-- The code points that a table changes. -/
def sources (runs : List CaseRun) : List Nat :=
  (changes runs).map (·.1)

/-- What a table changes them to. -/
def images (runs : List CaseRun) : List Nat :=
  (changes runs).map (·.2)

/-- **A table changes a code point as one of its runs says, or not at all.** -/
theorem imageIn_eq_or_mem (runs : List CaseRun) (n : Nat) :
    imageIn runs n = n ∨ (n, imageIn runs n) ∈ changes runs := by
  induction runs with
  | nil => exact Or.inl rfl
  | cons run runs ih =>
      obtain ⟨first, last, step, image⟩ := run
      unfold imageIn
      split
      · exact Or.inl rfl
      · next hfirst =>
          split
          · next hin =>
              right
              refine List.mem_flatMap.2 ⟨_, List.mem_cons_self, ?_⟩
              refine List.mem_map.2 ⟨n - first, ?_, ?_⟩
              · simp only [List.mem_filter, List.mem_range, beq_iff_eq]
                omega
              · simp only [Prod.mk.injEq, and_true]
                omega
          · rcases ih with ih | ih
            · exact Or.inl ih
            · right
              exact List.mem_append_right _ ih

/-- The changes of a table are those of its first run and those of the others. -/
theorem mem_changes_cons {run : CaseRun} {runs : List CaseRun} {p : Nat × Nat} :
    p ∈ changes (run :: runs) ↔
      (∃ k ≤ run.2.1 - run.1, run.1 ≤ run.2.1 ∧ k % run.2.2.1 = 0 ∧
        p = (run.1 + k, run.2.2.2 + k)) ∨ p ∈ changes runs := by
  obtain ⟨first, last, step, image⟩ := run
  rw [changes, List.flatMap_cons, List.mem_append, ← changes]
  refine or_congr_left ?_
  simp only [List.mem_map, List.mem_filter, List.mem_range, beq_iff_eq]
  constructor
  · rintro ⟨k, ⟨hk, hstep⟩, rfl⟩
    exact ⟨k, by omega, by omega, hstep, rfl⟩
  · rintro ⟨k, hk, hle, hstep, rfl⟩
    exact ⟨k, ⟨by omega, hstep⟩, rfl⟩

/-- A set of numbers as one number, a bit for each. -/
def bits : List Nat → Nat
  | [] => 0
  | n :: ns => 2 ^ n ||| bits ns

/-- A number of the list has its bit. -/
theorem testBit_bits {ns : List Nat} {n : Nat} (h : n ∈ ns) : (bits ns).testBit n = true := by
  induction ns with
  | nil => simp at h
  | cons m ns ih =>
      rcases List.mem_cons.1 h with rfl | h
      · simp [bits, Nat.testBit_two_pow_self]
      · simp [bits, ih h]

/-- The bits of the first multiples of a step, `count` of them. -/
def strideBits (step : Nat) : Nat → Nat
  | 0 => 0
  | count + 1 => 1 ||| strideBits step count <<< step

theorem testBit_strideBits {step count j : Nat} (h : j < count) :
    (strideBits step count).testBit (j * step) = true := by
  induction count generalizing j with
  | zero => omega
  | succ count ih =>
      cases j with
      | zero => simp [strideBits]
      | succ j =>
          have hle : step ≤ (j + 1) * step := Nat.le_mul_of_pos_left _ (by omega)
          have hrest : (j + 1) * step - step = j * step := by
            rw [Nat.succ_mul, Nat.add_sub_cancel]
          simp [strideBits, Nat.testBit_or, Nat.testBit_shiftLeft, hle, hrest,
            ih (Nat.lt_of_succ_lt_succ h)]

/-- The bits of the code points of a run that starts at `start`. -/
def runBits (run : CaseRun) (start : Nat) : Nat :=
  strideBits run.2.2.1 ((run.2.1 - run.1) / run.2.2.1 + 1) <<< start

/-- Each code point of a run has its bit. -/
theorem testBit_runBits {run : CaseRun} {start k : Nat} (hk : k ≤ run.2.1 - run.1)
    (hstep : k % run.2.2.1 = 0) : (runBits run start).testBit (start + k) = true := by
  have hmul : k / run.2.2.1 * run.2.2.1 = k := Nat.div_mul_cancel (Nat.dvd_of_mod_eq_zero hstep)
  have hbit : (strideBits run.2.2.1 ((run.2.1 - run.1) / run.2.2.1 + 1)).testBit
      (k / run.2.2.1 * run.2.2.1) = true :=
    testBit_strideBits (Nat.lt_succ_of_le (Nat.div_le_div_right hk))
  rw [hmul] at hbit
  simp [runBits, Nat.testBit_shiftLeft, hbit]

/-- The bits of the code points that a table changes. -/
def sourceBits : List CaseRun → Nat
  | [] => 0
  | run :: runs => runBits run run.1 ||| sourceBits runs

/-- The bits of what a table changes them to. -/
def imageBits : List CaseRun → Nat
  | [] => 0
  | run :: runs => runBits run run.2.2.2 ||| imageBits runs

/-- **A change of a table is in the bits of both its sides.** -/
theorem testBit_of_mem_changes {runs : List CaseRun} {p : Nat × Nat} (h : p ∈ changes runs) :
    (sourceBits runs).testBit p.1 = true ∧ (imageBits runs).testBit p.2 = true := by
  induction runs with
  | nil => cases h
  | cons run runs ih =>
      rw [sourceBits, imageBits, Nat.testBit_or, Nat.testBit_or]
      rcases mem_changes_cons.1 h with ⟨k, hk, _, hstep, rfl⟩ | hlater
      · simp [testBit_runBits hk hstep]
      · simp [ih hlater]

/-- Each source of a table has its bit among those of the sources. -/
theorem testBit_sourceBits {runs : List CaseRun} {n : Nat} (h : n ∈ sources runs) :
    (sourceBits runs).testBit n = true := by
  obtain ⟨p, hp, rfl⟩ := List.mem_map.1 h
  exact (testBit_of_mem_changes hp).1

theorem testBit_imageBits {runs : List CaseRun} {n : Nat} (h : n ∈ images runs) :
    (imageBits runs).testBit n = true := by
  obtain ⟨p, hp, rfl⟩ := List.mem_map.1 h
  exact (testBit_of_mem_changes hp).2

/-- Numbers whose bits do not meet have no bit in common. -/
theorem testBit_eq_false_of_and {a b n : Nat} (h : a &&& b = 0) (ha : a.testBit n = true) :
    b.testBit n = false := by
  have hbit : (a &&& b).testBit n = false := by rw [h, Nat.zero_testBit]
  rwa [Nat.testBit_and, ha, Bool.true_and] at hbit

/-- A code point that is none of the sources of a table, by their bits. -/
theorem not_mem_sources {runs : List CaseRun} {a n : Nat} (h : a &&& sourceBits runs = 0)
    (ha : a.testBit n = true) : n ∉ sources runs := fun hn =>
  Bool.false_ne_true ((testBit_eq_false_of_and h ha).symm.trans (testBit_sourceBits hn))

/-- A code point that is none of the images of a table, by their bits. -/
theorem not_mem_images {runs : List CaseRun} {a n : Nat} (h : a &&& imageBits runs = 0)
    (ha : a.testBit n = true) : n ∉ images runs := fun hn =>
  Bool.false_ne_true ((testBit_eq_false_of_and h ha).symm.trans (testBit_imageBits hn))

/-- A code point that is no source of a table is not changed. -/
theorem imageIn_of_not_mem {runs : List CaseRun} {n : Nat} (h : n ∉ sources runs) :
    imageIn runs n = n := by
  rcases imageIn_eq_or_mem runs n with heq | hmem
  · exact heq
  · exact absurd (List.mem_map.2 ⟨_, hmem, rfl⟩) h

/-- A code point that is changed goes to an image. -/
theorem imageIn_eq_or_mem_images (runs : List CaseRun) (n : Nat) :
    imageIn runs n = n ∨ imageIn runs n ∈ images runs :=
  (imageIn_eq_or_mem runs n).imp_right fun h => List.mem_map.2 ⟨_, h, rfl⟩

/-- A table whose images are no sources changes nothing twice. -/
theorem imageIn_imageIn {runs : List CaseRun}
    (h : imageBits runs &&& sourceBits runs = 0) (n : Nat) :
    imageIn runs (imageIn runs n) = imageIn runs n := by
  rcases imageIn_eq_or_mem_images runs n with heq | hmem
  · rw [heq, heq]
  · exact imageIn_of_not_mem (not_mem_sources h (testBit_imageBits hmem))

/-- Whether every image of a table is the number of a character. -/
def namesChars (runs : List CaseRun) : Bool :=
  runs.all fun (first, last, _, image) =>
    (image + (last - first)).blt 0xD800 ||
      ((0xDFFF).blt image && (image + (last - first)).blt 0x110000)

/-- The images of such a table are the numbers of characters, one by one. -/
theorem isValidChar_of_mem_images {runs : List CaseRun} (hruns : namesChars runs = true)
    {m : Nat} (h : m ∈ images runs) : m.isValidChar := by
  obtain ⟨⟨n, m⟩, hchange, rfl⟩ := List.mem_map.1 h
  obtain ⟨⟨first, last, step, image⟩, hrun, hin⟩ := List.mem_flatMap.1 hchange
  obtain ⟨k, hk, heq⟩ := List.mem_map.1 hin
  have hbound := List.all_eq_true.1 hruns _ hrun
  simp only [List.mem_filter, List.mem_range, Prod.mk.injEq] at hk heq
  simp only [Bool.or_eq_true, Bool.and_eq_true, Nat.blt_eq] at hbound
  simp only [Nat.isValidChar]
  omega

/-- The number of the character that a table gives. -/
theorem toNat_ofNat_imageIn {runs : List CaseRun} (hruns : namesChars runs = true) (c : Char) :
    (Char.ofNat (imageIn runs c.toNat)).toNat = imageIn runs c.toNat := by
  rcases imageIn_eq_or_mem_images runs c.toNat with hkept | himage
  · rw [hkept, Char.ofNat_toNat]
  · have hvalid := isValidChar_of_mem_images hruns himage
    exact congrArg Char.toNat (dif_pos hvalid : Char.ofNat _ = Char.ofNatAux _ hvalid)

/-- The character that a table gives for one is that character, or one of an image. -/
theorem ofNat_imageIn_cases {runs : List CaseRun} (hruns : namesChars runs = true) (c : Char) :
    Char.ofNat (imageIn runs c.toNat) = c ∨
      (Char.ofNat (imageIn runs c.toNat)).toNat ∈ images runs := by
  rcases imageIn_eq_or_mem_images runs c.toNat with heq | hmem
  · left
    rw [heq, Char.ofNat_toNat]
  · right
    rwa [toNat_ofNat_imageIn hruns]

/-- What a settled table gives for a character it does not change again. -/
theorem ofNat_imageIn_twice {runs : List CaseRun} (hruns : namesChars runs = true)
    (h : imageBits runs &&& sourceBits runs = 0) (c : Char) :
    Char.ofNat (imageIn runs (Char.ofNat (imageIn runs c.toNat)).toNat)
      = Char.ofNat (imageIn runs c.toNat) := by
  rw [toNat_ofNat_imageIn hruns, imageIn_imageIn h]

/-! ## Marks -/

/-- The blanks, and the ASCII characters from the space to the tilde that are no
letters. -/
def markRanges : List (Nat × Nat) :=
  [ (0x9, 0xD), (0x20, 0x40), (0x5B, 0x60), (0x7B, 0x7E), (0x85, 0x85), (0xA0, 0xA0),
    (0x1680, 0x1680), (0x2000, 0x200A), (0x2028, 0x2029), (0x202F, 0x202F),
    (0x205F, 0x205F), (0x3000, 0x3000) ]

/-- The code points of the marks. -/
def markCodes : List Nat :=
  markRanges.flatMap fun r => (List.range (r.2 + 1 - r.1)).map (r.1 + ·)

/-- A blank, or an ASCII character that is no letter and no control character. -/
def isMark (c : Char) : Bool :=
  markRanges.any fun r => decide (r.1 ≤ c.toNat) && decide (c.toNat ≤ r.2)

/-- A mark has one of the code points. -/
theorem mem_markCodes {c : Char} (h : isMark c = true) : c.toNat ∈ markCodes := by
  obtain ⟨r, hr, hin⟩ := List.any_eq_true.1 h
  simp only [Bool.and_eq_true, decide_eq_true_eq] at hin
  refine List.mem_flatMap.2 ⟨r, hr, List.mem_map.2 ⟨c.toNat - r.1, ?_, ?_⟩⟩
  · simp only [List.mem_range]
    omega
  · omega

/-- Every blank is a mark. -/
theorem isMark_of_isBlank {c : Char} (h : isBlank c = true) : isMark c = true := by
  simp only [isBlank, Bool.or_eq_true, Bool.and_eq_true, beq_iff_eq, decide_eq_true_eq] at h
  simp only [isMark, markRanges, List.any_cons, List.any_nil, Bool.or_eq_true, Bool.and_eq_true,
    decide_eq_true_eq]
  omega

/-- The images of the lower-case table are the numbers of characters. -/
theorem namesChars_lowerRuns : namesChars lowerRuns = true := by
  decide +kernel

/-- So are those of the upper-case table. -/
theorem namesChars_upperRuns : namesChars upperRuns = true := by
  decide +kernel

/-- **The tables are settled.**  No image of a table is a source of it, neither changes a
mark or makes one, and the two characters with a rule of their own are no images of the
lower-case table. -/
theorem tables_settled :
    (imageBits lowerRuns &&& sourceBits lowerRuns = 0 ∧
      imageBits upperRuns &&& sourceBits upperRuns = 0) ∧
    (bits markCodes &&& sourceBits lowerRuns = 0 ∧
      bits markCodes &&& imageBits lowerRuns = 0 ∧
      bits markCodes &&& sourceBits upperRuns = 0 ∧
      bits markCodes &&& imageBits upperRuns = 0) ∧
    bits [0x3A3, 0x130] &&& imageBits lowerRuns = 0 := by
  decide +kernel

/-- No image of the lower-case table is changed by it. -/
theorem lowerRuns_settled : imageBits lowerRuns &&& sourceBits lowerRuns = 0 :=
  tables_settled.1.1

theorem upperRuns_settled : imageBits upperRuns &&& sourceBits upperRuns = 0 :=
  tables_settled.1.2

/-- Neither table changes a mark or makes one. -/
theorem marks_settled :
    bits markCodes &&& sourceBits lowerRuns = 0 ∧
      bits markCodes &&& imageBits lowerRuns = 0 ∧
      bits markCodes &&& sourceBits upperRuns = 0 ∧
      bits markCodes &&& imageBits upperRuns = 0 :=
  tables_settled.2.1

/-- A table without marks among its sources keeps a mark. -/
theorem imageIn_of_isMark {runs : List CaseRun}
    (h : bits markCodes &&& sourceBits runs = 0) {c : Char} (hc : isMark c = true) :
    Char.ofNat (imageIn runs c.toNat) = c := by
  rw [imageIn_of_not_mem (not_mem_sources h (testBit_bits (mem_markCodes hc))), Char.ofNat_toNat]

/-- A table without marks among its images makes a mark of no other character. -/
theorem eq_of_isMark_imageIn {runs : List CaseRun} (hruns : namesChars runs = true)
    (h : bits markCodes &&& imageBits runs = 0) {c : Char}
    (hc : isMark (Char.ofNat (imageIn runs c.toNat)) = true) :
    Char.ofNat (imageIn runs c.toNat) = c := by
  rcases ofNat_imageIn_cases hruns c with heq | hmem
  · exact heq
  · exact absurd hmem (not_mem_images h (testBit_bits (mem_markCodes hc)))

/-! ## Single characters -/

/-- The upper-case form is its own upper-case form. -/
@[simp] theorem upperChar_upperChar (c : Char) : upperChar (upperChar c) = upperChar c :=
  ofNat_imageIn_twice namesChars_upperRuns upperRuns_settled c

/-- A mark is its own upper-case form. -/
theorem upperChar_of_isMark {c : Char} (h : isMark c = true) : upperChar c = c :=
  imageIn_of_isMark marks_settled.2.2.1 h

/-- A letter has a letter for its upper-case form. -/
theorem isMark_upperChar {c : Char} : isMark (upperChar c) = isMark c := by
  by_cases hc : isMark c = true
  · rw [upperChar_of_isMark hc]
  · by_cases hu : isMark (upperChar c) = true
    · have heq : upperChar c = c := eq_of_isMark_imageIn namesChars_upperRuns marks_settled.2.2.2 hu
      rw [heq]
    · simp [hc, hu]

/-- The characters that the lower-cased form may have in the place of one: both
small sigmas for the capital one. -/
def lowerForms (c : Char) : Text :=
  if c = 'Σ' then ['ς', 'σ'] else lowerChar c

/-- A character that lower-casing keeps, wherever it stands. -/
def IsLow (c : Char) : Prop :=
  c ≠ 'Σ' ∧ lowerChar c = [c]

/-- A mark is lowered to itself. -/
theorem lowerForms_of_isMark {c : Char} (h : isMark c = true) : lowerForms c = [c] := by
  have hsigma : c ≠ 'Σ' := by
    rintro rfl
    exact absurd h (by decide)
  have hdot : c ≠ '\u0130' := by
    rintro rfl
    exact absurd h (by decide)
  simp [lowerForms, lowerChar, hsigma, hdot, imageIn_of_isMark marks_settled.1 h]

/-- **No letter is lowered to a mark.** -/
theorem eq_of_isMark_of_mem_lowerForms {c d : Char} (hd : d ∈ lowerForms c)
    (hmark : isMark d = true) : d = c := by
  unfold lowerForms lowerChar at hd
  split at hd
  · simp only [List.mem_cons, List.not_mem_nil, or_false] at hd
    rcases hd with rfl | rfl <;> exact absurd hmark (by decide)
  · split at hd
    · simp only [List.mem_cons, List.not_mem_nil, or_false] at hd
      rcases hd with rfl | rfl <;> exact absurd hmark (by decide)
    · obtain rfl := List.mem_singleton.1 hd
      exact eq_of_isMark_imageIn namesChars_lowerRuns marks_settled.2.1 hmark

/-- Blanks are lowered to blanks, and nothing else is. -/
theorem isBlank_of_mem_lowerForms {c d : Char} (hd : d ∈ lowerForms c) :
    isBlank d = isBlank c := by
  by_cases hc : isBlank c = true
  · rw [lowerForms_of_isMark (isMark_of_isBlank hc)] at hd
    rw [List.mem_singleton.1 hd]
  · by_cases hblank : isBlank d = true
    · rw [eq_of_isMark_of_mem_lowerForms hd (isMark_of_isBlank hblank)]
    · simp [hc, hblank]

/-- The two characters with a rule of their own are no images of the table. -/
theorem special_not_mem_images : 0x3A3 ∉ images lowerRuns ∧ 0x130 ∉ images lowerRuns :=
  ⟨not_mem_images tables_settled.2.2 (testBit_bits (by simp)),
    not_mem_images tables_settled.2.2 (testBit_bits (by simp))⟩

/-- What the table gives is one of the two characters with a rule of their own
only for that character itself. -/
theorem eq_of_ofNat_imageIn_eq {c d : Char} (hd : Char.ofNat (imageIn lowerRuns c.toNat) = d)
    (hspecial : d = 'Σ' ∨ d = '\u0130') : d = c := by
  rcases ofNat_imageIn_cases namesChars_lowerRuns c with heq | hmem
  · exact hd.symm.trans heq
  · rw [hd] at hmem
    rcases hspecial with rfl | rfl
    · exact absurd hmem special_not_mem_images.1
    · exact absurd hmem special_not_mem_images.2

/-- What comes out of lower-casing is kept by it. -/
theorem isLow_of_mem_lowerForms {c d : Char} (hd : d ∈ lowerForms c) : IsLow d := by
  unfold lowerForms at hd
  split at hd
  · simp only [List.mem_cons, List.not_mem_nil, or_false] at hd
    rcases hd with rfl | rfl <;> exact ⟨by decide, by decide⟩
  · next hsigma =>
      unfold lowerChar at hd
      split at hd
      · simp only [List.mem_cons, List.not_mem_nil, or_false] at hd
        rcases hd with rfl | rfl <;> exact ⟨by decide, by decide⟩
      · next hdot =>
          obtain rfl := List.mem_singleton.1 hd
          refine ⟨fun h => ?_, ?_⟩
          · exact hsigma ((eq_of_ofNat_imageIn_eq h (Or.inl rfl)).symm)
          · have hne : Char.ofNat (imageIn lowerRuns c.toNat) ≠ '\u0130' := fun h =>
              hdot ((eq_of_ofNat_imageIn_eq h (Or.inr rfl)).symm)
            rw [lowerChar, if_neg hne, ofNat_imageIn_twice namesChars_lowerRuns lowerRuns_settled c]

/-! ## Texts -/

/-- **Lower-casing goes from character to character.**  In the place of the first
one stand some of its forms. -/
theorem lowerAfter_cons (before : Text) (c : Char) (t : Text) :
    ∃ part, part ≠ [] ∧ (∀ d ∈ part, d ∈ lowerForms c) ∧
      lowerAfter before (c :: t) = part ++ lowerAfter (c :: before) t := by
  by_cases hsigma : c = 'Σ'
  · refine ⟨[if endsWord before t then 'ς' else 'σ'], by simp, ?_, by simp [lowerAfter, hsigma]⟩
    intro d hd
    rw [List.mem_singleton.1 hd]
    split <;> simp [lowerForms, hsigma]
  · refine ⟨lowerChar c, ?_, by simp [lowerForms, hsigma], by simp [lowerAfter, hsigma]⟩
    unfold lowerChar
    split <;> simp

/-- Every character of the lower-cased form stands in the place of one of the text. -/
theorem mem_lowerAfter {d : Char} {before t : Text} (h : d ∈ lowerAfter before t) :
    ∃ c ∈ t, d ∈ lowerForms c := by
  induction t generalizing before with
  | nil => simp [lowerAfter] at h
  | cons c t ih =>
      obtain ⟨part, _, hpart, heq⟩ := lowerAfter_cons before c t
      rw [heq, List.mem_append] at h
      rcases h with h | h
      · exact ⟨c, List.mem_cons_self, hpart d h⟩
      · obtain ⟨e, he, hd⟩ := ih h
        exact ⟨e, List.mem_cons_of_mem _ he, hd⟩

/-- A text of characters that lower-casing keeps is kept. -/
theorem lowerAfter_of_isLow {before t : Text} (h : ∀ c ∈ t, IsLow c) :
    lowerAfter before t = t := by
  induction t generalizing before with
  | nil => rfl
  | cons c t ih =>
      obtain ⟨hsigma, hlow⟩ := h c List.mem_cons_self
      have htail : lowerAfter (c :: before) t = t :=
        ih fun d hd => h d (List.mem_cons_of_mem _ hd)
      simp [lowerAfter, hsigma, hlow, htail]

/-- **Lower-casing twice is lower-casing once.** -/
@[simp] theorem lower_lower (t : Text) : lower (lower t) = lower t := by
  refine lowerAfter_of_isLow fun d hd => ?_
  obtain ⟨c, _, hform⟩ := mem_lowerAfter hd
  exact isLow_of_mem_lowerForms hform

/-- A mark stands in the lower-cased form where it stands in the text. -/
theorem mem_lower_iff {d : Char} (hd : isMark d = true) {t : Text} : d ∈ lower t ↔ d ∈ t := by
  constructor
  · intro h
    obtain ⟨c, hc, hform⟩ := mem_lowerAfter h
    rwa [eq_of_isMark_of_mem_lowerForms hform hd]
  · have hkeep : ∀ before, d ∈ t → d ∈ lowerAfter before t := by
      induction t with
      | nil => simp
      | cons c t ih =>
          intro before h
          obtain ⟨part, hne, hpart, heq⟩ := lowerAfter_cons before c t
          rw [heq, List.mem_append]
          rcases List.mem_cons.1 h with rfl | h
          · left
            obtain ⟨e, he⟩ := List.exists_mem_of_ne_nil part hne
            have hform := hpart e he
            rw [lowerForms_of_isMark hd, List.mem_singleton] at hform
            exact hform ▸ he
          · exact Or.inr (ih _ h)
    exact hkeep []

/-- Texts that are alike have the same marks. -/
theorem mem_iff_of_alike {s t : Text} (h : alike s t = true) {d : Char}
    (hd : isMark d = true) : d ∈ s ↔ d ∈ t := by
  rw [← mem_lower_iff hd, alike_iff.1 h, mem_lower_iff hd]

/-- Only the empty text is lowered to nothing. -/
theorem lower_eq_nil {t : Text} : lower t = [] ↔ t = [] := by
  cases t with
  | nil => simp
  | cons c t =>
      obtain ⟨part, hne, _, heq⟩ := lowerAfter_cons [] c t
      simp [lower, heq, hne]

/-- Only the empty text is alike to it. -/
theorem eq_nil_iff_of_alike {s t : Text} (h : alike s t = true) : s = [] ↔ t = [] := by
  rw [← lower_eq_nil, alike_iff.1 h, lower_eq_nil]

/-! ## Texts in parts -/

/-- A character that lower-casing keeps and does not look across: it is neither cased
nor case-ignorable, so a sigma on one side does not know about the other side. -/
structure StopsCase (c : Char) : Prop where
  low : IsLow c
  notCased : isCased c = false
  notIgnorable : isCaseIgnorable c = false

theorem stopsCase_hyphen : StopsCase '-' := ⟨⟨by decide, by decide⟩, by decide, by decide⟩

/-- A search for a cased character ends at a stop. -/
theorem meetsCased_append_stop {c : Char} (hc : StopsCase c) (s t : Text) :
    meetsCased (s ++ c :: t) = meetsCased s := by
  unfold meetsCased
  induction s with
  | nil => simp [hc.notCased, hc.notIgnorable]
  | cons d s ih =>
      by_cases hd : isCaseIgnorable d = true
      · simpa [List.dropWhile_cons, hd] using ih
      · simp [hd]

/-- What stands before a stop has no effect on what stands behind it. -/
theorem lowerAfter_append_stop {c : Char} (hc : StopsCase c) (before far t : Text) :
    lowerAfter (before ++ c :: far) t = lowerAfter before t := by
  induction t generalizing before with
  | nil => rfl
  | cons d t ih =>
      have hrest := ih (d :: before)
      rw [List.cons_append] at hrest
      have hends : endsWord (before ++ c :: far) t = endsWord before t := by
        rw [endsWord, endsWord, meetsCased_append_stop hc]
      rw [lowerAfter, lowerAfter, hends, hrest]

/-- **Lower-casing goes through a stop.** -/
theorem lower_append_stop {c : Char} (hc : StopsCase c) (s t : Text) :
    lower (s ++ c :: t) = lower s ++ c :: lower t := by
  have hgo : ∀ before, lowerAfter before (s ++ c :: t) = lowerAfter before s ++ c :: lower t := by
    intro before
    induction s generalizing before with
    | nil =>
        have hfar := lowerAfter_append_stop hc [] before t
        rw [List.nil_append] at hfar
        simp [lowerAfter, hc.low.1, hc.low.2, hfar, lower]
    | cons d s ih =>
        have hends : endsWord before (s ++ c :: t) = endsWord before s := by
          rw [endsWord, endsWord, meetsCased_append_stop hc]
        rw [List.cons_append, lowerAfter, lowerAfter, hends, ih, List.append_assoc]
  exact hgo []

end Text

end Tagline
