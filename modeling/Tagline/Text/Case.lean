import Tagline.Text.CaseTable

/-!
# Lower case, upper case, and texts that differ only in case

Lower-casing is the full Unicode mapping without any language's own rules:

* U+0130 becomes an `i` and a combining dot;
* a capital sigma becomes a final sigma where it **ends a word**: the nearest
  character before it that is not case-ignorable is cased, and the nearest one
  after it is not;
* every other character goes where `lowerRuns` says.

Two texts are **alike** when their lower-cased forms are equal.  Names and
values are compared in this way throughout.  `alike_refl`, `alike_symm` and
`alike_trans` say that it is an equivalence.
-/

namespace Tagline

namespace Text

/-- The property `Cased`. -/
def isCased (c : Char) : Bool :=
  inRanges casedRanges c.toNat

/-- The property `Case_Ignorable`. -/
def isCaseIgnorable (c : Char) : Bool :=
  inRanges caseIgnorableRanges c.toNat

/-- The lower-case form of a character that stands alone. -/
def lowerChar (c : Char) : Text :=
  if c = '\u0130' then ['i', '\u0307'] else [Char.ofNat (imageIn lowerRuns c.toNat)]

/-- The upper-case form of a character where that is one character, and the
character itself where it is not. -/
def upperChar (c : Char) : Char :=
  Char.ofNat (imageIn upperRuns c.toNat)

/-- Whether the first character that is not case-ignorable is cased. -/
def meetsCased (t : Text) : Bool :=
  match t.dropWhile isCaseIgnorable with
  | [] => false
  | c :: _ => isCased c

/-- Whether a sigma with `before` (nearest character first) in front of it and
`after` behind it ends a word. -/
def endsWord (before after : Text) : Bool :=
  meetsCased before && !meetsCased after

/-- Lower-cases a text that follows `before` (nearest character first). -/
def lowerAfter (before : Text) : Text → Text
  | [] => []
  | c :: t =>
      (if c = 'Σ' then [if endsWord before t then 'ς' else 'σ'] else lowerChar c)
        ++ lowerAfter (c :: before) t

/-- The lower-cased form of a text. -/
def lower (t : Text) : Text :=
  lowerAfter [] t

/-- Two texts are alike when they differ at most in case. -/
def alike (s t : Text) : Bool :=
  lower s == lower t

@[simp] theorem lower_nil : lower [] = [] := rfl

/-- Texts are alike if they have one form in lower case. -/
theorem alike_iff {s t : Text} : alike s t = true ↔ lower s = lower t := by
  simp [alike]

@[simp] theorem alike_refl (t : Text) : alike t t = true := by
  simp [alike]

theorem alike_symm {s t : Text} (h : alike s t = true) : alike t s = true :=
  alike_iff.2 (alike_iff.1 h).symm

theorem alike_comm (s t : Text) : alike s t = alike t s :=
  Bool.eq_iff_iff.2 ⟨alike_symm, alike_symm⟩

theorem alike_trans {s t u : Text} (h : alike s t = true) (h' : alike t u = true) :
    alike s u = true :=
  alike_iff.2 ((alike_iff.1 h).trans (alike_iff.1 h'))

end Text

end Tagline
