import Tagline.Text.Basic

/-!
# Blank characters, words and lines

A character is **blank** when it has the Unicode property `White_Space`.  This
module trims texts, cuts them into words and reads them line by line.

`trimStart_append` and `trimEnd_append` say that trimming takes blanks off, and nothing
else.
-/

namespace Tagline

namespace Text

/-- The property `White_Space`: the characters with code points 9 to 13, the
space, U+0085, U+00A0, U+1680, U+2000 to U+200A, U+2028, U+2029, U+202F, U+205F
and U+3000. -/
def isBlank (c : Char) : Bool :=
  let n := c.toNat
  n == 0x20 || (0x9 ≤ n && n ≤ 0xD) || n == 0x85 || n == 0xA0 || n == 0x1680 ||
    (0x2000 ≤ n && n ≤ 0x200A) || n == 0x2028 || n == 0x2029 || n == 0x202F ||
    n == 0x205F || n == 0x3000

/-- Drops the blanks at the start. -/
def trimStart (t : Text) : Text :=
  t.dropWhile isBlank

/-- Drops the blanks at the end. -/
def trimEnd (t : Text) : Text :=
  (t.reverse.dropWhile isBlank).reverse

/-- Drops the blanks at both ends. -/
def trim (t : Text) : Text :=
  trimStart (trimEnd t)

/-- A text of blanks only. -/
def allBlank (t : Text) : Bool :=
  t.all isBlank

/-- The words of a text: its longest parts without a blank. -/
def words (t : Text) : List Text :=
  (piecesWhere isBlank t).filter fun w => !w.isEmpty

/-- Drops a carriage return at the end. -/
def dropReturn (t : Text) : Text :=
  if t.getLast? = some '\r' then t.dropLast else t

/-- The lines of a text.  A line feed ends a line, together with one carriage
return in front of it; what follows the last line feed is a line if it is not
empty. -/
def lines (t : Text) : List Text :=
  let ps := piecesWhere (· == '\n') t
  ps.dropLast.map dropReturn ++ (ps.getLast?.toList.filter fun l => !l.isEmpty)

/-- The head of what `dropWhile` leaves fails the test. -/
theorem dropWhile_head_false (p : Char → Bool) {t : Text} {c : Char} {rest : Text}
    (h : t.dropWhile p = c :: rest) : p c = false := by
  have hhead := List.head?_dropWhile_not p t
  rwa [h] at hhead

/-- What is trimmed off the end is blank, and nothing else is changed. -/
theorem trimEnd_append (t : Text) :
    ∃ tail, t = trimEnd t ++ tail ∧ ∀ c ∈ tail, isBlank c = true := by
  refine ⟨(t.reverse.takeWhile isBlank).reverse, ?_, ?_⟩
  · unfold trimEnd
    rw [← List.reverse_append, List.takeWhile_append_dropWhile, List.reverse_reverse]
  · intro c hc
    exact List.all_eq_true.1 (List.all_takeWhile (l := t.reverse) (p := isBlank)) c
      (List.mem_reverse.1 hc)

/-- What is trimmed off the start is blank, and nothing else is changed. -/
theorem trimStart_append (t : Text) :
    ∃ lead, t = lead ++ trimStart t ∧ ∀ c ∈ lead, isBlank c = true := by
  refine ⟨t.takeWhile isBlank, ?_, ?_⟩
  · exact (List.takeWhile_append_dropWhile (l := t) (p := isBlank)).symm
  · intro c hc
    exact List.all_eq_true.1 (List.all_takeWhile (l := t) (p := isBlank)) c hc

end Text

end Tagline
