import Tagline.Text.Blank

/-!
# The prefix of a tag line

A tag line begins with a single hash (`#Exercise/Run`) or with a heading of the
third level (`### Exercise/Run`).  Deeper headings and doubled hashes are
ordinary text.
-/

namespace Tagline

namespace Prefix

/-- The heading that introduces a tag line. -/
def heading : Text := "### "

/-- What follows a single hash at the start. -/
def afterHash? : Text → Option Text
  | '#' :: '#' :: _ => none
  | '#' :: t => some t
  | _ => none

/-- What follows the prefix and the blanks after it, if the line is a tag line. -/
def strip? (line : Text) : Option Text :=
  match Text.dropLead? heading line with
  | some t => some (Text.trimStart t)
  | none => (afterHash? line).map Text.trimStart

/-- The number of characters in the prefix and the blanks after it. -/
def length? (line : Text) : Option Nat :=
  (strip? line).map fun body => line.length - body.length

/-- The prefix with the blanks after it, and what follows. -/
def split? (line : Text) : Option (Text × Text) :=
  (strip? line).map fun body => (line.take (line.length - body.length), body)

theorem afterHash?_eq_some {line t : Text} (h : afterHash? line = some t) :
    line = '#' :: t := by
  unfold afterHash? at h
  split at h <;> simp_all

/-- What is stripped stands in front of what is left. -/
theorem strip?_suffix {line body : Text} (h : strip? line = some body) :
    ∃ lead, line = lead ++ body := by
  unfold strip? at h
  split at h
  · next t heq =>
      obtain ⟨blanks, hb, _⟩ := Text.trimStart_append t
      injection h with h
      refine ⟨heading ++ blanks, ?_⟩
      rw [Text.eq_append_of_dropLead? heq, List.append_assoc, ← h, ← hb]
  · obtain ⟨t, ht, hbody⟩ := Option.map_eq_some_iff.1 h
    obtain ⟨blanks, hb, _⟩ := Text.trimStart_append t
    refine ⟨'#' :: blanks, ?_⟩
    rw [afterHash?_eq_some ht, ← hbody, List.cons_append, ← hb]

/-- **Splitting loses nothing.** -/
theorem split?_append {line lead body : Text} (h : split? line = some (lead, body)) :
    lead ++ body = line := by
  obtain ⟨b, hb, heq⟩ := Option.map_eq_some_iff.1 h
  simp only [Prod.mk.injEq] at heq
  obtain ⟨hlead, rfl⟩ := heq
  obtain ⟨l, rfl⟩ := strip?_suffix hb
  rw [← hlead]
  simp

end Prefix

end Tagline
