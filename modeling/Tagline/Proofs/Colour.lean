import Tagline.Colour
import Tagline.Proofs.Text.Overlap

/-!
# Colours leave the text alone

A terminal takes every escape sequence, from its first character through the next `m`, for
a command and shows the rest.  A sequence that switches a colour on or off ends where it
should, and the parts of a line, being free of the first character of a sequence, are
shown as they are.  So what is shown of a painted text is the text, whatever stands
behind it, and a line that is put together from painted parts is shown part by part.

* `visible_append`, `visible_sequence` — what is shown of a text and of a sequence;
* `Style.visible_paint` — a painted text is shown;
* `visible_highlight` — so is a line in colour.
-/

namespace Tagline

/-! ## What is shown -/

/-- What a terminal shows of a text, once it is `inside` an escape sequence or not. -/
def visibleFrom (inside : Bool) : Text → Text
  | [] => []
  | c :: t =>
      if inside then visibleFrom (c != 'm') t
      else if c = escapeChar then visibleFrom true t
      else c :: visibleFrom false t

/-- A text without its escape sequences. -/
def visible (t : Text) : Text :=
  visibleFrom false t

/-- What begins no sequence is shown, whatever follows. -/
theorem visible_append {t : Text} (h : escapeChar ∉ t) (rest : Text) :
    visible (t ++ rest) = t ++ visible rest := by
  induction t with
  | nil => rfl
  | cons c t ih =>
      rw [List.mem_cons, not_or] at h
      have hc : c ≠ escapeChar := Ne.symm h.1
      have hcons : visible (c :: (t ++ rest)) = c :: visible (t ++ rest) := by
        simp [visible, visibleFrom, hc]
      rw [List.cons_append, hcons, ih h.2, List.cons_append]

/-- A text in which no sequence begins is shown as it is. -/
theorem visible_of_not_mem {t : Text} (h : escapeChar ∉ t) : visible t = t := by
  have hend : visible [] = [] := rfl
  have happend := visible_append h []
  rwa [hend, List.append_nil] at happend

/-- **A sequence is not shown**, and it ends with its first `m`. -/
theorem visible_sequence {parameters : Text} (h : 'm' ∉ parameters) (rest : Text) :
    visible (escapeChar :: (parameters ++ 'm' :: rest)) = visible rest := by
  have hinside : visibleFrom true (parameters ++ 'm' :: rest) = visible rest := by
    induction parameters with
    | nil => rfl
    | cons c parameters ih =>
        rw [List.mem_cons, not_or] at h
        have hc : (c != 'm') = true := bne_iff_ne.2 (Ne.symm h.1)
        have hstays : visibleFrom true (c :: (parameters ++ 'm' :: rest))
            = visibleFrom true (parameters ++ 'm' :: rest) := by
          simp only [visibleFrom, hc, if_true]
        rw [List.cons_append, hstays, ih h.2]
  rw [← hinside]
  simp [visible, visibleFrom]

/-! ## Painted texts -/

namespace Style

/-- The sequence that ends a style is not shown. -/
theorem visible_reset (rest : Text) : visible (reset ++ rest) = visible rest := by
  have hend : 'm' ∉ ['[', '0'] := by decide
  exact visible_sequence hend rest

theorem visible_start (s : Style) (rest : Text) : visible (s.start ++ rest) = visible rest := by
  have hend : 'm' ∉ '[' :: s.parameters := by cases s <;> decide
  have hsequence : s.start ++ rest
      = escapeChar :: (('[' :: s.parameters) ++ 'm' :: rest) := by
    simp [start]
  rw [hsequence, visible_sequence hend]

/-- A text that does not switch colours off is painted in one piece. -/
theorem paint_of_not_mem {t : Text} (h : escapeChar ∉ t) (s : Style) :
    s.paint t = s.start ++ t ++ reset := by
  have hpiece : Text.pieces reset t = [t] :=
    Text.pieces_of_not_isInfix fun hreset => h (hreset.subset List.mem_cons_self)
  rw [paint, hpiece, List.intercalate_singleton]

/-- **A painted text is shown**, and what follows it as if it stood alone. -/
theorem visible_paint {t : Text} (h : escapeChar ∉ t) (s : Style) (rest : Text) :
    visible (s.paint t ++ rest) = t ++ visible rest := by
  rw [paint_of_not_mem h, List.append_assoc, List.append_assoc, visible_start,
    visible_append h, visible_reset]

end Style

/-! ## Lines -/

/-- The parts of a body are shown one behind the other. -/
theorem visible_paintBody {body : Text} (h : escapeChar ∉ body) :
    visible (paintBody body) = body := by
  have hbody := List.takeWhile_append_dropWhile (p := fun c => !Text.isBlank c) (l := body)
  unfold paintBody
  generalize body.takeWhile (fun c => !Text.isBlank c) = head at hbody
  generalize body.dropWhile (fun c => !Text.isBlank c) = rest at hbody
  subst hbody
  rw [List.mem_append, not_or] at h
  obtain ⟨hhead, hrest⟩ := h
  dsimp only
  split
  · next database type hcut =>
      obtain ⟨rfl, _⟩ := Text.cutAt_eq_some hcut
      simp only [List.mem_append, List.mem_cons, not_or] at hhead
      obtain ⟨hdatabase, hslash, htype⟩ := hhead
      have hsep : escapeChar ∉ ['/'] := by simpa using hslash
      have hline : Style.boldCyan.paint database ++ '/' :: Style.green.paint type ++ rest
          = Style.boldCyan.paint database ++ (['/'] ++ (Style.green.paint type ++ rest)) := by
        simp
      rw [hline, Style.visible_paint hdatabase, visible_append hsep, Style.visible_paint htype,
        visible_of_not_mem hrest]
      simp
  · rw [Style.visible_paint hhead, visible_of_not_mem hrest]

/-- **Colours leave the text alone.**  What is shown of a line in colour is the line, if the
line holds no character that begins an escape sequence.  A line that is no tag line is not
painted at all, whatever it holds. -/
theorem visible_highlight (line : Text) :
    (escapeChar ∉ line → visible (highlight line) = line) ∧
      (Prefix.strip? line = none → highlight line = line) := by
  constructor
  · intro hescape
    unfold highlight
    split
    · exact visible_of_not_mem hescape
    · next lead body hsplit =>
        obtain rfl := Prefix.split?_append hsplit
        rw [List.mem_append, not_or] at hescape
        rw [Style.visible_paint hescape.1, visible_paintBody hescape.2]
  · intro hplain
    rw [highlight, Prefix.split?, hplain, Option.map_none]

/-- A heading with blanks of several kinds behind it, two slashes and an empty type, and a
line with two hashes that brings a sequence of its own. -/
theorem visible_highlight_meal :
    visible (highlight "###  \tMeal//m 30; warm") = "###  \tMeal//m 30; warm".toList ∧
      highlight "###  \tMeal//m 30; warm" ≠ "###  \tMeal//m 30; warm".toList ∧
      highlight "## \x1b[32mMeal" = "## \x1b[32mMeal".toList := by
  obtain ⟨hshown, _⟩ := visible_highlight "###  \tMeal//m 30; warm"
  obtain ⟨_, hplain⟩ := visible_highlight "## \x1b[32mMeal"
  exact ⟨hshown (by decide), by decide +kernel, hplain (by decide)⟩

end Tagline
