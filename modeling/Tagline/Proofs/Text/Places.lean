import Tagline.Proofs.Text.Pieces

/-!
# Places in a text

Places on a line are byte offsets.  An offset between two characters, or at an end, is
a **boundary**; it cuts the text in two, and at any other offset there is no cut.  A
slice takes two boundaries in their order.  Reading a text through its offsets is the
same as reading it as a list of characters, as long as every offset is the length of
what stands in front of it.

The second half is about the ends of texts: what follows the last separator is the last
piece of a cut, and the text ends with it.

* `splitAtByte?_eq_some` — the boundaries, and the two parts at each;
* `slice?_append` — the slice of a part between its ends;
* `getD_afterLast?`, `getLast_pieces_suffix` — the last piece, and that a text ends with it.
-/

namespace Tagline

/-- A difference that is not below zero. -/
def sub? (m n : Nat) : Option Nat :=
  if n ≤ m then some (m - n) else none

theorem sub?_add (m n : Nat) : sub? (m + n) n = some m := by
  simp [sub?]

namespace Text

/-! ## Cuts at byte offsets -/

/-- The two parts of a text at a byte offset, if that is a boundary. -/
def splitAtByte? (n : Nat) : Text → Option (Text × Text)
  | [] => if n = 0 then some ([], []) else none
  | c :: t =>
      if n = 0 then some ([], c :: t)
      else if c.utf8Size ≤ n then
        (splitAtByte? (n - c.utf8Size) t).map fun (before, after) => (c :: before, after)
      else none

/-- What stands in front of a boundary. -/
def upTo? (n : Nat) (t : Text) : Option Text :=
  (splitAtByte? n t).map Prod.fst

/-- What stands behind a boundary. -/
def from? (n : Nat) (t : Text) : Option Text :=
  (splitAtByte? n t).map Prod.snd

/-- What stands between two boundaries. -/
def slice? (start stop : Nat) (t : Text) : Option Text :=
  (upTo? stop t).bind (from? start)

/-- A byte offset at an end of a text or between two of its characters. -/
def IsBoundary (n : Nat) (t : Text) : Prop :=
  ∃ before after, t = before ++ after ∧ n = bytes before

/-- The length of a beginning cuts it off. -/
@[simp] theorem splitAtByte?_append (before after : Text) :
    splitAtByte? (bytes before) (before ++ after) = some (before, after) := by
  induction before with
  | nil => cases after <;> simp [splitAtByte?]
  | cons c before ih =>
      have hpos := c.utf8Size_pos
      rw [List.cons_append, bytes_cons, splitAtByte?, if_neg (by omega), if_pos (by omega),
        Nat.add_sub_cancel_left, ih]
      rfl

/-- **An offset cuts a text in two** if it is the length of a beginning. -/
theorem splitAtByte?_eq_some {n : Nat} {t before after : Text} :
    splitAtByte? n t = some (before, after) ↔ t = before ++ after ∧ n = bytes before := by
  constructor
  · intro h
    induction t generalizing n before with
    | nil =>
        rw [splitAtByte?, Option.ite_none_right_eq_some, Option.some.injEq, Prod.mk.injEq] at h
        obtain ⟨hn, rfl, rfl⟩ := h
        exact ⟨rfl, hn⟩
    | cons c t ih =>
        rw [splitAtByte?] at h
        split at h
        · next hn =>
            rw [Option.some.injEq, Prod.mk.injEq] at h
            obtain ⟨rfl, rfl⟩ := h
            exact ⟨rfl, hn⟩
        · rw [Option.ite_none_right_eq_some, Option.map_eq_some_iff] at h
          obtain ⟨hle, ⟨front, back⟩, hrest, heq⟩ := h
          rw [Prod.mk.injEq] at heq
          obtain ⟨rfl, rfl⟩ := heq
          obtain ⟨rfl, hn⟩ := ih hrest
          exact ⟨rfl, by rw [bytes_cons]; omega⟩
  · rintro ⟨rfl, rfl⟩
    exact splitAtByte?_append before after

@[simp] theorem upTo?_append (before after : Text) :
    upTo? (bytes before) (before ++ after) = some before := by
  simp [upTo?]

@[simp] theorem from?_append (before after : Text) :
    from? (bytes before) (before ++ after) = some after := by
  simp [from?]

/-- **A part is the slice between its ends.** -/
theorem slice?_append (before part after : Text) :
    slice? (bytes before) (bytes (before ++ part)) (before ++ part ++ after) = some part := by
  rw [slice?, upTo?_append, Option.bind_some, from?_append]

/-- The length of a beginning is a boundary. -/
theorem isBoundary_append (before after : Text) : IsBoundary (bytes before) (before ++ after) :=
  ⟨before, after, rfl, rfl⟩

/-- The offset of a number of characters is a boundary, at the end of the text if there
are not so many. -/
theorem upTo?_take (k : Nat) (t : Text) : upTo? (bytes (t.take k)) t = some (t.take k) := by
  have hcut : splitAtByte? (bytes (t.take k)) t = some (t.take k, t.drop k) :=
    splitAtByte?_eq_some.2 ⟨(List.take_append_drop k t).symm, rfl⟩
  rw [upTo?, hcut, Option.map_some]

/-- As many bytes as a beginning has are the beginning. -/
theorem takeBytes_append (before after : Text) :
    takeBytes (bytes before) (before ++ after) = before := by
  induction before with
  | nil =>
      cases after with
      | nil => rfl
      | cons c after =>
          have hpos := c.utf8Size_pos
          rw [List.nil_append, takeBytes, bytes_nil, if_neg (by omega)]
  | cons c before ih =>
      rw [List.cons_append, takeBytes, bytes_cons, if_pos (Nat.le_add_right _ _),
        Nat.add_sub_cancel_left, ih]

/-! ## Ends -/

/-- A text ends with what is left of it without the blanks in front. -/
theorem trimStart_suffix (t : Text) : trimStart t <:+ t :=
  List.dropWhile_suffix _

/-- A text ends with what follows a separator. -/
theorem afterLast?_suffix {sep t rest : Text} (h : afterLast? sep t = some rest) :
    rest <:+ t := by
  induction t with
  | nil => cases h
  | cons c t ih =>
      rw [afterLast?] at h
      split at h
      · next found heq =>
          rw [← h] at ih
          exact (ih heq).trans (List.suffix_cons c t)
      · exact ⟨sep, (eq_append_of_dropLead? h).symm⟩

/-- A separator in front does not matter where there is a later one. -/
theorem afterLast?_append (x : Char) (t u : Text) :
    afterLast? [x] (t ++ x :: u) = some ((afterLast? [x] u).getD u) := by
  induction t with
  | nil =>
      rw [List.nil_append, afterLast?]
      cases afterLast? [x] u <;> simp [dropLead?]
  | cons c t ih => rw [List.cons_append, afterLast?, ih]

/-- **What follows the last separator is the last piece.** -/
theorem getD_afterLast? {x : Char} {t p : Text} {ps : List Text}
    (h : pieces [x] t = ps ++ [p]) : (afterLast? [x] t).getD t = p := by
  have hfree : x ∉ p := not_mem_of_mem_pieces (h ▸ List.mem_append_right _ (by simp))
  have hjoin : [x].intercalate (pieces [x] t) = t := intercalate_pieces (by simp) t
  rw [← hjoin, h]
  clear h hjoin
  induction ps with
  | nil =>
      have hnone : ∀ u, x ∉ u → afterLast? [x] u = none := by
        intro u hu
        induction u with
        | nil => rfl
        | cons c u ih =>
            rw [List.mem_cons, not_or] at hu
            rw [afterLast?, ih hu.2]
            exact if_neg hu.1
      simp [hnone p hfree]
  | cons q ps ih =>
      rw [List.cons_append, List.intercalate_cons_of_ne_nil (List.concat_ne_nil _ _),
        List.append_assoc, List.singleton_append, afterLast?_append, Option.getD_some]
      exact ih

/-- A text that is cut into one piece is that piece. -/
theorem eq_of_piecesFrom_eq_singleton {sep t p : Text} {k : Nat}
    (h : piecesFrom sep k t = [p]) : p = t.drop k := by
  induction t generalizing k p with
  | nil => cases k <;> simpa [piecesFrom, eq_comm] using h
  | cons c t ih =>
      cases k with
      | succ k => simpa using ih h
      | zero =>
          rw [piecesFrom] at h
          split at h
          · simp only [List.cons.injEq] at h
            exact absurd h.2 (piecesFrom_ne_nil _ _ _)
          · cases hrest : piecesFrom sep 0 t with
            | nil => exact absurd hrest (piecesFrom_ne_nil _ _ _)
            | cons q qs =>
                rw [hrest, consHead, List.cons.injEq] at h
                obtain ⟨rfl, rfl⟩ := h
                rw [ih hrest]
                rfl

/-- **A text ends with its last piece.** -/
theorem getLast_piecesFrom_suffix {sep t p : Text} {k : Nat}
    (h : (piecesFrom sep k t).getLast? = some p) : p <:+ t := by
  induction t generalizing k with
  | nil =>
      obtain rfl : p = [] := by
        cases k <;> simpa [piecesFrom, eq_comm] using h
      exact List.suffix_rfl
  | cons c t ih =>
      cases k with
      | succ k => exact (ih h).trans (List.suffix_cons c t)
      | zero =>
          cases hrest : piecesFrom sep 0 t with
          | nil => exact absurd hrest (piecesFrom_ne_nil _ _ _)
          | cons q qs =>
              rw [piecesFrom] at h
              split at h
              · have hne := piecesFrom_ne_nil sep (sep.length - 1) t
                rw [List.getLast?_cons_of_ne_nil hne] at h
                exact (ih h).trans (List.suffix_cons c t)
              · rw [hrest, consHead] at h
                cases qs with
                | nil =>
                    rw [eq_of_piecesFrom_eq_singleton hrest] at h
                    simp only [List.drop_zero, List.getLast?_singleton, Option.some.injEq] at h
                    subst h
                    exact List.suffix_rfl
                | cons q' qs =>
                    have hlast : (piecesFrom sep 0 t).getLast? = some p := by
                      rw [hrest, ← h, List.getLast?_cons_cons, List.getLast?_cons_cons]
                    exact (ih hlast).trans (List.suffix_cons c t)

/-- **A text ends with its last piece.** -/
theorem getLast_pieces_suffix (sep : Text) {t p : Text} (h : (pieces sep t).getLast? = some p) :
    p <:+ t :=
  getLast_piecesFrom_suffix h

end Text

end Tagline
