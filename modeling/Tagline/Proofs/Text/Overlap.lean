import Tagline.Proofs.Text.Places

/-!
# Separators that overlap

A separator of several characters can overlap with itself: `a---b` holds `--` in two places.
The places where a text is cut are found from the left, so it is cut into `a` and `-b`; the
rightmost place, which `afterLast?` looks for, leaves `b`.

Two such places are two ways to write one text, `u ++ sep = sep ++ v` (`Overlap`).  Since no
piece holds the separator, a place that is no cut overlaps with one.  So the overlaps say all
about what two ways of looking for the separator do not agree in: how much of the last piece
the rightmost place takes away, and where a text is cut when the separator is put behind it.

* `not_infix_of_mem_pieces`, `pieces_of_not_isInfix` — pieces do not hold the separator, and a
  text that does not is one piece;
* `pieces_append_last` — what is put behind a text is cut together with its last piece;
* `exists_afterLast?` — what the rightmost place leaves of the last piece;
* `exists_pieces_append_self` — the two pieces of a text and the separator behind it.
-/

namespace Tagline

namespace Text

variable {sep t u p : Text} {ps : List Text}

/-- A beginning can be dropped if it stands in front. -/
theorem dropLead?_isSome_iff : (dropLead? sep t).isSome = true ↔ sep <+: t := by
  constructor
  · intro h
    obtain ⟨rest, hrest⟩ := Option.isSome_iff_exists.1 h
    exact ⟨rest, (eq_append_of_dropLead? hrest).symm⟩
  · rintro ⟨rest, rfl⟩
    simp

/-! ## Cuts from the left -/

/-- A text that begins with the separator is cut behind it. -/
theorem piecesFrom_of_isPrefix {c : Char} (h : sep <+: c :: t) :
    piecesFrom sep 0 (c :: t) = [] :: piecesFrom sep (sep.length - 1) t :=
  if_pos (dropLead?_isSome_iff.2 h)

/-- In any other text the first character belongs to the first piece. -/
theorem piecesFrom_of_not_isPrefix {c : Char} (h : ¬ sep <+: c :: t) :
    piecesFrom sep 0 (c :: t) = consHead c (piecesFrom sep 0 t) :=
  if_neg (mt dropLead?_isSome_iff.1 h)

/-- Characters that are still to come are passed. -/
theorem piecesFrom_eq_pieces_drop (k : Nat) (t : Text) :
    piecesFrom sep k t = pieces sep (t.drop k) := by
  induction t generalizing k with
  | nil => cases k <;> rfl
  | cons c t ih =>
      cases k with
      | zero => rfl
      | succ k => exact ih k

/-- A text in which the separator does not stand is one piece. -/
theorem pieces_of_not_isInfix (h : ¬ sep <:+: t) : pieces sep t = [t] := by
  induction t with
  | nil => rfl
  | cons c t ih =>
      have htail : ¬ sep <:+: t := fun hin => h (hin.trans (List.suffix_cons c t).isInfix)
      rw [pieces, piecesFrom_of_not_isPrefix fun hpre => h hpre.isInfix, ← pieces, ih htail]
      rfl

/-- The first piece stands at the start of the text, so a separator at its start would have
been cut at. -/
theorem not_infix_of_mem_piecesFrom (hsep : sep ≠ []) (t : Text) :
    ∀ k, ∀ p ∈ piecesFrom sep k t, ¬ sep <:+: p := by
  have hnil : ¬ sep <:+: [] := fun h => hsep (List.infix_nil.1 h)
  induction t with
  | nil =>
      intro k p hp
      obtain rfl : p = [] := by cases k <;> simpa [piecesFrom] using hp
      exact hnil
  | cons c t ih =>
      intro k p hp
      cases k with
      | succ k => exact ih k p hp
      | zero =>
          by_cases hpre : sep <+: c :: t
          · rw [piecesFrom_of_isPrefix hpre] at hp
            rcases List.mem_cons.1 hp with rfl | hp
            · exact hnil
            · exact ih _ p hp
          · obtain ⟨q, qs, hq⟩ := List.exists_cons_of_ne_nil (piecesFrom_ne_nil sep 0 t)
            rw [piecesFrom_of_not_isPrefix hpre, hq, consHead] at hp
            rcases List.mem_cons.1 hp with rfl | hp
            · rw [List.infix_cons_iff, not_or]
              refine ⟨fun hfirst => hpre (hfirst.trans ?_), ih 0 q (hq ▸ List.mem_cons_self)⟩
              exact List.cons_prefix_cons.2
                ⟨rfl, (infix_of_mem_piecesFrom sep t).1 q (by simp [hq])⟩
            · exact ih 0 p (hq ▸ List.mem_cons_of_mem _ hp)

/-- **No piece holds the separator.** -/
theorem not_infix_of_mem_pieces (hsep : sep ≠ []) (hp : p ∈ pieces sep t) : ¬ sep <:+: p :=
  not_infix_of_mem_piecesFrom hsep t 0 p hp

/-- A text of two pieces or more holds the separator. -/
theorem infix_of_pieces_cons_cons {q : Text} (h : pieces sep t = p :: q :: ps) : sep <:+: t := by
  by_contra hnot
  rw [pieces_of_not_isInfix hnot] at h
  cases h

/-- **What is put behind a text is cut together with its last piece.**  A place in front of
that piece stays one, and there is no room for another. -/
theorem pieces_append_last (u : Text) (h : pieces sep t = ps ++ [p]) :
    pieces sep (t ++ u) = ps ++ pieces sep (p ++ u) := by
  have hgeneral : ∀ (t : Text) (k : Nat) (ps : List Text), k ≤ t.length →
      piecesFrom sep k t = ps ++ [p] → piecesFrom sep k (t ++ u) = ps ++ pieces sep (p ++ u) := by
    intro t
    induction t with
    | nil =>
        intro k ps hk hps
        obtain rfl : k = 0 := Nat.le_zero.1 hk
        obtain ⟨rfl, rfl⟩ : ps = [] ∧ p = [] := by
          cases ps with
          | nil => exact ⟨rfl, (List.cons.inj hps).1.symm⟩
          | cons q qs => simp [piecesFrom] at hps
        rfl
    | cons c t ih =>
        intro k ps hk hps
        cases k with
        | succ k => exact ih k ps (Nat.le_of_succ_le_succ hk) hps
        | zero =>
            by_cases hpre : sep <+: c :: t
            · have hlength := hpre.length_le
              rw [List.length_cons] at hlength
              rw [piecesFrom_of_isPrefix hpre] at hps
              cases ps with
              | nil =>
                  rw [List.nil_append, List.cons.injEq] at hps
                  exact absurd hps.2 (piecesFrom_ne_nil _ _ _)
              | cons q qs =>
                  rw [List.cons_append, List.cons.injEq] at hps
                  obtain ⟨rfl, hqs⟩ := hps
                  have hpre' : sep <+: c :: (t ++ u) :=
                    hpre.trans (List.prefix_append (c :: t) u)
                  rw [List.cons_append, piecesFrom_of_isPrefix hpre', ih _ qs (by omega) hqs]
                  rfl
            · rw [piecesFrom_of_not_isPrefix hpre] at hps
              obtain ⟨q, qs, hq⟩ := List.exists_cons_of_ne_nil (piecesFrom_ne_nil sep 0 t)
              rw [hq, consHead] at hps
              cases ps with
              | nil =>
                  -- The text is one piece, and so it is the last one.
                  rw [List.nil_append, List.cons.injEq] at hps
                  obtain ⟨rfl, rfl⟩ := hps
                  rw [eq_of_piecesFrom_eq_singleton hq]
                  rfl
              | cons q' qs' =>
                  rw [List.cons_append, List.cons.injEq] at hps
                  obtain ⟨rfl, rfl⟩ := hps
                  -- A separator stands in the tail, so none can reach from here into `u`.
                  have hin : sep <:+: t := by
                    obtain ⟨q'', qs'', hmore⟩ :=
                      List.exists_cons_of_ne_nil (List.concat_ne_nil p qs')
                    exact infix_of_pieces_cons_cons (hq.trans (congrArg _ hmore))
                  have hnot : ¬ sep <+: c :: (t ++ u) := fun hfirst =>
                    hpre (List.prefix_of_prefix_length_le hfirst
                      (List.prefix_append (c :: t) u)
                      (hin.length_le.trans (Nat.le_succ t.length)))
                  rw [List.cons_append, piecesFrom_of_not_isPrefix hnot,
                    ih 0 (q :: qs') (Nat.zero_le _) hq]
                  rfl
  exact hgeneral t 0 ps (Nat.zero_le _) h

/-! ## Overlaps -/

/-- The separator stands at the start of a text and at its end, behind `u` and in front of
`v`.  The two places overlap if `u` is shorter than the separator. -/
def Overlap (sep u v : Text) : Prop :=
  u ++ sep = sep ++ v

instance (sep u v : Text) : Decidable (Overlap sep u v) :=
  inferInstanceAs (Decidable (u ++ sep = sep ++ v))

/-- Both sides of an overlap are equally long. -/
theorem Overlap.length_eq {v : Text} (h : Overlap sep u v) : u.length = v.length := by
  have hlength := congrArg List.length h
  rw [List.length_append, List.length_append] at hlength
  omega

/-- **A text with the separator behind it** is cut in two.  The cut is where the longest end
of the text begins with which the separator overlaps, and what the separator leaves then is
the second piece. -/
theorem exists_pieces_append_self (hsep : sep ≠ []) (h : ¬ sep <:+: t) :
    ∃ front u v, t = front ++ u ∧ pieces sep (t ++ sep) = [front, v] ∧ Overlap sep u v ∧
      ∀ u' v', u' <:+ t → Overlap sep u' v' → u'.length ≤ u.length := by
  induction t with
  | nil =>
      refine ⟨[], [], [], rfl, ?_, by simp [Overlap], fun u' v' hu' _ => hu'.length_le⟩
      obtain ⟨a, sep, rfl⟩ := List.exists_cons_of_ne_nil hsep
      rw [List.nil_append, pieces, piecesFrom_of_isPrefix List.prefix_rfl,
        piecesFrom_eq_pieces_drop]
      simp [pieces, piecesFrom]
  | cons c t ih =>
      by_cases hpre : sep <+: c :: (t ++ sep)
      · -- The separator begins with the first character and reaches into the one behind.
        obtain ⟨v, hv⟩ := hpre
        have hoverlap : Overlap sep (c :: t) v := hv.symm
        have hlength := hoverlap.length_eq
        have hshort : v.length < sep.length := by
          by_contra hlong
          have hwhole : sep <+: c :: t :=
            List.prefix_of_prefix_length_le ⟨v, hv⟩ (List.prefix_append (c :: t) sep) (by omega)
          exact h hwhole.isInfix
        have hrest : (t ++ sep).drop (sep.length - 1) = v := by
          obtain ⟨a, sep, rfl⟩ := List.exists_cons_of_ne_nil hsep
          obtain ⟨rfl, htail⟩ := List.cons.inj hv
          rw [← htail]
          simp
        have hone : pieces sep v = [v] :=
          pieces_of_not_isInfix fun hin => absurd hin.length_le (by omega)
        refine ⟨[], c :: t, v, rfl, ?_, hoverlap, fun u' v' hu' _ => hu'.length_le⟩
        rw [List.cons_append, pieces, piecesFrom_of_isPrefix ⟨v, hv⟩, piecesFrom_eq_pieces_drop,
          hrest, hone]
      · obtain ⟨front, u, v, rfl, hpieces, hoverlap, hlongest⟩ :=
          ih fun hin => h (hin.trans (List.suffix_cons c t).isInfix)
        refine ⟨c :: front, u, v, rfl, ?_, hoverlap, fun u' v' hu' hoverlap' => ?_⟩
        · rw [List.cons_append, pieces, piecesFrom_of_not_isPrefix hpre, ← pieces, hpieces]
          rfl
        · rcases List.suffix_cons_iff.1 hu' with rfl | hu'
          · exact absurd ⟨v', hoverlap'.symm⟩ hpre
          · exact hlongest u' v' hu' hoverlap'

/-! ## The rightmost place -/

/-- The last separator stands in front of what follows it. -/
theorem append_suffix_of_afterLast? {rest : Text} (h : afterLast? sep t = some rest) :
    sep ++ rest <:+ t := by
  induction t with
  | nil => cases h
  | cons c t ih =>
      rw [afterLast?] at h
      split at h
      · next found hfound =>
          obtain rfl := Option.some.inj h
          exact (ih hfound).trans (List.suffix_cons c t)
      · exact ⟨[], (eq_append_of_dropLead? h).symm⟩

/-- Where no separator stands nothing follows one. -/
theorem afterLast?_of_not_isInfix (h : ¬ sep <:+: t) : afterLast? sep t = none := by
  cases hlast : afterLast? sep t with
  | none => rfl
  | some rest =>
      exact absurd ((List.prefix_append sep rest).isInfix.trans
        (append_suffix_of_afterLast? hlast).isInfix) h

/-- What follows the rightmost place ends what follows any other. -/
theorem exists_afterLast?_suffix (hsep : sep ≠ []) (front rest : Text) :
    ∃ q, afterLast? sep (front ++ (sep ++ rest)) = some q ∧ q <:+ rest := by
  induction front with
  | nil =>
      obtain ⟨a, sep, rfl⟩ := List.exists_cons_of_ne_nil hsep
      rw [List.nil_append, List.cons_append, afterLast?]
      cases hlast : afterLast? (a :: sep) (sep ++ rest) with
      | none =>
          refine ⟨rest, ?_, List.suffix_rfl⟩
          exact dropLead?_append (a :: sep) rest
      | some q =>
          have hlater := append_suffix_of_afterLast? hlast
          have hlength := hlater.length_le
          simp only [List.length_append, List.length_cons] at hlength
          exact ⟨q, rfl, List.suffix_of_suffix_length_le
            ((List.suffix_append (a :: sep) q).trans hlater) (List.suffix_append sep rest)
            (by omega)⟩
  | cons c front ih =>
      obtain ⟨q, hq, hsuffix⟩ := ih
      exact ⟨q, by rw [List.cons_append, afterLast?, hq], hsuffix⟩

/-- A text of several pieces ends in the separator and the last of them. -/
theorem append_last_suffix_intercalate (sep : Text) (hps : ps ≠ []) (p : Text) :
    sep ++ p <:+ sep.intercalate (ps ++ [p]) := by
  induction ps with
  | nil => exact absurd rfl hps
  | cons q qs ih =>
      rw [List.cons_append, List.intercalate_cons_of_ne_nil (List.concat_ne_nil _ _),
        List.append_assoc]
      cases qs with
      | nil => exact ⟨q, by simp⟩
      | cons q' qs =>
          exact ((ih (List.cons_ne_nil _ _)).trans (List.suffix_append sep _)).trans
            (List.suffix_append q _)

/-- **What the rightmost place leaves of the last piece**: all of it, if it is the only one,
and otherwise what follows the longest beginning with which the separator overlaps. -/
theorem exists_afterLast? (hsep : sep ≠ []) (h : pieces sep t = ps ++ [p]) :
    ∃ u x q, p = x ++ q ∧ (afterLast? sep t).getD t = q ∧ Overlap sep u x ∧
      (ps = [] → x = []) ∧
      (ps ≠ [] → ∀ u' x', x' <+: p → Overlap sep u' x' → x'.length ≤ x.length) := by
  by_cases hps : ps = []
  · obtain rfl := hps
    rw [List.nil_append] at h
    have hfree : ¬ sep <:+: p := not_infix_of_mem_pieces hsep (h ▸ List.mem_singleton_self p)
    obtain rfl : p = t := eq_of_piecesFrom_eq_singleton h
    refine ⟨[], [], p, rfl, ?_, by simp [Overlap], fun _ => rfl, fun hne => absurd rfl hne⟩
    rw [afterLast?_of_not_isInfix hfree, Option.getD_none]
  · have hjoin : sep.intercalate (pieces sep t) = t := intercalate_pieces hsep t
    obtain ⟨front, hfront⟩ := append_last_suffix_intercalate sep hps p
    rw [← h, hjoin] at hfront
    have hrightmost : ∀ x' r u', p = x' ++ r → Overlap sep u' x' →
        ∃ q, afterLast? sep t = some q ∧ q <:+ r := by
      rintro x' r u' rfl hoverlap
      have hplaces : front ++ (sep ++ (x' ++ r)) = front ++ u' ++ (sep ++ r) := by
        rw [← List.append_assoc sep, ← show u' ++ sep = sep ++ x' from hoverlap]
        simp
      rw [← hfront, hplaces]
      exact exists_afterLast?_suffix hsep (front ++ u') r
    obtain ⟨q, hq, x, rfl⟩ := hrightmost [] p [] rfl (by simp [Overlap])
    have hplace : sep ++ q <:+ sep ++ (x ++ q) := by
      refine List.suffix_of_suffix_length_le (append_suffix_of_afterLast? hq) ⟨front, hfront⟩ ?_
      simp
    obtain ⟨u, hu⟩ := hplace
    rw [← List.append_assoc, ← List.append_assoc] at hu
    refine ⟨u, x, q, rfl, by rw [hq, Option.getD_some], List.append_cancel_right hu,
      fun hnil => absurd hnil hps, fun _ u' x' hx' hoverlap => ?_⟩
    obtain ⟨r, hr⟩ := hx'
    obtain ⟨q', hq', hsuffix⟩ := hrightmost x' r u' hr.symm hoverlap
    obtain rfl : q = q' := Option.some.inj (hq.symm.trans hq')
    have hle := hsuffix.length_le
    have hlength := congrArg List.length hr
    rw [List.length_append, List.length_append] at hlength
    omega

end Text

end Tagline
