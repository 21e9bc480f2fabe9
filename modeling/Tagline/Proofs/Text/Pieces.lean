import Tagline.Text.Blank
import Tagline.Proofs.Text.Case

/-!
# Cutting and joining again

Cutting a text at one character is the split of a list at an element, so the
library's lemmas on splits apply.  Two ways of putting a text together are taken
apart again by the cut that belongs to them:

* `pieces_intercalate` — parts without the separator, joined with it;
* `words_intercalate` — words without a blank, joined with a space.

A text is **trimmed** when it neither begins nor ends with a blank.  Texts that
are alike are trimmed together, and parts that are trimmed make a trimmed text
when they are joined with a character that is no blank.
-/

namespace Tagline

namespace Text

/-! ## Pieces -/

/-- The first piece grows by a character. -/
theorem consHead_eq_modifyHead (c : Char) {ps : List Text} (h : ps ≠ []) :
    consHead c ps = ps.modifyHead (c :: ·) := by
  cases ps with
  | nil => exact absurd rfl h
  | cons p ps => rfl

/-- Cutting at a class of characters is the split of the list of characters. -/
theorem piecesWhere_eq_splitOnP (p : Char → Bool) (t : Text) :
    piecesWhere p t = t.splitOnP p := by
  induction t with
  | nil => simp [piecesWhere]
  | cons c t ih =>
      rw [List.splitOnP_cons_eq_if_modifyHead, piecesWhere]
      split
      · rw [ih]
      · rw [consHead_eq_modifyHead c (piecesWhere_ne_nil p t), ih]

/-- A single character is a beginning where it stands in front. -/
theorem dropLead?_singleton (s c : Char) (t : Text) :
    (dropLead? [s] (c :: t)).isSome = (c == s) := by
  by_cases h : c = s
  · simp [dropLead?, h]
  · simp [dropLead?, h, Ne.symm h]

/-- Cutting at a separator of one character is the split at that element. -/
theorem pieces_singleton (s : Char) (t : Text) : pieces [s] t = t.splitOn s := by
  unfold pieces
  rw [List.splitOn_eq_splitOnP]
  induction t with
  | nil => simp [piecesFrom]
  | cons c t ih =>
      rw [List.splitOnP_cons_eq_if_modifyHead]
      simp only [piecesFrom, dropLead?_singleton, List.length_singleton, Nat.sub_self]
      split
      · rw [ih]
      · rw [consHead_eq_modifyHead c (piecesFrom_ne_nil _ _ _), ih]

theorem pieces_ne_nil (sep t : Text) : pieces sep t ≠ [] :=
  piecesFrom_ne_nil sep 0 t

/-- The last piece of a cut, with those in front of it. -/
theorem pieces_eq_concat (sep t : Text) : ∃ ps p, pieces sep t = ps ++ [p] :=
  (List.eq_nil_or_concat' (pieces sep t)).resolve_left (pieces_ne_nil sep t)

/-- **A join is cut into its parts**, if no part holds the separator. -/
theorem pieces_intercalate {s : Char} {ps : List Text} (hne : ps ≠ [])
    (h : ∀ p ∈ ps, s ∉ p) : pieces [s] ([s].intercalate ps) = ps := by
  rw [pieces_singleton, List.splitOn_intercalate s h hne]

/-- A text without the separator is one piece. -/
theorem pieces_of_not_mem {s : Char} {t : Text} (h : s ∉ t) : pieces [s] t = [t] := by
  rw [pieces_singleton, List.splitOn_eq_singleton h]

/-- No piece holds the separator. -/
theorem not_mem_of_mem_pieces {s : Char} {t p : Text} (hp : p ∈ pieces [s] t) : s ∉ p := by
  rw [pieces_singleton, List.splitOn_eq_splitOnP] at hp
  induction t generalizing p with
  | nil =>
      rw [List.splitOnP_nil, List.mem_singleton] at hp
      simp [hp]
  | cons c t ih =>
      rw [List.splitOnP_cons_eq_if_modifyHead] at hp
      split at hp
      · rcases List.mem_cons.1 hp with rfl | hp
        · simp
        · exact ih hp
      · next hc =>
          obtain ⟨q, qs, hq⟩ := List.exists_cons_of_ne_nil (List.splitOnP_ne_nil (· == s) t)
          rw [hq, List.modifyHead_cons] at hp
          rcases List.mem_cons.1 hp with rfl | hp
          · have hnot : s ∉ q := ih (hq ▸ List.mem_cons_self)
            simp only [List.mem_cons, not_or]
            exact ⟨fun h => hc (by simp [h]), hnot⟩
          · exact ih (hq ▸ List.mem_cons_of_mem _ hp)

/-- Every character of a join is a separator or stands in a part. -/
theorem mem_intercalate {s c : Char} {ps : List Text} (h : c ∈ [s].intercalate ps) :
    c = s ∨ ∃ p ∈ ps, c ∈ p := by
  induction ps with
  | nil => simp at h
  | cons p ps ih =>
      cases ps with
      | nil => exact Or.inr ⟨p, List.mem_cons_self, by simpa using h⟩
      | cons q qs =>
          rw [List.intercalate_cons_cons] at h
          simp only [List.mem_append, List.mem_singleton] at h
          rcases h with (h | h) | h
          · exact Or.inr ⟨p, List.mem_cons_self, h⟩
          · exact Or.inl h
          · rcases ih h with h | ⟨r, hr, hc⟩
            · exact Or.inl h
            · exact Or.inr ⟨r, List.mem_cons_of_mem _ hr, hc⟩

/-- A part stands in the join. -/
theorem mem_intercalate_of_mem {s c : Char} {ps : List Text} {p : Text} (hp : p ∈ ps)
    (hc : c ∈ p) : c ∈ [s].intercalate ps := by
  induction ps with
  | nil => simp at hp
  | cons q qs ih =>
      cases qs with
      | nil =>
          rw [List.mem_singleton.1 hp] at hc
          simpa using hc
      | cons r rs =>
          rw [List.intercalate_cons_cons]
          simp only [List.mem_append]
          rcases List.mem_cons.1 hp with rfl | hp
          · exact Or.inl (Or.inl hc)
          · exact Or.inr (ih hp)

/-- Every character of a piece stands in the text. -/
theorem mem_of_mem_pieces {s c : Char} {t p : Text} (hp : p ∈ pieces [s] t) (hc : c ∈ p) :
    c ∈ t := by
  rw [← intercalate_pieces (show [s] ≠ [] by simp) t]
  exact mem_intercalate_of_mem hp hc

/-- The first part of a join takes what stands in front of the join. -/
theorem intercalate_append_cons (sep t p : Text) (ps : List Text) :
    sep.intercalate ((t ++ p) :: ps) = t ++ sep.intercalate (p :: ps) := by
  cases ps with
  | nil => simp
  | cons q ps => simp [List.intercalate_cons_cons]

/-- The last part of a join takes what follows the join. -/
theorem intercalate_concat_append (sep : Text) (ps : List Text) (p t : Text) :
    sep.intercalate (ps ++ [p ++ t]) = sep.intercalate (ps ++ [p]) ++ t := by
  induction ps with
  | nil => simp
  | cons q ps ih =>
      rw [List.cons_append, List.cons_append,
        List.intercalate_cons_of_ne_nil (List.concat_ne_nil _ _),
        List.intercalate_cons_of_ne_nil (List.concat_ne_nil _ _), ih, List.append_assoc _ _ t]

/-- **What holds no separator belongs to the last piece**, if it stands behind a text. -/
theorem pieces_append {s : Char} {t u p : Text} {ps : List Text} (h : pieces [s] t = ps ++ [p])
    (hu : s ∉ u) : pieces [s] (t ++ u) = ps ++ [p ++ u] := by
  have hjoin : [s].intercalate (pieces [s] t) = t := intercalate_pieces (by simp) t
  rw [← hjoin, h, ← intercalate_concat_append]
  refine pieces_intercalate (List.concat_ne_nil _ _) fun q hq => ?_
  rcases List.mem_append.1 hq with hq | hq
  · exact not_mem_of_mem_pieces (h ▸ List.mem_append_left _ hq)
  · rw [List.mem_singleton.1 hq, List.mem_append, not_or]
    exact ⟨not_mem_of_mem_pieces (h ▸ List.mem_append_right _ (List.mem_singleton_self p)), hu⟩

/-- An end of the last piece is an end of the text. -/
theorem exists_front_of_pieces {s : Char} {t u p : Text} {ps : List Text}
    (h : pieces [s] t = ps ++ [p ++ u]) :
    ∃ front, t = front ++ u ∧ pieces [s] front = ps ++ [p] := by
  have hjoin : [s].intercalate (pieces [s] t) = t := intercalate_pieces (by simp) t
  refine ⟨[s].intercalate (ps ++ [p]), ?_, ?_⟩
  · rw [← intercalate_concat_append, ← h, hjoin]
  · refine pieces_intercalate (List.concat_ne_nil _ _) fun q hq => ?_
    have hfree : ∀ q ∈ ps ++ [p ++ u], s ∉ q := fun q hq => not_mem_of_mem_pieces (h ▸ hq)
    rcases List.mem_append.1 hq with hq | hq
    · exact hfree q (List.mem_append_left _ hq)
    · rw [List.mem_singleton.1 hq]
      exact fun hmem => hfree (p ++ u) (by simp) (List.mem_append_left _ hmem)

/-- What holds no separator belongs to the first piece, if it stands in front of a text. -/
theorem pieces_append_left {s : Char} {t u p : Text} {ps : List Text}
    (h : pieces [s] t = p :: ps) (hu : s ∉ u) : pieces [s] (u ++ t) = (u ++ p) :: ps := by
  have hjoin : [s].intercalate (pieces [s] t) = t := intercalate_pieces (by simp) t
  rw [← hjoin, h, ← intercalate_append_cons]
  refine pieces_intercalate (List.cons_ne_nil _ _) fun q hq => ?_
  rcases List.mem_cons.1 hq with rfl | hq
  · rw [List.mem_append, not_or]
    exact ⟨hu, not_mem_of_mem_pieces (h ▸ List.mem_cons_self)⟩
  · exact not_mem_of_mem_pieces (h ▸ List.mem_cons_of_mem _ hq)

/-- A join is empty only where there is nothing to join. -/
theorem intercalate_eq_nil {s : Char} {ps : List Text} (h : [s].intercalate ps = []) :
    ps = [] ∨ ps = [[]] := by
  match ps with
  | [] => exact Or.inl rfl
  | [p] => exact Or.inr (by simpa using h)
  | p :: q :: qs => simp [List.intercalate_cons_cons] at h

/-- What a map of the parts cannot bring in, the join of the mapped parts does
not hold unless the join of the parts holds it. -/
theorem exists_mem_intercalate_map {P : Char → Prop} {f : Text → Text}
    (hf : ∀ p, (∃ c ∈ f p, P c) → ∃ c ∈ p, P c) {s : Char} {ps : List Text}
    (h : ∃ c ∈ [s].intercalate (ps.map f), P c) : ∃ c ∈ [s].intercalate ps, P c := by
  induction ps with
  | nil => simp at h
  | cons p ps ih =>
      cases ps with
      | nil =>
          simp only [List.map_cons, List.map_nil, List.intercalate_singleton] at h ⊢
          exact hf p h
      | cons q qs =>
          simp only [List.map_cons, List.intercalate_cons_cons, List.mem_append,
            List.mem_singleton] at h ih ⊢
          obtain ⟨c, (hc | hc) | hc, hP⟩ := h
          · obtain ⟨d, hd, hPd⟩ := hf p ⟨c, hc, hP⟩
            exact ⟨d, Or.inl (Or.inl hd), hPd⟩
          · exact ⟨c, Or.inl (Or.inr hc), hP⟩
          · obtain ⟨d, hd, hPd⟩ := ih ⟨c, hc, hP⟩
            exact ⟨d, Or.inr hd, hPd⟩

/-! ## Trimmed texts -/

/-- Neither the first nor the last character is blank. -/
def Trimmed (t : Text) : Prop :=
  (∀ c ∈ t.head?, isBlank c = false) ∧ ∀ c ∈ t.getLast?, isBlank c = false

theorem trimmed_nil : Trimmed [] := by
  simp [Trimmed]

/-- A text whose first character is not blank has nothing to trim in front. -/
theorem dropWhile_of_head {t : Text} (h : ∀ c ∈ t.head?, isBlank c = false) :
    t.dropWhile isBlank = t := by
  cases t with
  | nil => rfl
  | cons c t => simp [h c rfl]

/-- A trimmed text has no blanks to drop at its start. -/
theorem trimStart_of_trimmed {t : Text} (h : Trimmed t) : trimStart t = t :=
  dropWhile_of_head h.1

theorem trimEnd_of_trimmed {t : Text} (h : Trimmed t) : trimEnd t = t := by
  unfold trimEnd
  rw [dropWhile_of_head (by simpa using h.2), List.reverse_reverse]

/-- **A trimmed text is what trimming leaves of it.** -/
theorem trim_of_trimmed {t : Text} (h : Trimmed t) : trim t = t := by
  rw [trim, trimEnd_of_trimmed h, trimStart_of_trimmed h]

/-- The last character that trimming the end leaves is not blank. -/
theorem getLast_trimEnd (t : Text) : ∀ c ∈ (trimEnd t).getLast?, isBlank c = false := by
  intro c hc
  unfold trimEnd at hc
  rw [List.getLast?_reverse] at hc
  cases h : t.reverse.dropWhile isBlank with
  | nil => simp [h] at hc
  | cons d rest =>
      rw [h] at hc
      simp only [List.head?_cons, Option.mem_def, Option.some.injEq] at hc
      exact hc ▸ dropWhile_head_false isBlank h

/-- **What is trimmed is trimmed.** -/
theorem trimmed_trim (t : Text) : Trimmed (trim t) := by
  constructor
  · intro c hc
    cases h : trim t with
    | nil => simp [h] at hc
    | cons d rest =>
        rw [h] at hc
        simp only [List.head?_cons, Option.mem_def, Option.some.injEq] at hc
        exact hc ▸ dropWhile_head_false isBlank h
  · intro c hc
    obtain ⟨lead, heq, _⟩ := trimStart_append (trimEnd t)
    apply getLast_trimEnd t c
    rw [heq, List.getLast?_append]
    rw [trim] at hc
    simp [Option.mem_def.1 hc]

/-- Blanks in front are dropped, whatever follows. -/
theorem trimStart_append_of_blank {lead : Text} (h : ∀ c ∈ lead, isBlank c = true) (t : Text) :
    trimStart (lead ++ t) = trimStart t :=
  List.dropWhile_append_of_pos h

/-- Blanks behind are dropped, whatever stands in front. -/
theorem trimEnd_append_of_blank (t : Text) {tail : Text} (h : ∀ c ∈ tail, isBlank c = true) :
    trimEnd (t ++ tail) = trimEnd t := by
  unfold trimEnd
  rw [List.reverse_append, List.dropWhile_append_of_pos fun c hc => h c (List.mem_reverse.1 hc)]

/-- A text that ends in something trimmed has nothing to trim there. -/
theorem trimEnd_append_of_trimmed (lead : Text) {t : Text} (hne : t ≠ []) (ht : Trimmed t) :
    trimEnd (lead ++ t) = lead ++ t := by
  unfold trimEnd
  rw [dropWhile_of_head fun c hc => ?_, List.reverse_reverse]
  rw [List.head?_reverse, List.getLast?_append, List.getLast?_eq_some_getLast hne] at hc
  exact ht.2 c (by rw [List.getLast?_eq_some_getLast hne]; simpa using hc)

/-- **Trimming takes off the blanks on both sides**, and nothing of what is trimmed. -/
theorem trim_surrounded {lead t tail : Text} (hlead : ∀ c ∈ lead, isBlank c = true)
    (htail : ∀ c ∈ tail, isBlank c = true) (ht : Trimmed t) : trim (lead ++ t ++ tail) = t := by
  rw [trim, trimEnd_append_of_blank _ htail]
  by_cases hne : t = []
  · have hall : trimEnd lead = [] := by
      have hblank := trimEnd_append_of_blank [] hlead
      rwa [List.nil_append] at hblank
    rw [hne, List.append_nil, hall]
    rfl
  · rw [trimEnd_append_of_trimmed lead hne ht, trimStart_append_of_blank hlead,
      trimStart_of_trimmed ht]

/-- Blanks in front of a trimmed text are all that is taken off. -/
theorem trim_append_of_trimmed {lead t : Text} (hlead : ∀ c ∈ lead, isBlank c = true)
    (ht : Trimmed t) : trim (lead ++ t) = t := by
  have h : trim (lead ++ t ++ []) = t := trim_surrounded hlead (by simp) ht
  rwa [List.append_nil] at h

/-- Of blanks nothing is left. -/
theorem trim_of_blank {t : Text} (h : ∀ c ∈ t, isBlank c = true) : trim t = [] := by
  have htrim := trim_append_of_trimmed h trimmed_nil
  rwa [List.append_nil] at htrim

/-- A text is what trimming leaves, between blanks. -/
theorem eq_surrounded_trim (t : Text) :
    ∃ lead tail, t = lead ++ trim t ++ tail ∧ (∀ c ∈ lead, isBlank c = true) ∧
      ∀ c ∈ tail, isBlank c = true := by
  obtain ⟨tail, hend, htail⟩ := trimEnd_append t
  obtain ⟨lead, hstart, hlead⟩ := trimStart_append (trimEnd t)
  exact ⟨lead, tail, by rw [trim, ← hstart, ← hend], hlead, htail⟩

/-- A text of blanks is one of which trimming leaves nothing. -/
theorem allBlank_iff {t : Text} : allBlank t = true ↔ trim t = [] := by
  rw [allBlank, List.all_eq_true]
  refine ⟨trim_of_blank, fun h => ?_⟩
  obtain ⟨lead, tail, heq, hlead, htail⟩ := eq_surrounded_trim t
  rw [h, List.append_nil] at heq
  intro c hc
  rw [heq] at hc
  exact (List.mem_append.1 hc).elim (hlead c) (htail c)

/-- Blanks on both sides of a text do not count for what trimming leaves. -/
theorem trim_append_of_blank {lead tail : Text} (hlead : ∀ c ∈ lead, isBlank c = true)
    (htail : ∀ c ∈ tail, isBlank c = true) (t : Text) : trim (lead ++ t ++ tail) = trim t := by
  obtain ⟨front, back, heq, hfront, hback⟩ := eq_surrounded_trim t
  have hsplit : lead ++ t ++ tail = (lead ++ front) ++ trim t ++ (back ++ tail) := by
    conv_lhs => rw [heq]
    simp
  rw [hsplit]
  refine trim_surrounded ?_ ?_ (trimmed_trim t)
  · simpa [or_imp, forall_and] using And.intro hlead hfront
  · simpa [or_imp, forall_and] using And.intro hback htail

/-- A text without blanks is trimmed. -/
theorem trimmed_of_no_blank {t : Text} (h : ∀ c ∈ t, isBlank c = false) : Trimmed t :=
  ⟨fun c hc => h c (List.mem_of_mem_head? hc), fun c hc => h c (List.mem_of_mem_getLast? hc)⟩

/-- Trimming keeps no character that was not there. -/
theorem mem_of_mem_trim {t : Text} {c : Char} (h : c ∈ trim t) : c ∈ t := by
  have hend : c ∈ trimEnd t := (List.dropWhile_sublist _).subset h
  unfold trimEnd at hend
  exact List.mem_reverse.1 ((List.dropWhile_sublist _).subset (List.mem_reverse.1 hend))

/-- A text that ends in a trimmed one is trimmed if it does not begin with a blank. -/
theorem trimmed_append_of_head {front t : Text}
    (hstart : ∀ c ∈ (front ++ t).head?, isBlank c = false) (hne : t ≠ []) (ht : Trimmed t) :
    Trimmed (front ++ t) := by
  refine ⟨hstart, fun c hc => ht.2 c ?_⟩
  rwa [List.getLast?_append_of_ne_nil _ hne] at hc

/-- A text that begins with a word and ends in a trimmed text is trimmed, whatever stands
between the two. -/
theorem trimmed_word_append {word behind : Text} (hword : ∀ c ∈ word, isBlank c = false)
    (hne : word ≠ []) (hbehind : Trimmed behind) (hbehindNe : behind ≠ []) (middle : Text) :
    Trimmed (word ++ middle ++ behind) := by
  refine trimmed_append_of_head (fun c hc => hword c ?_) hbehindNe hbehind
  obtain ⟨first, rest, rfl⟩ := List.exists_cons_of_ne_nil hne
  obtain rfl : first = c := by simpa using hc
  exact List.mem_cons_self

/-- Two trimmed texts with a character between them are trimmed, unless that is a
blank at one end. -/
theorem trimmed_append {s : Char} {t u : Text} (ht : Trimmed t) (hu : Trimmed u)
    (hs : isBlank s = false ∨ (t ≠ [] ∧ u ≠ [])) : Trimmed (t ++ [s] ++ u) := by
  constructor
  · intro c hc
    cases t with
    | nil =>
        have hblank : isBlank s = false := hs.resolve_right fun h => h.1 rfl
        simp only [List.nil_append, List.singleton_append, List.head?_cons, Option.mem_def,
          Option.some.injEq] at hc
        exact hc ▸ hblank
    | cons d rest => exact ht.1 c (by simpa using hc)
  · intro c hc
    by_cases hne : u = []
    · have hblank : isBlank s = false := hs.resolve_right fun h => h.2 hne
      simp only [hne, List.append_nil, List.getLast?_append, List.getLast?_singleton,
        Option.some_or, Option.mem_def, Option.some.injEq] at hc
      exact hc ▸ hblank
    · apply hu.2 c
      rw [List.getLast?_append, List.getLast?_eq_some_getLast hne] at hc
      rw [List.getLast?_eq_some_getLast hne]
      simpa using hc

/-- The join of trimmed parts is trimmed, if the separator is no blank or no part
is empty. -/
theorem trimmed_intercalate {s : Char} {ps : List Text} (h : ∀ p ∈ ps, Trimmed p)
    (hs : isBlank s = false ∨ ∀ p ∈ ps, p ≠ []) : Trimmed ([s].intercalate ps) := by
  induction ps with
  | nil => simpa using trimmed_nil
  | cons p ps ih =>
      cases ps with
      | nil => simpa using h p List.mem_cons_self
      | cons q qs =>
          rw [List.intercalate_cons_cons]
          refine trimmed_append (h p List.mem_cons_self) (ih ?_ ?_) ?_
          · exact fun r hr => h r (List.mem_cons_of_mem _ hr)
          · exact hs.imp_right fun hne r hr => hne r (List.mem_cons_of_mem _ hr)
          · refine hs.imp_right fun hne => ⟨hne p List.mem_cons_self, fun hnil => ?_⟩
            rcases intercalate_eq_nil hnil with hqs | hqs
            · simp at hqs
            · exact hne [] (by simp [hqs]) rfl

/-- The lower-cased form begins with a blank where the text does. -/
theorem head?_lowerAfter (before t : Text) :
    (lowerAfter before t).head?.map isBlank = t.head?.map isBlank := by
  cases t with
  | nil => rfl
  | cons c t =>
      obtain ⟨part, hne, hpart, heq⟩ := lowerAfter_cons before c t
      obtain ⟨d, rest, rfl⟩ := List.exists_cons_of_ne_nil hne
      rw [heq]
      simp [isBlank_of_mem_lowerForms (hpart d List.mem_cons_self)]

/-- The lower-cased form ends with a blank where the text does. -/
theorem getLast?_lowerAfter (before t : Text) :
    (lowerAfter before t).getLast?.map isBlank = t.getLast?.map isBlank := by
  induction t generalizing before with
  | nil => rfl
  | cons c t ih =>
      obtain ⟨part, hne, hpart, heq⟩ := lowerAfter_cons before c t
      rw [heq, List.getLast?_append]
      cases t with
      | nil =>
          have hlast := isBlank_of_mem_lowerForms (hpart _ (List.getLast_mem hne))
          simp [lowerAfter, List.getLast?_eq_some_getLast hne, hlast]
      | cons d t =>
          have ih := ih (c :: before)
          rw [List.getLast?_cons_cons, ← ih]
          cases hl : (lowerAfter (c :: before) (d :: t)).getLast? with
          | none =>
              rw [hl, List.getLast?_cons] at ih
              simp at ih
          | some e => simp

/-- **A text alike to a trimmed one is trimmed.** -/
theorem trimmed_of_alike {s t : Text} (h : alike s t = true) (ht : Trimmed t) : Trimmed s := by
  have hhead : s.head?.map isBlank = t.head?.map isBlank := by
    rw [← head?_lowerAfter [] s, ← head?_lowerAfter [] t]
    exact congrArg (fun u : Text => u.head?.map isBlank) (alike_iff.1 h)
  have hlast : s.getLast?.map isBlank = t.getLast?.map isBlank := by
    rw [← getLast?_lowerAfter [] s, ← getLast?_lowerAfter [] t]
    exact congrArg (fun u : Text => u.getLast?.map isBlank) (alike_iff.1 h)
  constructor
  · intro c hc
    rw [Option.mem_def.1 hc] at hhead
    obtain ⟨d, hd, heq⟩ := Option.map_eq_some_iff.1 hhead.symm
    exact heq ▸ ht.1 d hd
  · intro c hc
    rw [Option.mem_def.1 hc] at hlast
    obtain ⟨d, hd, heq⟩ := Option.map_eq_some_iff.1 hlast.symm
    exact heq ▸ ht.2 d hd

/-! ## Words -/

@[simp] theorem words_nil : words [] = [] := rfl

/-- **Words end at a blank.** -/
theorem words_append_blank {c : Char} (hc : isBlank c = true) (s t : Text) :
    words (s ++ c :: t) = words s ++ words t := by
  unfold words
  simp only [piecesWhere_eq_splitOnP]
  rw [List.splitOnP_append_cons s t hc, List.filter_append]

/-- A text without a blank is one word, unless it is empty. -/
theorem words_of_no_blank {t : Text} (hne : t ≠ []) (h : ∀ c ∈ t, isBlank c = false) :
    words t = [t] := by
  unfold words
  rw [piecesWhere_eq_splitOnP, List.splitOnP_eq_singleton h]
  simp [hne]

/-- Every text is a part without blanks, or two texts with a blank between them. -/
theorem blank_induction {P : Text → Prop} (part : ∀ t, (∀ c ∈ t, isBlank c = false) → P t)
    (cut : ∀ s c t, isBlank c = true → P s → P t → P (s ++ c :: t)) (t : Text) : P t := by
  induction hn : t.length using Nat.strong_induction_on generalizing t with
  | _ n ih =>
      by_cases hblank : ∀ c ∈ t, isBlank c = false
      · exact part t hblank
      · simp only [not_forall, Bool.not_eq_false] at hblank
        obtain ⟨c, hc, hcb⟩ := hblank
        obtain ⟨s, u, rfl⟩ := List.append_of_mem hc
        simp only [List.length_append, List.length_cons] at hn
        exact cut s c u hcb (ih s.length (by omega) s rfl) (ih u.length (by omega) u rfl)

/-- A word is not empty, has no blank, and stands in the text. -/
theorem of_mem_words {t w : Text} (h : w ∈ words t) :
    w ≠ [] ∧ (∀ c ∈ w, isBlank c = false) ∧ ∀ c ∈ w, c ∈ t := by
  induction t using blank_induction with
  | part t hblank =>
      by_cases hne : t = []
      · simp [hne] at h
      · rw [words_of_no_blank hne hblank, List.mem_singleton] at h
        exact ⟨h ▸ hne, h ▸ hblank, fun c hc => h ▸ hc⟩
  | cut s c t hc ihs iht =>
      rw [words_append_blank hc, List.mem_append] at h
      rcases h with h | h
      · obtain ⟨hne, hblank, hmem⟩ := ihs h
        exact ⟨hne, hblank, fun d hd => List.mem_append_left _ (hmem d hd)⟩
      · obtain ⟨hne, hblank, hmem⟩ := iht h
        exact ⟨hne, hblank, fun d hd =>
          List.mem_append_right _ (List.mem_cons_of_mem _ (hmem d hd))⟩

/-- A text without words consists of blanks. -/
theorem blank_of_words_eq_nil {t : Text} (h : words t = []) : ∀ c ∈ t, isBlank c = true := by
  induction t using blank_induction with
  | part t hblank =>
      by_cases hne : t = []
      · simp [hne]
      · simp [words_of_no_blank hne hblank] at h
  | cut s c t hc ihs iht =>
      rw [words_append_blank hc, List.append_eq_nil_iff] at h
      intro d hd
      rcases List.mem_append.1 hd with hd | hd
      · exact ihs h.1 d hd
      · rcases List.mem_cons.1 hd with rfl | hd
        · exact hc
        · exact iht h.2 d hd

/-- **Words joined with a space are cut into those words.** -/
theorem words_intercalate {ws : List Text}
    (h : ∀ w ∈ ws, w ≠ [] ∧ ∀ c ∈ w, isBlank c = false) :
    words ([' '].intercalate ws) = ws := by
  induction ws with
  | nil => rfl
  | cons w ws ih =>
      obtain ⟨hne, hblank⟩ := h w List.mem_cons_self
      have htail := ih fun v hv => h v (List.mem_cons_of_mem _ hv)
      cases ws with
      | nil => simpa using words_of_no_blank hne hblank
      | cons v vs =>
          rw [List.intercalate_cons_cons, List.append_assoc, List.singleton_append,
            words_append_blank (by decide), htail, words_of_no_blank hne hblank]
          rfl

/-! ## Parts of a text -/

/-- What is left of a text stands in it. -/
theorem trim_isInfix (t : Text) : trim t <:+: t := by
  obtain ⟨tail, hend, _⟩ := trimEnd_append t
  obtain ⟨lead, hstart, _⟩ := trimStart_append (trimEnd t)
  refine ⟨lead, tail, ?_⟩
  rw [trim, ← hstart, ← hend]

/-- A piece stands in the text; the first one stands at its start. -/
theorem infix_of_mem_piecesFrom (sep t : Text) :
    (∀ p ∈ (piecesFrom sep 0 t).head?, p <+: t) ∧
      ∀ k, ∀ p ∈ piecesFrom sep k t, p <:+: t := by
  induction t with
  | nil => exact ⟨by simp [piecesFrom], fun k => by cases k <;> simp [piecesFrom]⟩
  | cons c t ih =>
      obtain ⟨hhead, hall⟩ := ih
      have hlater : ∀ k, ∀ p ∈ piecesFrom sep k t, p <:+: c :: t := by
        intro k p hp
        exact (hall k p hp).trans (List.suffix_cons c t).isInfix
      obtain ⟨q, qs, hq⟩ := List.exists_cons_of_ne_nil (piecesFrom_ne_nil sep 0 t)
      have hfirst : c :: q <+: c :: t := by
        have hlead : q <+: t := hhead q (by simp [hq])
        exact List.cons_prefix_cons.2 ⟨rfl, hlead⟩
      by_cases hsep : (dropLead? sep (c :: t)).isSome = true
      · have hcut : piecesFrom sep 0 (c :: t) = [] :: piecesFrom sep (sep.length - 1) t := by
          rw [piecesFrom, if_pos hsep]
        refine ⟨by simp [hcut], fun k p hp => ?_⟩
        cases k with
        | succ k => exact hlater k p hp
        | zero =>
            rw [hcut] at hp
            rcases List.mem_cons.1 hp with rfl | hp
            · exact List.nil_infix
            · exact hlater _ p hp
      · have hgrow : piecesFrom sep 0 (c :: t) = (c :: q) :: qs := by
          rw [piecesFrom, if_neg hsep, hq]
          rfl
        refine ⟨by simpa [hgrow] using hfirst, fun k p hp => ?_⟩
        cases k with
        | succ k => exact hlater k p hp
        | zero =>
            rw [hgrow] at hp
            rcases List.mem_cons.1 hp with rfl | hp
            · exact hfirst.isInfix
            · exact hlater 0 p (hq ▸ List.mem_cons_of_mem _ hp)

/-- A piece stands in the text. -/
theorem infix_of_mem_pieces {sep t p : Text} (h : p ∈ pieces sep t) : p <:+: t :=
  (infix_of_mem_piecesFrom sep t).2 0 p h

end Text

end Tagline
