/-!
# Text as a list of characters

A **text** is the list of its characters (Unicode scalar values), so every rule
about it is a recursion on a list.  String literals are read as texts.  This
module holds the cuts that the rest of the library is made of:

* `dropLead?` — what follows a given beginning;
* `pieces` — the parts between the occurrences of a separator, found from the
  left and never overlapping;
* `piecesWhere` — the same with every character of a class as the separator;
* `afterLast?` — what follows the rightmost occurrence of a separator;
* `cutAt` — the two sides of the first occurrence of a character;
* `bytes` — the length in UTF-8, the unit in which places on a line are given.

`intercalate_pieces` says that cutting loses nothing.
-/

namespace Tagline

/-- A text is the list of its characters. -/
abbrev Text := List Char

/-- A string literal denotes the text of its characters. -/
instance : Coe String Text := ⟨String.toList⟩

namespace Text

/-- The length of a text in UTF-8. -/
def bytes : Text → Nat
  | [] => 0
  | c :: t => c.utf8Size + bytes t

/-- What follows the beginning `lead`, if the text begins with it. -/
def dropLead? : (lead t : Text) → Option Text
  | [], t => some t
  | _ :: _, [] => none
  | a :: lead, c :: t => if a = c then dropLead? lead t else none

/-- Puts a character in front of the first piece. -/
def consHead (c : Char) : List Text → List Text
  | [] => [[c]]
  | p :: ps => (c :: p) :: ps

/-- The pieces of a text when `skip` more of its characters belong to a
separator that has just been found. -/
def piecesFrom (sep : Text) : Nat → Text → List Text
  | _, [] => [[]]
  | k + 1, _ :: t => piecesFrom sep k t
  | 0, c :: t =>
      if (dropLead? sep (c :: t)).isSome then [] :: piecesFrom sep (sep.length - 1) t
      else consHead c (piecesFrom sep 0 t)

/-- The parts of a text between the occurrences of `sep`, which are taken from
the left and do not overlap.  The separator is not empty wherever the library
cuts. -/
def pieces (sep t : Text) : List Text :=
  piecesFrom sep 0 t

/-- The parts of a text between the characters of a class. -/
def piecesWhere (p : Char → Bool) : Text → List Text
  | [] => [[]]
  | c :: t => if p c then [] :: piecesWhere p t else consHead c (piecesWhere p t)

/-- What follows the rightmost place where `sep` occurs. -/
def afterLast? (sep : Text) : Text → Option Text
  | [] => none
  | c :: t =>
      match afterLast? sep t with
      | some rest => some rest
      | none => dropLead? sep (c :: t)

/-- The text before and after the first occurrence of a character. -/
def cutAt (c : Char) : Text → Option (Text × Text)
  | [] => none
  | d :: t =>
      if d = c then some ([], t)
      else (cutAt c t).map fun (before, after) => (d :: before, after)

/-- The longest beginning of a text that has at most `n` bytes. -/
def takeBytes (n : Nat) : Text → Text
  | [] => []
  | c :: t => if c.utf8Size ≤ n then c :: takeBytes (n - c.utf8Size) t else []

/-- The decimal numeral of a number. -/
def ofNat (n : Nat) : Text :=
  Nat.toDigits 10 n

@[simp] theorem bytes_nil : bytes [] = 0 := rfl

@[simp] theorem bytes_cons (c : Char) (t : Text) :
    bytes (c :: t) = c.utf8Size + bytes t := rfl

@[simp] theorem bytes_append (s t : Text) : bytes (s ++ t) = bytes s + bytes t := by
  induction s with
  | nil => simp
  | cons c s ih => simp [ih, Nat.add_assoc]

/-- A beginning and what follows it make up the text. -/
theorem eq_append_of_dropLead? {lead t rest : Text} (h : dropLead? lead t = some rest) :
    t = lead ++ rest := by
  induction lead generalizing t with
  | nil => simpa [dropLead?] using h
  | cons a lead ih =>
      cases t with
      | nil => simp [dropLead?] at h
      | cons c t =>
          by_cases hac : a = c
          · subst hac
            simp only [dropLead?, if_true] at h
            rw [ih h]
            rfl
          · simp [dropLead?, hac] at h

/-- A beginning is found in front of anything. -/
@[simp] theorem dropLead?_append (lead rest : Text) :
    dropLead? lead (lead ++ rest) = some rest := by
  induction lead with
  | nil => rfl
  | cons a lead ih => simpa [dropLead?] using ih

theorem consHead_ne_nil (c : Char) (ps : List Text) : consHead c ps ≠ [] := by
  cases ps <;> simp [consHead]

/-- Every text has a piece. -/
theorem piecesWhere_ne_nil (p : Char → Bool) (t : Text) : piecesWhere p t ≠ [] := by
  cases t with
  | nil => simp [piecesWhere]
  | cons c t =>
      unfold piecesWhere
      split
      · simp
      · exact consHead_ne_nil _ _

theorem piecesFrom_ne_nil (sep : Text) (k : Nat) (t : Text) : piecesFrom sep k t ≠ [] := by
  induction t generalizing k with
  | nil => cases k <;> simp [piecesFrom]
  | cons c t ih =>
      cases k with
      | zero =>
          unfold piecesFrom
          split
          · simp
          · exact consHead_ne_nil _ _
      | succ k => simpa [piecesFrom] using ih k

/-- What is put in front of the first piece stands in front of the join. -/
theorem intercalate_consHead (sep : Text) (c : Char) {ps : List Text} (h : ps ≠ []) :
    sep.intercalate (consHead c ps) = c :: sep.intercalate ps := by
  cases ps with
  | nil => exact absurd rfl h
  | cons p ps => cases ps <;> simp [consHead, List.intercalate]

/-- The pieces after a separator of which `k` characters are still to come
make up what follows those characters. -/
theorem intercalate_piecesFrom {sep : Text} (hsep : sep ≠ []) (k : Nat) (t : Text) :
    sep.intercalate (piecesFrom sep k t) = t.drop k := by
  induction t generalizing k with
  | nil => cases k <;> simp [piecesFrom, List.intercalate]
  | cons c t ih =>
      cases k with
      | succ k => simpa [piecesFrom] using ih k
      | zero =>
          unfold piecesFrom
          split
          · next h =>
              obtain ⟨rest, hrest⟩ := Option.isSome_iff_exists.1 h
              have heq := eq_append_of_dropLead? hrest
              have hne := piecesFrom_ne_nil sep (sep.length - 1) t
              have ih' := ih (sep.length - 1)
              revert ih' hne
              cases piecesFrom sep (sep.length - 1) t with
              | nil => intro hne _; exact absurd rfl hne
              | cons p ps =>
                  intro _ ih'
                  have hjoin : sep.intercalate ([] :: p :: ps)
                      = sep ++ sep.intercalate (p :: ps) := by
                    simp [List.intercalate]
                  rw [hjoin, ih']
                  cases sep with
                  | nil => exact absurd rfl hsep
                  | cons s sep =>
                      simp only [List.cons_append, List.cons.injEq] at heq
                      obtain ⟨hcs, htl⟩ := heq
                      subst hcs
                      subst htl
                      simp
          · rw [intercalate_consHead _ _ (piecesFrom_ne_nil _ _ _), ih 0]
            simp

/-- **Cutting at a separator loses nothing.**  The pieces joined with it are
the text. -/
theorem intercalate_pieces {sep : Text} (hsep : sep ≠ []) (t : Text) :
    sep.intercalate (pieces sep t) = t := by
  simpa [pieces] using intercalate_piecesFrom hsep 0 t

/-- The two sides of the first occurrence, and the character between them,
make up the text; the left side does not hold the character. -/
theorem cutAt_eq_some {c : Char} {t before after : Text}
    (h : cutAt c t = some (before, after)) : t = before ++ c :: after ∧ c ∉ before := by
  induction t generalizing before with
  | nil => simp [cutAt] at h
  | cons d t ih =>
      by_cases hdc : d = c
      · simp [cutAt, hdc] at h
        obtain ⟨rfl, rfl⟩ := h
        simp [hdc]
      · simp only [cutAt, if_neg hdc, Option.map_eq_some_iff] at h
        obtain ⟨⟨b, a⟩, hcut, heq⟩ := h
        simp only [Prod.mk.injEq] at heq
        obtain ⟨rfl, rfl⟩ := heq
        obtain ⟨h1, h2⟩ := ih hcut
        refine ⟨by rw [h1]; rfl, ?_⟩
        simp only [List.mem_cons, not_or]
        exact ⟨fun hcd => hdc hcd.symm, h2⟩

end Text

end Tagline
