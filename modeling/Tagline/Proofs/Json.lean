import Tagline.Json.Printer
import Tagline.Json.Reader
import Mathlib.Data.List.Basic

/-!
# Printed JSON is read back

Strings, arrays and objects that are printed are read to the value that was
printed, whatever follows them.  A string is read back character by character,
since an escape is never confused with what stands behind it.  For the values
inside arrays and objects the fact is a property of each, `Json.Legible`, so that
a document puts it together as its written form is put together.

The fuel of the reader is measured by the printed text: two units for every
character are enough, because every value and every separator is longer than the
units it costs.

* `stringBody_quoted` — a quoted text is read back;
* `legible_string`, `legible_array`, `legible_object` — legible parts make a
  legible value;
* `read?_print` — a legible value is read from its text.
-/

namespace Tagline

namespace Json

/-! ## Strings -/

/-- The unit that the reader makes of an escaped character. -/
def unitOf (c : Char) : StringUnit :=
  if c.toNat < 0x20 ∧ (escape c).length = 6 then .unit c.toNat else .plain c

/-- The digits of a control character are read back. -/
theorem codeUnit?_hexDigit :
    ∀ n < 0x20, codeUnit? '0' '0' (hexDigit (n / 16)) (hexDigit (n % 16)) = some n := by
  decide

/-- An escape of one letter is undone. -/
theorem stringUnits_letter {e c : Char} (h : unescape? e = some c) (t : Text) :
    stringUnits ('\\' :: e :: t) = (stringUnits t).map fun u => (.plain c :: u.1, u.2) := by
  have hu : e ≠ 'u' := by
    rintro rfl
    simp [unescape?] at h
  rw [stringUnits]
  · rw [h]
    cases stringUnits t <;> rfl
  · simp [hu]

/-- An escape of four digits is undone. -/
theorem stringUnits_code {c : Char} (hlow : c.toNat < 0x20) (t : Text) :
    stringUnits
        ('\\' :: 'u' :: '0' :: '0' :: hexDigit (c.toNat / 16) :: hexDigit (c.toNat % 16) :: t)
      = (stringUnits t).map fun u => (.unit c.toNat :: u.1, u.2) := by
  rw [stringUnits, codeUnit?_hexDigit _ hlow]
  cases stringUnits t <;> rfl

/-- A character without an escape stands for itself. -/
theorem stringUnits_plain {c : Char} (hq : c ≠ '"') (hb : c ≠ '\\') (hlow : ¬ c.toNat < 0x20)
    (t : Text) :
    stringUnits (c :: t) = (stringUnits t).map fun u => (.plain c :: u.1, u.2) := by
  rw [stringUnits]
  · rw [if_neg hlow]
    cases stringUnits t <;> rfl
  · exact fun h => hq h
  · simp [hb]
  · simp [hb]

/-- **An escape is undone**, whatever follows it. -/
theorem stringUnits_escape (c : Char) (t : Text) :
    stringUnits (escape c ++ t) = (stringUnits t).map fun u => (unitOf c :: u.1, u.2) := by
  by_cases hq : c = '"'
  · subst hq
    exact stringUnits_letter rfl t
  by_cases hb : c = '\\'
  · subst hb
    exact stringUnits_letter rfl t
  by_cases hn : c = '\n'
  · subst hn
    exact stringUnits_letter rfl t
  by_cases hr : c = '\r'
  · subst hr
    exact stringUnits_letter rfl t
  by_cases ht : c = '\t'
  · subst ht
    exact stringUnits_letter rfl t
  by_cases hbs : c = '\x08'
  · subst hbs
    exact stringUnits_letter rfl t
  by_cases hff : c = '\x0c'
  · subst hff
    exact stringUnits_letter rfl t
  by_cases hlow : c.toNat < 0x20
  · simp only [unitOf, escape, hq, hb, hn, hr, ht, hbs, hff, hlow, if_false, if_true]
    exact stringUnits_code hlow t
  · simp only [unitOf, escape, hq, hb, hn, hr, ht, hbs, hff, hlow, if_false, false_and]
    exact stringUnits_plain hq hb hlow t

/-- The units of an escaped text, up to the closing quote. -/
theorem stringUnits_quoted (s rest : Text) :
    stringUnits (s.flatMap escape ++ '"' :: rest) = some (s.map unitOf, rest) := by
  induction s with
  | nil => simp [stringUnits]
  | cons c s ih =>
      rw [List.flatMap_cons, List.append_assoc, stringUnits_escape, ih]
      rfl

/-- A unit below U+0020 is no half of a pair. -/
theorem assemble_unit {n : Nat} (h : n < 0x20) (us : List StringUnit) :
    assemble (.unit n :: us) = (assemble us).map (Char.ofNat n :: ·) := by
  have hhigh : isHighSurrogate n = false := by
    simp only [isHighSurrogate, Bool.and_eq_false_iff, decide_eq_false_iff_not]
    omega
  have hlow : isLowSurrogate n = false := by
    simp only [isLowSurrogate, Bool.and_eq_false_iff, decide_eq_false_iff_not]
    omega
  match us with
  | [] => simp [assemble, hhigh, hlow]
  | .plain c :: us => simp [assemble, hhigh, hlow]
  | .unit m :: us =>
      rw [assemble]
      simp [hhigh, hlow]

/-- Characters that are no halves of others are put together as they are. -/
theorem assemble_map_unitOf (s : Text) : assemble (s.map unitOf) = some s := by
  induction s with
  | nil => rfl
  | cons c s ih =>
      rw [List.map_cons, unitOf]
      split
      · next h => rw [assemble_unit h.1, ih, Char.ofNat_toNat, Option.map_some]
      · rw [assemble, ih, Option.map_some]

/-- **A quoted text is read back.** -/
theorem stringBody_quoted (s rest : Text) :
    stringBody (s.flatMap escape ++ '"' :: rest) = some (some s, rest) := by
  simp [stringBody, stringUnits_quoted, assemble_map_unitOf]

/-! ## White space -/

theorem skipSpace_cons {c : Char} (h : isSpace c = false) (t : Text) :
    skipSpace (c :: t) = c :: t := by
  simp [skipSpace, h]

/-- Spaces in front are skipped. -/
theorem skipSpace_append {lead : Text} (h : ∀ c ∈ lead, isSpace c = true) (t : Text) :
    skipSpace (lead ++ t) = skipSpace t := by
  rw [skipSpace, List.dropWhile_append_of_pos h]
  rfl

theorem skipSpace_space (t : Text) : skipSpace (' ' :: t) = skipSpace t := by
  have hspace : isSpace ' ' = true := by decide
  rw [skipSpace, List.dropWhile_cons_of_pos hspace]
  rfl

/-- A new line is made of spaces, its indent included. -/
theorem isSpace_of_mem_newLine {level : Nat} : ∀ c ∈ newLine level, isSpace c = true := by
  intro c hc
  rcases List.mem_cons.1 hc with rfl | hc
  · decide
  · rw [(List.mem_replicate.1 hc).2]
    decide

theorem skipSpace_newLine (level : Nat) (t : Text) :
    skipSpace (newLine level ++ t) = skipSpace t :=
  skipSpace_append isSpace_of_mem_newLine t

/-- A value is read behind white space as without it. -/
theorem value?_of_skipSpace {t u : Text} (h : skipSpace t = skipSpace u) (fuel : Nat) :
    value? fuel t = value? fuel u := by
  cases fuel with
  | zero => simp [value?]
  | succ fuel => rw [value?, value?, h]

/-- The items of an array are read behind any spaces. -/
theorem items?_of_skipSpace {t u : Text} (h : skipSpace t = skipSpace u) (fuel : Nat) :
    items? fuel t = items? fuel u := by
  cases fuel with
  | zero => simp [items?]
  | succ fuel => rw [items?, items?, value?_of_skipSpace h]

theorem members?_of_skipSpace {t u : Text} (h : skipSpace t = skipSpace u) (fuel : Nat) :
    members? fuel t = members? fuel u := by
  cases fuel with
  | zero => simp [members?]
  | succ fuel => rw [members?, members?, h]

/-! ## Values -/

/-- A value that is read back from its text on any level, whatever follows, with
two units of fuel for every character. -/
structure Legible (j : Json) : Prop where
  head : ∀ level, ∃ c t, printAt level j = c :: t ∧ isSpace c = false ∧ c ≠ ']'
  value : ∀ level fuel rest, 2 * (printAt level j).length ≤ fuel →
    value? fuel (printAt level j ++ rest) = some (j, rest)

/-- **A string is read back.** -/
theorem legible_string (s : Text) : Legible (.string s) where
  head _ := ⟨'"', s.flatMap escape ++ ['"'], by simp [printAt, quoted], by decide, by decide⟩
  value level fuel rest hfuel := by
    cases fuel with
    | zero => simp [printAt, quoted] at hfuel
    | succ fuel =>
        have hbody := stringBody_quoted s rest
        simp only [printAt, quoted, List.cons_append, List.append_assoc, List.nil_append]
        rw [value?, skipSpace_cons (by decide)]
        simp only [hbody]

/-- An item with a comma behind it stands before the others. -/
theorem items?_more {j : Json} (h : Legible j) {level fuel : Nat}
    (hfuel : 2 * (printAt level j).length ≤ fuel) {tail t : Text}
    (htail : skipSpace tail = ',' :: t) :
    items? (fuel + 1) (printAt level j ++ tail)
      = (items? fuel t).map fun (js, rest) => (j :: js, rest) := by
  rw [items?, h.value level fuel tail hfuel]
  simp only [htail]

/-- An item with a bracket behind it is the last. -/
theorem items?_last {j : Json} (h : Legible j) {level fuel : Nat}
    (hfuel : 2 * (printAt level j).length ≤ fuel) {tail rest : Text}
    (htail : skipSpace tail = ']' :: rest) :
    items? (fuel + 1) (printAt level j ++ tail) = some ([j], rest) := by
  rw [items?, h.value level fuel tail hfuel]
  simp only [htail]

/-- The items of an array are read up to its closing bracket. -/
theorem items?_print {j : Json} {js : List Json} (h : ∀ i ∈ j :: js, Legible i) (level : Nat) :
    ∀ fuel rest,
      2 * ((printAt (level + 1) j).length + (printItems level js).length) + 1 ≤ fuel →
        items? fuel (printAt (level + 1) j ++ (printItems level js ++ ']' :: rest))
          = some (j :: js, rest) := by
  induction js generalizing j with
  | nil =>
      intro fuel rest hfuel
      obtain ⟨fuel, rfl⟩ : ∃ f, fuel = f + 1 := ⟨fuel - 1, by omega⟩
      refine items?_last (h j List.mem_cons_self) (by omega) ?_
      rw [printItems, skipSpace_newLine, skipSpace_cons (by decide)]
  | cons k ks ih =>
      intro fuel rest hfuel
      obtain ⟨fuel, rfl⟩ : ∃ f, fuel = f + 1 := ⟨fuel - 1, by omega⟩
      simp only [printItems, newLine, List.length_cons, List.length_append] at hfuel
      have hrest := ih (j := k) (fun i hi => h i (List.mem_cons_of_mem _ hi)) fuel rest (by omega)
      have hskip := items?_of_skipSpace (skipSpace_newLine (level + 1)
        (printAt (level + 1) k ++ (printItems level ks ++ ']' :: rest))) fuel
      rw [items?_more (h j List.mem_cons_self) (by omega)
        (t := newLine (level + 1)
          ++ (printAt (level + 1) k ++ (printItems level ks ++ ']' :: rest))),
        hskip, hrest, Option.map_some]
      rw [printItems, List.cons_append, skipSpace_cons (by decide), List.append_assoc,
        List.append_assoc]

/-- **An array is read back** if its items are. -/
theorem legible_array {js : List Json} (h : ∀ j ∈ js, Legible j) : Legible (.array js) where
  head level := by
    cases js with
    | nil => exact ⟨'[', [']'], by simp [printAt], by decide, by decide⟩
    | cons j js => exact ⟨'[', _, by rw [printAt], by decide, by decide⟩
  value level fuel rest hfuel := by
    cases js with
    | nil =>
        cases fuel with
        | zero => simp [printAt] at hfuel
        | succ fuel =>
            rw [printAt, value?, List.cons_append, skipSpace_cons (by decide)]
            simp only [List.cons_append, skipSpace_cons (c := ']') (by decide), List.nil_append]
    | cons j js =>
        cases fuel with
        | zero => simp [printAt] at hfuel
        | succ fuel =>
            simp only [printAt, newLine, List.length_cons, List.length_append] at hfuel
            have hitems := items?_print h level fuel rest (by omega)
            obtain ⟨c, t, hhead, hspace, hclose⟩ := (h j List.mem_cons_self).head (level + 1)
            rw [printAt, value?, List.cons_append, skipSpace_cons (by decide)]
            simp only [List.append_assoc, skipSpace_newLine, List.singleton_append]
            rw [hhead, List.cons_append] at hitems ⊢
            rw [skipSpace_cons hspace]
            split
            · next heq => exact absurd (List.cons.inj heq).1 hclose
            · rw [hitems]
              rfl

/-- A member with a comma behind it stands before the others. -/
theorem members?_more {j : Json} (h : Legible j) {level fuel : Nat}
    (hfuel : 2 * (printAt level j).length ≤ fuel) (name : Text) {tail t : Text}
    (htail : skipSpace tail = ',' :: t) :
    members? (fuel + 1) (quoted name ++ ':' :: ' ' :: (printAt level j ++ tail))
      = (members? fuel t).map fun (o, rest) => (addMember (some name) j o, rest) := by
  have hbody := stringBody_quoted name (':' :: ' ' :: (printAt level j ++ tail))
  have hskip := value?_of_skipSpace (skipSpace_space (printAt level j ++ tail)) fuel
  rw [h.value level fuel tail hfuel] at hskip
  simp only [quoted, List.cons_append, List.append_assoc, List.nil_append, members?,
    skipSpace_cons (c := '"') (by decide), hbody, skipSpace_cons (c := ':') (by decide), hskip,
    htail]

/-- A member with a brace behind it is the last. -/
theorem members?_last {j : Json} (h : Legible j) {level fuel : Nat}
    (hfuel : 2 * (printAt level j).length ≤ fuel) (name : Text) {tail rest : Text}
    (htail : skipSpace tail = '\x7d' :: rest) :
    members? (fuel + 1) (quoted name ++ ':' :: ' ' :: (printAt level j ++ tail))
      = some (.object [(name, j)], rest) := by
  have hbody := stringBody_quoted name (':' :: ' ' :: (printAt level j ++ tail))
  have hskip := value?_of_skipSpace (skipSpace_space (printAt level j ++ tail)) fuel
  rw [h.value level fuel tail hfuel] at hskip
  simp only [quoted, List.cons_append, List.append_assoc, List.nil_append, members?,
    skipSpace_cons (c := '"') (by decide), hbody, skipSpace_cons (c := ':') (by decide), hskip,
    htail, addMember]

/-- The members of an object are read up to its closing brace. -/
theorem members?_print {m : Text × Json} {ms : List (Text × Json)}
    (h : ∀ e ∈ m :: ms, Legible e.2) (level : Nat) :
    ∀ fuel rest,
      2 * ((printAt (level + 1) m.2).length + (printMembers level ms).length) + 1 ≤ fuel →
        members? fuel (quoted m.1 ++ ':' :: ' ' :: (printAt (level + 1) m.2
            ++ (printMembers level ms ++ '\x7d' :: rest)))
          = some (.object (m :: ms), rest) := by
  induction ms generalizing m with
  | nil =>
      intro fuel rest hfuel
      obtain ⟨fuel, rfl⟩ : ∃ f, fuel = f + 1 := ⟨fuel - 1, by omega⟩
      refine members?_last (h m List.mem_cons_self) (by omega) m.1 ?_
      rw [printMembers, skipSpace_newLine, skipSpace_cons (by decide)]
  | cons n ns ih =>
      intro fuel rest hfuel
      obtain ⟨fuel, rfl⟩ : ∃ f, fuel = f + 1 := ⟨fuel - 1, by omega⟩
      simp only [printMembers, newLine, List.length_cons, List.length_append] at hfuel
      have hrest := ih (m := n) (fun e he => h e (List.mem_cons_of_mem _ he)) fuel rest (by omega)
      have hskip := members?_of_skipSpace (skipSpace_newLine (level + 1)
        (quoted n.1 ++ ':' :: ' ' :: (printAt (level + 1) n.2
          ++ (printMembers level ns ++ '\x7d' :: rest)))) fuel
      rw [members?_more (h m List.mem_cons_self) (by omega) m.1
        (t := newLine (level + 1) ++ (quoted n.1 ++ ':' :: ' ' :: (printAt (level + 1) n.2
          ++ (printMembers level ns ++ '\x7d' :: rest)))),
        hskip, hrest]
      · rfl
      · simp only [printMembers, List.cons_append, List.append_assoc, List.nil_append,
          skipSpace_cons (c := ',') (by decide)]

/-- **An object is read back** if its values are. -/
theorem legible_object {ms : List (Text × Json)} (h : ∀ m ∈ ms, Legible m.2) :
    Legible (.object ms) where
  head level := by
    cases ms with
    | nil => exact ⟨'\x7b', ['\x7d'], by simp [printAt], by decide, by decide⟩
    | cons m ms => exact ⟨'\x7b', _, by rw [printAt], by decide, by decide⟩
  value level fuel rest hfuel := by
    cases ms with
    | nil =>
        cases fuel with
        | zero => simp [printAt] at hfuel
        | succ fuel =>
            rw [printAt, value?, List.cons_append, skipSpace_cons (by decide)]
            simp only [List.cons_append, skipSpace_cons (c := '\x7d') (by decide),
              List.nil_append]
    | cons m ms =>
        cases fuel with
        | zero => simp [printAt] at hfuel
        | succ fuel =>
            simp only [printAt, newLine, List.length_cons, List.length_append] at hfuel
            have hmembers := members?_print h level fuel rest (by omega)
            rw [printAt, value?, List.cons_append, skipSpace_cons (by decide)]
            simp only [List.append_assoc, skipSpace_newLine, List.cons_append, List.nil_append,
              quoted] at hmembers ⊢
            rw [skipSpace_cons (by decide)]
            exact hmembers

/-! ## Texts -/

/-- **A legible value is read from its text.** -/
theorem read?_print {j : Json} (h : Legible j) : read? j.print = some j := by
  have hvalue := h.value 0 (2 * j.print.length + 2) [] (by simp [print])
  rw [List.append_nil] at hvalue
  have hempty : skipSpace [] = [] := rfl
  rw [read?, print]
  rw [print] at hvalue
  simp [hvalue, hempty]

/-- A list of texts is read back. -/
theorem legible_ofTexts (ts : List Text) : Legible (ofTexts ts) := by
  refine legible_array fun j hj => ?_
  obtain ⟨t, _, rfl⟩ := List.mem_map.1 hj
  exact legible_string t

end Json

end Tagline
