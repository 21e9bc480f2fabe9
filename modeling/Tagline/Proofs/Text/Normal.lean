import Tagline.Text.Normal
import Tagline.Proofs.Text.Pieces

/-!
# The normal spelling is a normal form

Bringing a value to its normal spelling twice is bringing it there once.  The
cuts at commas, blanks and hyphens are undone by the joins, because title case
neither makes nor removes a separator; and a segment in title case is kept by
title case.  Whichever branch the second pass takes, it gives what it is given.

The same argument, read for a single mark, says that normalizing brings in no
separator: `exists_mem_of_normalize` is stated for a class of marks.

* `normalize_normalize` — normalizing twice is normalizing once;
* `trimmed_normalize`, `normalize_eq_nil_iff` — the result is trimmed, and empty
  only for a blank text;
* `exists_mem_of_normalize` — no mark but a space beside others is brought in.
-/

namespace Tagline

namespace Text

/-! ## Segments -/

/-- A mark of a segment in title case stands in the segment. -/
theorem mem_of_mem_titleCase {s : Text} {d : Char} (hd : isMark d = true)
    (h : d ∈ titleCase s) : d ∈ s := by
  cases s with
  | nil => exact h
  | cons c t =>
      rw [titleCase] at h
      rcases List.mem_cons.1 h with rfl | h
      · rw [isMark_upperChar] at hd
        rw [upperChar_of_isMark hd]
        exact List.mem_cons_self
      · exact List.mem_cons_of_mem _ ((mem_lower_iff hd).1 h)

theorem titleCase_eq_nil {s : Text} : titleCase s = [] ↔ s = [] := by
  cases s <;> simp [titleCase]

/-- A segment in title case is kept. -/
@[simp] theorem titleCase_titleCase (s : Text) : titleCase (titleCase s) = titleCase s := by
  cases s with
  | nil => rfl
  | cons c t => simp [titleCase]

/-! ## Words -/

/-- What holds of a mark in a joined text holds of one in the text that was cut. -/
theorem exists_mem_of_mapped {P : Char → Prop} {f : Text → Text} {s : Char}
    (hf : ∀ p, (∃ c ∈ f p, P c) → ∃ c ∈ p, P c) {t : Text}
    (h : ∃ c ∈ [s].intercalate ((pieces [s] t).map f), P c) : ∃ c ∈ t, P c := by
  have hjoin := exists_mem_intercalate_map hf h
  rwa [intercalate_pieces (by simp)] at hjoin

/-- What holds of a mark of a word in title case holds of one of the word. -/
theorem exists_mem_of_titleWord {P : Char → Prop} (hP : ∀ c, P c → isMark c = true) {w : Text}
    (h : ∃ c ∈ titleWord w, P c) : ∃ c ∈ w, P c := by
  refine exists_mem_of_mapped (fun p hp => ?_) h
  obtain ⟨c, hc, hPc⟩ := hp
  exact ⟨c, mem_of_mem_titleCase (hP c hPc) hc, hPc⟩

/-- A mark of a word in title case stands in the word. -/
theorem mem_of_mem_titleWord {w : Text} {d : Char} (hd : isMark d = true)
    (h : d ∈ titleWord w) : d ∈ w := by
  obtain ⟨c, hc, rfl⟩ := exists_mem_of_titleWord (P := (· = d)) (fun c hc => hc ▸ hd) ⟨d, h, rfl⟩
  exact hc

/-- A word stays without blanks. -/
theorem no_blank_titleWord {w : Text} (h : ∀ c ∈ w, isBlank c = false) :
    ∀ c ∈ titleWord w, isBlank c = false := by
  intro c hc
  by_cases hblank : isBlank c = true
  · exact h c (mem_of_mem_titleWord (isMark_of_isBlank hblank) hc)
  · simpa using hblank

/-- A word stays a word. -/
theorem titleWord_ne_nil {w : Text} (h : w ≠ []) : titleWord w ≠ [] := by
  intro heq
  rcases intercalate_eq_nil heq with hnil | hone
  · exact pieces_ne_nil ['-'] w (List.map_eq_nil_iff.1 hnil)
  · obtain ⟨p, hp, hcase⟩ := List.map_eq_singleton_iff.1 hone
    rw [titleCase_eq_nil.1 hcase] at hp
    have hjoin := intercalate_pieces (show ['-'] ≠ [] by simp) w
    rw [hp] at hjoin
    exact h (by simpa using hjoin.symm)

/-- Pieces that are mapped without bringing in the separator are found again. -/
theorem pieces_join_map {s : Char} {f : Text → Text} (hf : ∀ p, s ∈ f p → s ∈ p) (t : Text) :
    pieces [s] ([s].intercalate ((pieces [s] t).map f)) = (pieces [s] t).map f := by
  refine pieces_intercalate ?_ ?_
  · simpa using pieces_ne_nil [s] t
  · intro q hq
    obtain ⟨p, hp, rfl⟩ := List.mem_map.1 hq
    exact fun hs => not_mem_of_mem_pieces hp (hf p hs)

/-- **A cut and a join with a kept map in between are kept.** -/
theorem join_map_join_map {s : Char} {f : Text → Text} (hf : ∀ p, s ∈ f p → s ∈ p)
    (hkeep : ∀ p, f (f p) = f p) (t : Text) :
    [s].intercalate ((pieces [s] ([s].intercalate ((pieces [s] t).map f))).map f)
      = [s].intercalate ((pieces [s] t).map f) := by
  rw [pieces_join_map hf, List.map_map]
  congr 1
  exact List.map_congr_left fun p _ => hkeep p

/-- **A word in title case is in title case.** -/
@[simp] theorem titleWord_titleWord (w : Text) : titleWord (titleWord w) = titleWord w :=
  join_map_join_map (fun _ => mem_of_mem_titleCase (by decide)) titleCase_titleCase w

/-! ## Parts between commas -/

/-- The words of a part in title case. -/
theorem of_mem_titled_words {p v : Text} (hv : v ∈ (words p).map titleWord) :
    v ≠ [] ∧ ∀ c ∈ v, isBlank c = false := by
  obtain ⟨w, hw, rfl⟩ := List.mem_map.1 hv
  obtain ⟨hne, hblank, _⟩ := of_mem_words hw
  exact ⟨titleWord_ne_nil hne, no_blank_titleWord hblank⟩

/-- The words of a part are cut again where they were joined. -/
theorem words_titlePart (p : Text) : words (titlePart p) = (words p).map titleWord :=
  words_intercalate fun _ hv => of_mem_titled_words hv

/-- So are the words between two commas. -/
@[simp] theorem titlePart_titlePart (p : Text) : titlePart (titlePart p) = titlePart p := by
  have hwords : words (titlePart p) = (words p).map titleWord := words_titlePart p
  rw [titlePart, hwords, List.map_map, titlePart]
  congr 1
  exact List.map_congr_left fun w _ => titleWord_titleWord w

/-- A mark in a part comes from the part, or is the space between two of its
words. -/
theorem exists_mem_of_titlePart {P : Char → Prop} (hP : ∀ c, P c → isMark c = true)
    (hspace : P ' ' → ∀ c, isBlank c = true → P c) {p : Text}
    (h : ∃ c ∈ titlePart p, P c) : ∃ c ∈ p, P c := by
  obtain ⟨c, hc, hPc⟩ := h
  by_cases hno : ∀ d ∈ p, isBlank d = false
  · by_cases hne : p = []
    · subst hne
      simp [titlePart] at hc
    · rw [titlePart, words_of_no_blank hne hno] at hc
      exact exists_mem_of_titleWord hP ⟨c, by simpa using hc, hPc⟩
  · -- A blank in the part stands for every space that the join brings in.
    rcases mem_intercalate hc with rfl | ⟨v, hv, hcv⟩
    · simp only [not_forall, Bool.not_eq_false] at hno
      obtain ⟨d, hd, hblank⟩ := hno
      exact ⟨d, hd, hspace hPc d hblank⟩
    · obtain ⟨w, hw, rfl⟩ := List.mem_map.1 hv
      obtain ⟨_, _, hmem⟩ := of_mem_words hw
      exact ⟨c, hmem c (mem_of_mem_titleWord (hP c hPc) hcv), hPc⟩

/-- A part in title case begins and ends with a word. -/
theorem trimmed_titlePart (p : Text) : Trimmed (titlePart p) := by
  refine trimmed_intercalate (fun v hv => ?_) (Or.inr fun v hv => (of_mem_titled_words hv).1)
  exact trimmed_of_no_blank (of_mem_titled_words hv).2

/-! ## Values -/

/-- A value is normalized part by part where it is not kept as it is. -/
theorem normalize_of_not_verbatim {raw : Text} (h : isVerbatim (trim raw) = false) :
    normalize raw = [','].intercalate ((pieces [','] (trim raw)).map titlePart) := by
  simp [normalize, h]

/-- A value that is kept as it is typed is only trimmed. -/
theorem normalize_of_verbatim {raw : Text} (h : isVerbatim (trim raw) = true) :
    normalize raw = trim raw := by
  simp [normalize, h]

/-- A comma in a part comes from the part. -/
theorem comma_mem_of_mem_titlePart {p : Text} (h : ',' ∈ titlePart p) : ',' ∈ p := by
  have hcomma : isMark ',' = true := by decide
  have hspace : ' ' = ',' → ∀ c, isBlank c = true → c = ',' := fun heq => absurd heq (by decide)
  obtain ⟨c, hc, rfl⟩ := exists_mem_of_titlePart (P := (· = ',')) (fun c hc => hc ▸ hcomma)
    hspace ⟨',', h, rfl⟩
  exact hc

/-- **A normal spelling is trimmed.** -/
theorem trimmed_normalize (raw : Text) : Trimmed (normalize raw) := by
  by_cases h : isVerbatim (trim raw) = true
  · rw [normalize_of_verbatim h]
    exact trimmed_trim raw
  · rw [normalize_of_not_verbatim (by simpa using h)]
    refine trimmed_intercalate (fun q hq => ?_) (Or.inl (by decide))
    obtain ⟨p, _, rfl⟩ := List.mem_map.1 hq
    exact trimmed_titlePart p

/-- **The normal spelling is a normal form.**  The second pass may take the other
branch, since joining words at a comma leaves fewer of them; both branches keep
what the first pass gave. -/
theorem normalize_normalize (raw : Text) : normalize (normalize raw) = normalize raw := by
  have htrim : trim (normalize raw) = normalize raw := trim_of_trimmed (trimmed_normalize raw)
  by_cases hagain : isVerbatim (normalize raw) = true
  · rw [normalize_of_verbatim (by rwa [htrim]), htrim]
  · rw [normalize_of_not_verbatim (by simpa [htrim] using hagain), htrim]
    by_cases h : isVerbatim (trim raw) = true
    · rw [normalize_of_verbatim h] at hagain
      exact absurd h hagain
    · rw [normalize_of_not_verbatim (by simpa using h)]
      exact join_map_join_map (fun _ => comma_mem_of_mem_titlePart) titlePart_titlePart _

/-- **Normalizing brings in no separator.**  A mark of the normal spelling stands
in the value, or is a space where the value has some blank. -/
theorem exists_mem_of_normalize {P : Char → Prop} (hP : ∀ c, P c → isMark c = true)
    (hspace : P ' ' → ∀ c, isBlank c = true → P c) {raw : Text}
    (h : ∃ c ∈ normalize raw, P c) : ∃ c ∈ raw, P c := by
  have htrim : ∃ c ∈ trim raw, P c := by
    by_cases hv : isVerbatim (trim raw) = true
    · rwa [normalize_of_verbatim hv] at h
    · rw [normalize_of_not_verbatim (by simpa using hv)] at h
      exact exists_mem_of_mapped (fun _ => exists_mem_of_titlePart hP hspace) h
  obtain ⟨c, hc, hPc⟩ := htrim
  exact ⟨c, mem_of_mem_trim hc, hPc⟩

/-- A mark other than the space that the value does not hold is not brought in. -/
theorem not_mem_normalize {raw : Text} {d : Char} (hd : isMark d = true) (hne : d ≠ ' ')
    (h : d ∉ raw) : d ∉ normalize raw := by
  intro hmem
  obtain ⟨c, hc, rfl⟩ := exists_mem_of_normalize (P := (· = d)) (fun c hc => hc ▸ hd)
    (fun heq => absurd heq.symm hne) ⟨d, hmem, rfl⟩
  exact h hc

/-- A value without blanks stays without blanks. -/
theorem no_blank_normalize {raw : Text} (h : ∀ c ∈ raw, isBlank c = false) :
    ∀ c ∈ normalize raw, isBlank c = false := by
  intro c hc
  by_cases hblank : isBlank c = true
  · obtain ⟨d, hd, hdb⟩ := exists_mem_of_normalize (P := (isBlank · = true))
      (fun _ => isMark_of_isBlank) (fun _ _ hb => hb) ⟨c, hc, hblank⟩
    rw [h d hd] at hdb
    exact absurd hdb (by decide)
  · simpa using hblank

/-- A text of blanks that is trimmed is empty. -/
theorem eq_nil_of_trimmed_of_blank {t : Text} (ht : Trimmed t) (h : ∀ c ∈ t, isBlank c = true) :
    t = [] := by
  cases t with
  | nil => rfl
  | cons c t =>
      have hc := h c List.mem_cons_self
      rw [ht.1 c rfl] at hc
      exact absurd hc (by decide)

/-- Only a blank text has an empty normal spelling. -/
theorem normalize_eq_nil_iff {raw : Text} : normalize raw = [] ↔ trim raw = [] := by
  by_cases hv : isVerbatim (trim raw) = true
  · rw [normalize_of_verbatim hv]
  · rw [normalize_of_not_verbatim (by simpa using hv)]
    constructor
    · intro h
      rcases intercalate_eq_nil h with hnil | hone
      · exact absurd (List.map_eq_nil_iff.1 hnil) (pieces_ne_nil _ _)
      · obtain ⟨p, hp, hpart⟩ := List.map_eq_singleton_iff.1 hone
        have hjoin := intercalate_pieces (show [','] ≠ [] by simp) (trim raw)
        rw [hp, List.intercalate_singleton] at hjoin
        have hwords : words p = [] := by
          rw [← List.map_eq_nil_iff (f := titleWord), ← words_titlePart, hpart, words_nil]
        rw [hjoin] at hwords
        exact eq_nil_of_trimmed_of_blank (trimmed_trim raw) (blank_of_words_eq_nil hwords)
    · intro h
      rw [h]
      decide

end Text

end Tagline
