import Tagline.Proofs.Text.Normal
import Mathlib.Data.List.Chain

/-!
# What a normal spelling looks like

The normal spelling of a value that is neither free text nor a numeral is put together from
segments in title case, with hyphens into words, with single spaces into parts, and with commas
into the value.  What it looks like is read off the joins, from the inside to the outside.

Two things are carried through them.  Of two neighbours that meet at a blank neither is a blank
or a comma besides: a join keeps this if it holds inside the parts and where a part meets the
separator.  And a text is cut at all its separators into the segments of its parts, since what
joins the parts is itself a separator.

* `isChain_intercalate` — a relation between neighbours is kept by a join;
* `piecesWhere_intercalate` — the pieces of a join are those of its parts;
* `canonical_of_not_verbatim` — the spaces, commas and segments of a normal spelling;
* `normalize_canonical` — the normal spelling is a canonical form.
-/

namespace Tagline

namespace Text

/-! ## Neighbours -/

/-- **A relation between neighbours is kept by a join**, if it holds where the parts meet the
separator, and between two separators unless no part is empty. -/
theorem isChain_intercalate {R : Char → Char → Prop} {s : Char} {ps : List Text}
    (hparts : ∀ p ∈ ps, p.IsChain R) (hbehind : ∀ p ∈ ps, ∀ c ∈ p.getLast?, R c s)
    (hfront : ∀ p ∈ ps, ∀ c ∈ p.head?, R s c) (hempty : R s s ∨ ∀ p ∈ ps, p ≠ []) :
    ([s].intercalate ps).IsChain R := by
  induction ps with
  | nil => exact .nil
  | cons p ps ih =>
      have hp := hparts p List.mem_cons_self
      cases ps with
      | nil => simpa using hp
      | cons q qs =>
          have hrest : ([s].intercalate (q :: qs)).IsChain R :=
            ih (fun r hr => hparts r (List.mem_cons_of_mem _ hr))
              (fun r hr => hbehind r (List.mem_cons_of_mem _ hr))
              (fun r hr => hfront r (List.mem_cons_of_mem _ hr))
              (hempty.imp_right fun h r hr => h r (List.mem_cons_of_mem _ hr))
          -- Behind the separator stands the first part, or another separator.
          have hnext : ∀ c ∈ ([s].intercalate (q :: qs)).head?, R s c := by
            intro c hc
            cases q with
            | nil =>
                have hss : R s s := hempty.resolve_right fun h =>
                  h [] (List.mem_cons_of_mem _ List.mem_cons_self) rfl
                cases qs with
                | nil => simp at hc
                | cons r rs =>
                    rw [List.intercalate_cons_cons] at hc
                    simp only [List.nil_append, List.singleton_append, List.head?_cons,
                      Option.mem_def, Option.some.injEq] at hc
                    exact hc ▸ hss
            | cons d q =>
                refine hfront (d :: q) (List.mem_cons_of_mem _ List.mem_cons_self) c ?_
                cases qs with
                | nil => simpa using hc
                | cons r rs => simpa [List.intercalate_cons_cons] using hc
          rw [List.intercalate_cons_cons, List.append_assoc, List.singleton_append]
          refine hp.append (List.isChain_cons.2 ⟨hnext, hrest⟩) fun c hc d hd => ?_
          simp only [List.head?_cons, Option.mem_def, Option.some.injEq] at hd
          exact hd ▸ hbehind p List.mem_cons_self c hc

/-- Where two neighbours meet at a blank, neither is another blank or a comma. -/
def Spaced (c d : Char) : Prop :=
  (isBlank c = true → isBlank d = false ∧ d ≠ ',') ∧
    (isBlank d = true → isBlank c = false ∧ c ≠ ',')

/-- Two characters that are not blank can stand side by side. -/
theorem spaced_of_not_blank {c d : Char} (hc : isBlank c = false) (hd : isBlank d = false) :
    Spaced c d := by
  simp [Spaced, hc, hd]

/-- So a text without blanks is evenly spaced. -/
theorem isChain_spaced_of_no_blank {t : Text} (h : ∀ c ∈ t, isBlank c = false) :
    t.IsChain Spaced :=
  (List.pairwise_of_forall_mem_list fun c hc d hd => spaced_of_not_blank (h c hc) (h d hd)).isChain

/-! ## Segments -/

/-- The characters at which a value is cut. -/
def isCut (c : Char) : Bool :=
  c == ',' || c == ' ' || c == '-'

/-- The characters at which a value is cut are marks. -/
theorem isMark_of_isCut {c : Char} (h : isCut c = true) : isMark c = true := by
  simp only [isCut, Bool.or_eq_true, beq_iff_eq] at h
  rcases h with (rfl | rfl) | rfl <;> decide

/-- **The pieces of a join are those of its parts**, if it is cut at the separator too. -/
theorem piecesWhere_intercalate {p : Char → Bool} {s : Char} (hs : p s = true) {ps : List Text}
    (hne : ps ≠ []) : piecesWhere p ([s].intercalate ps) = ps.flatMap (piecesWhere p) := by
  induction ps with
  | nil => exact absurd rfl hne
  | cons q ps ih =>
      cases ps with
      | nil => simp
      | cons r rs =>
          have hrest := ih (List.cons_ne_nil r rs)
          rw [List.intercalate_cons_cons, List.append_assoc, List.singleton_append,
            piecesWhere_eq_splitOnP, List.splitOnP_append_cons _ _ hs, List.flatMap_cons, ← hrest,
            piecesWhere_eq_splitOnP, piecesWhere_eq_splitOnP]

/-- Every segment of a text is in title case. -/
def Titled (t : Text) : Prop :=
  ∀ segment ∈ piecesWhere isCut t, titleCase segment = segment

/-- Texts in title case that are joined at a cut are in title case. -/
theorem titled_intercalate {s : Char} (hs : isCut s = true) {ps : List Text}
    (h : ∀ p ∈ ps, Titled p) : Titled ([s].intercalate ps) := by
  by_cases hne : ps = []
  · subst hne
    intro segment hsegment
    obtain rfl : segment = [] := by simpa [piecesWhere] using hsegment
    rfl
  · intro segment hsegment
    rw [piecesWhere_intercalate hs hne] at hsegment
    obtain ⟨p, hp, hsegment⟩ := List.mem_flatMap.1 hsegment
    exact h p hp segment hsegment

/-- A segment is cut no further when it is put in title case. -/
theorem titled_titleCase {s : Text} (h : ∀ c ∈ s, isCut c = false) :
    Titled (titleCase s) := by
  have hwhole : ∀ c ∈ titleCase s, isCut c = false := by
    intro c hc
    by_contra hcut
    rw [Bool.not_eq_false] at hcut
    have hmem := mem_of_mem_titleCase (isMark_of_isCut hcut) hc
    rw [h c hmem] at hcut
    cases hcut
  intro segment hsegment
  rw [piecesWhere_eq_splitOnP, List.splitOnP_eq_singleton hwhole, List.mem_singleton] at hsegment
  rw [hsegment, titleCase_titleCase]

/-- A word in title case is in title case at every hyphen. -/
theorem titled_titleWord {w : Text} (hblank : ∀ c ∈ w, isBlank c = false) (hcomma : ',' ∉ w) :
    Titled (titleWord w) := by
  refine titled_intercalate (by decide) fun q hq => ?_
  obtain ⟨p, hp, rfl⟩ := List.mem_map.1 hq
  refine titled_titleCase fun c hc => ?_
  have hword : c ∈ w := (infix_of_mem_pieces hp).subset hc
  have hhyphen : c ≠ '-' := fun heq => not_mem_of_mem_pieces hp (heq ▸ hc)
  have hspace : c ≠ ' ' := fun heq => absurd (hblank c hword) (heq ▸ by decide)
  have hother : c ≠ ',' := fun heq => hcomma (heq ▸ hword)
  simp [isCut, hhyphen, hspace, hother]

/-! ## Parts between commas -/

section

variable {p : Text} (hcomma : ',' ∉ p)

include hcomma

/-- No word of a part has a comma. -/
theorem comma_not_mem_titled_words {v : Text} (hv : v ∈ (words p).map titleWord) : ',' ∉ v := by
  obtain ⟨w, hw, rfl⟩ := List.mem_map.1 hv
  obtain ⟨_, _, hmem⟩ := of_mem_words hw
  exact fun h => hcomma (hmem ',' (mem_of_mem_titleWord (by decide) h))

/-- The words of a comma part are evenly spaced. -/
theorem isChain_titlePart : (titlePart p).IsChain Spaced := by
  have hword : ∀ v ∈ (words p).map titleWord, ∀ c ∈ v, isBlank c = false ∧ c ≠ ',' :=
    fun v hv c hc => ⟨(of_mem_titled_words hv).2 c hc,
      fun heq => comma_not_mem_titled_words hcomma hv (heq ▸ hc)⟩
  refine isChain_intercalate ?_ ?_ ?_ (Or.inr fun v hv => (of_mem_titled_words hv).1)
  · exact fun v hv => isChain_spaced_of_no_blank (of_mem_titled_words hv).2
  · intro v hv c hc
    obtain ⟨hblank, hother⟩ := hword v hv c (List.mem_of_mem_getLast? hc)
    simp [Spaced, hblank, hother]
  · intro v hv c hc
    obtain ⟨hblank, hother⟩ := hword v hv c (List.mem_of_mem_head? hc)
    simp [Spaced, hblank, hother]

theorem titled_titlePart : Titled (titlePart p) := by
  refine titled_intercalate (by decide) fun v hv => ?_
  obtain ⟨w, hw, rfl⟩ := List.mem_map.1 hv
  obtain ⟨_, hblank, hmem⟩ := of_mem_words hw
  exact titled_titleWord hblank fun h => hcomma (hmem ',' h)

end

/-- A blank of a part is the space between two words. -/
theorem eq_space_of_mem_titlePart {p : Text} {c : Char} (hc : c ∈ titlePart p)
    (hblank : isBlank c = true) : c = ' ' := by
  rcases mem_intercalate hc with hspace | ⟨v, hv, hcv⟩
  · exact hspace
  · rw [(of_mem_titled_words hv).2 c hcv] at hblank
    cases hblank

/-! ## Values -/

/-- A text is **canonical** if its words have a single space between them, no blank stands at a
comma, and every segment between commas, spaces and hyphens is in title case. -/
structure Canonical (t : Text) : Prop where
  spaces : ∀ c ∈ t, isBlank c = true → c = ' '
  single : ∀ c d, [c, d] <:+: t → ¬ (isBlank c = true ∧ isBlank d = true)
  commas : ∀ c, isBlank c = true → ¬ [c, ','] <:+: t ∧ ¬ [',', c] <:+: t
  titled : ∀ segment ∈ piecesWhere isCut t, titleCase segment = segment

/-- **The spaces, commas and segments of a normal spelling** that is not kept as it is
typed. -/
theorem canonical_of_not_verbatim {raw : Text} (h : isVerbatim (trim raw) = false) :
    Canonical (normalize raw) := by
  rw [normalize_of_not_verbatim h]
  have hparts : ∀ q ∈ (pieces [','] (trim raw)).map titlePart,
      ∃ p, ',' ∉ p ∧ q = titlePart p := by
    intro q hq
    obtain ⟨p, hp, rfl⟩ := List.mem_map.1 hq
    exact ⟨p, not_mem_of_mem_pieces hp, rfl⟩
  generalize (pieces [','] (trim raw)).map titlePart = qs at hparts
  have hspaced : ([','].intercalate qs).IsChain Spaced := by
    refine isChain_intercalate (fun q hq => ?_) (fun q hq c hc => ?_) (fun q hq c hc => ?_)
      (Or.inl (spaced_of_not_blank (by decide) (by decide)))
    · obtain ⟨p, hcomma, rfl⟩ := hparts q hq
      exact isChain_titlePart hcomma
    · obtain ⟨p, _, rfl⟩ := hparts q hq
      exact spaced_of_not_blank ((trimmed_titlePart p).2 c hc) (by decide)
    · obtain ⟨p, _, rfl⟩ := hparts q hq
      exact spaced_of_not_blank (by decide) ((trimmed_titlePart p).1 c hc)
  have hpair : ∀ c d, [c, d] <:+: [','].intercalate qs → Spaced c d := by
    intro c d hcd
    have hchain : [c, d].IsChain Spaced := hspaced.infix hcd
    exact List.isChain_pair.1 hchain
  constructor
  case spaces =>
    intro c hc hblank
    rcases mem_intercalate hc with rfl | ⟨q, hq, hcq⟩
    · exact absurd hblank (by decide)
    · obtain ⟨p, _, rfl⟩ := hparts q hq
      exact eq_space_of_mem_titlePart hcq hblank
  case single =>
    rintro c d hcd ⟨hc, hd⟩
    rw [((hpair c d hcd).1 hc).1] at hd
    cases hd
  case commas =>
    intro c hc
    exact ⟨fun hcd => ((hpair c ',' hcd).1 hc).2 rfl, fun hdc => ((hpair ',' c hdc).2 hc).2 rfl⟩
  case titled =>
    refine titled_intercalate (by decide) fun q hq => ?_
    obtain ⟨p, hcomma, rfl⟩ := hparts q hq
    exact titled_titlePart hcomma

/-- **The normal spelling is a canonical form**: it is its own normal spelling, has no blanks
around it, and is empty for a blank value only; and unless the value has more than three words
or is a numeral, its words have a single space between them, its commas no blank beside them,
and its segments are in title case. -/
theorem normalize_canonical (raw : Text) :
    normalize (normalize raw) = normalize raw ∧ Trimmed (normalize raw) ∧
      (normalize raw = [] ↔ allBlank raw = true) ∧
      ((words (trim raw)).length ≤ 3 → isNumeral (trim raw) = false →
        Canonical (normalize raw)) := by
  refine ⟨normalize_normalize raw, trimmed_normalize raw, ?_, fun hwords hnumeral => ?_⟩
  · rw [normalize_eq_nil_iff, allBlank_iff]
  · refine canonical_of_not_verbatim ?_
    rw [isVerbatim, hnumeral, Bool.or_false, decide_eq_false_iff_not, Nat.not_lt]
    exact hwords

/-- Two parts with blanks at the comma, of which the second has two words far apart. -/
theorem normalize_canonical_trail :
    normalize " trail-RUN ,ice   cream " = "Trail-Run,Ice Cream" ∧
      Canonical (normalize " trail-RUN ,ice   cream ") := by
  obtain ⟨_, _, _, hcanonical⟩ := normalize_canonical " trail-RUN ,ice   cream "
  exact ⟨by decide +kernel, hcanonical (by decide +kernel) (by decide +kernel)⟩

end Text

end Tagline
