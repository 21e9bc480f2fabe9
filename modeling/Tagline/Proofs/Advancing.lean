import Tagline.Proofs.Cursor
import Tagline.Proofs.Matching

/-!
# Typing a separator

A separator behind a line that ends in a parameter leads on: the separator of segments to the
next parameter, and the separator of values to another value of the same one.  What is typed
in front stays as it is, so only the end of the line has to be cut again, with the separator
behind it (`Cursor.parse_append_eq_ok`).

Two things decide what comes of it.  A line is trimmed before it is cut, so a separator that
ends in a blank loses its end and leads nowhere.  And it is cut from the left, so a separator
that overlaps with what is typed begins there, and the rest of it is what is typed of the next
parameter.

* `Cursor.parse_append_separator`, `Cursor.ends_of_parse_append_separator` — the separator of
  segments;
* `Cursor.parse_append_multi`, `Cursor.ends_of_parse_append_multi` — the separator of values;
* `Registry.typing_separator` — both of them, for lines read with accepted settings.
-/

namespace Tagline

namespace Text

/-- The blanks at the end of a text. -/
def endBlanks (t : Text) : Text :=
  (t.reverse.takeWhile isBlank).reverse

theorem endBlanks_append {t gap : Text} (hlast : ∀ c ∈ t.getLast?, isBlank c = false)
    (hgap : ∀ c ∈ gap, isBlank c = true) : endBlanks (t ++ gap) = gap := by
  have hnone : t.reverse.takeWhile isBlank = [] := by
    cases hrev : t.reverse with
    | nil => rfl
    | cons c rest =>
        have hc : isBlank c = false := hlast c (by rw [← List.head?_reverse, hrev]; rfl)
        rw [List.takeWhile_cons_of_neg (by simp [hc])]
  rw [endBlanks, List.reverse_append, List.takeWhile_append_of_pos fun c hc =>
    hgap c (List.mem_reverse.1 hc), hnone, List.append_nil, List.reverse_reverse]

theorem blank_of_mem_endBlanks {t : Text} : ∀ c ∈ endBlanks t, isBlank c = true := fun c hc =>
  List.all_eq_true.1 List.all_takeWhile c (List.mem_reverse.1 hc)

/-- Blanks behind a text bring in no separator, unless one ends in a blank. -/
theorem not_infix_append_of_blank {sep t gap : Text} (hne : sep ≠ [])
    (hlast : ∀ c ∈ sep.getLast?, isBlank c = false) (hgap : ∀ c ∈ gap, isBlank c = true)
    (h : ¬ sep <:+: t) : ¬ sep <:+: t ++ gap := by
  rintro ⟨front, behind, heq⟩
  rcases List.append_eq_append_iff.1 heq with ⟨more, ht, _⟩ | ⟨more, ht, hmore⟩
  · exact h ⟨front, more, ht.symm⟩
  · by_cases hnil : more = []
    · rw [hnil, List.append_nil] at ht
      exact h ⟨front, [], by rw [List.append_nil, ht]⟩
    · have hsame := congrArg List.getLast? ht
      rw [List.getLast?_append_of_ne_nil _ hne, List.getLast?_append_of_ne_nil _ hnil,
        List.getLast?_eq_some_getLast hnil] at hsame
      have hblank := hgap _ (hmore ▸ List.mem_append_left behind (List.getLast_mem hnil))
      rw [hlast _ hsame] at hblank
      cases hblank

end Text

/-- Where nothing is typed of the last value, the separator stands at the end, unless the text
ends in a blank. -/
theorem suffix_of_currentPiece_eq_nil {m p : Text} (hne : p ≠ [])
    (hlast : ∀ b ∈ p.getLast?, Text.isBlank b = false) (h : currentPiece p (some m) = []) :
    m <:+ p := by
  have hblank : ∀ q, q <:+ p → Text.trimStart q = [] → q = [] := by
    intro q hq hempty
    by_contra hqne
    obtain ⟨front, rfl⟩ := hq
    have hb := List.getLast_mem hqne
    have htrue := List.dropWhile_eq_nil_iff.1 hempty _ hb
    have hend : (front ++ q).getLast? = some (q.getLast hqne) := by
      rw [List.getLast?_append_of_ne_nil _ hqne, List.getLast?_eq_some_getLast hqne]
    rw [hlast _ hend] at htrue
    cases htrue
  cases hafter : Text.afterLast? m p with
  | none =>
      simp only [currentPiece, hafter] at h
      exact absurd (hblank p List.suffix_rfl h) hne
  | some q =>
      simp only [currentPiece, hafter] at h
      have hsuffix := Text.append_suffix_of_afterLast? hafter
      rwa [hblank q ((List.suffix_append m q).trans hsuffix) h, List.append_nil] at hsuffix

namespace Database.Accepted

variable {d : Database} {fs gs more rest : List Field} {f g : Field}

/-- A name does not stand among the parameters twice, so it says where it stands. -/
theorem length_eq_of_name (haccepted : d.Accepted) (hf : d.params = fs ++ f :: more)
    (hg : d.params = gs ++ g :: rest) (hname : f.name = g.name) : fs.length = gs.length := by
  have hle : ∀ {fs gs more rest : List Field} {f g : Field}, d.params = fs ++ f :: more →
      d.params = gs ++ g :: rest → f.name = g.name → gs.length ≤ fs.length := by
    intro fs gs more rest f g hf hg hname
    by_contra hlt
    have hplace : (gs ++ g :: rest)[fs.length]? = some f := by
      rw [← hg, hf]
      simp
    rw [List.getElem?_append_left (by omega)] at hplace
    have hother := haccepted.not_alike_front hg f (List.mem_of_getElem? hplace)
    rw [hname, Text.alike_refl] at hother
    cases hother
  exact Nat.le_antisymm (hle hg hf hname.symm) (hle hf hg hname)

end Database.Accepted

namespace Cursor

variable {r : Registry} {line : Text} {o : Outcome} (c : Cursor r line o)

/-- The blanks behind what is typed are those at the end of the line. -/
theorem endBlanks_eq (hne : c.rest ≠ []) : Text.endBlanks line = c.gap := by
  have hline : line = (c.lead ++ c.head ++ c.blanks ++ c.rest) ++ c.gap := by
    simp [c.line_eq]
  refine (congrArg Text.endBlanks hline).trans (Text.endBlanks_append (fun b hb => ?_) c.gap_blank)
  rw [List.getLast?_append_of_ne_nil _ hne] at hb
  exact c.rest_trimmed.2 b hb

/-- What is typed of a parameter does not hold the separator. -/
theorem not_infix_typed (hsep : r.splitSeparator ≠ []) : ¬ r.splitSeparator <:+: c.typed :=
  Text.not_infix_of_mem_pieces hsep (c.pieces ▸ List.mem_append_right _ (by simp))

theorem params_of_after {next : Field} {more : List Field} (hafter : c.after = next :: more) :
    c.d.params = (c.before ++ [c.f]) ++ next :: more := by
  rw [c.params, hafter, List.append_assoc, List.singleton_append]

variable {c}

/-- **The separator of segments leads to the next parameter**, if its ends are not blank.
Something is typed of that one already exactly if the separator begins inside what stands in
front. -/
theorem parse_append_separator (hsep : r.splitSeparator ≠ [])
    (hlast : ∀ b ∈ r.splitSeparator.getLast?, Text.isBlank b = false)
    (hfirst : c.before = [] → c.typed = [] →
      ∀ b ∈ r.splitSeparator.head?, Text.isBlank b = false)
    (hentry : r.dailyEntry? (Text.trim (line ++ r.splitSeparator)) = none) {next : Field}
    {more : List Field} (hafter : c.after = next :: more) :
    ∃ o' p, r.parse (line ++ r.splitSeparator) = .ok o' ∧
      o'.record.database = o.record.database ∧
      o'.record.location = some (.parameter next.name p) ∧
      (p = [] ↔ ∀ u v, u <:+ c.typed ++ Text.endBlanks line →
        Text.Overlap r.splitSeparator u v → u = []) := by
  obtain ⟨front, u, v, hsplit, hpieces, hoverlap, hlongest⟩ :=
    Text.exists_pieces_append_self hsep
      (Text.not_infix_append_of_blank hsep hlast c.gap_blank (c.not_infix_typed hsep))
  have hstart : c.rest = [] → ∀ b ∈ r.splitSeparator.head?, Text.isBlank b = false := fun hnil =>
    hfirst (c.rest_eq_nil_iff.1 hnil).1 (c.rest_eq_nil_iff.1 hnil).2
  rw [List.append_assoc, ← c.added_of_ends hsep hlast hstart] at hpieces
  have hlength : (c.before ++ [c.f]).length = c.before.length + [front].length :=
    List.length_append
  obtain ⟨o', hparse, _, hdatabase, _, hlocation⟩ :=
    parse_append_eq_ok hentry (hpieces : _ = [front] ++ [v]) (c.params_of_after hafter) hlength
  refine ⟨o', v, hparse, hdatabase, hlocation, ?_⟩
  have hempty : v = [] ↔ u = [] := by
    rw [← List.length_eq_zero_iff, ← hoverlap.length_eq, List.length_eq_zero_iff]
  rw [hempty]
  by_cases hnil : c.rest = []
  · -- Only blanks stand in front, and the separator does not begin with one.
    have htyped := (c.rest_eq_nil_iff.1 hnil).2
    rw [htyped, c.gap_nil hnil] at hsplit
    refine iff_of_true (List.append_eq_nil_iff.1 hsplit.symm).2 fun u' v' hu' hoverlap' => ?_
    by_contra hne
    rw [htyped, List.nil_append] at hu'
    obtain ⟨b, u', rfl⟩ := List.exists_cons_of_ne_nil hne
    obtain ⟨a, sep, hsepEq⟩ := List.exists_cons_of_ne_nil hsep
    rw [Text.Overlap, hsepEq] at hoverlap'
    have hb := Text.blank_of_mem_endBlanks b (hu'.subset List.mem_cons_self)
    rw [(List.cons.inj hoverlap').1, hstart hnil a (by rw [hsepEq]; rfl)] at hb
    cases hb
  · rw [c.endBlanks_eq hnil]
    constructor
    · intro hu u' v' hu' hoverlap'
      have hle := hlongest u' v' hu' hoverlap'
      rw [hu] at hle
      exact List.length_eq_zero_iff.1 (Nat.le_zero.1 hle)
    · exact fun hall => hall u v ⟨front, hsplit.symm⟩ hoverlap

/-- It leads nowhere otherwise: what is trimmed of the line is no separator. -/
theorem ends_of_parse_append_separator (haccepted : c.d.Accepted) (hsep : r.splitSeparator ≠ [])
    (hentry : r.dailyEntry? (Text.trim (line ++ r.splitSeparator)) = none) {next : Field}
    {more : List Field} (hafter : c.after = next :: more) {o' : Outcome}
    (h : r.parse (line ++ r.splitSeparator) = .ok o')
    (hplace : o'.record.location = some (.parameter next.name [])) :
    (∀ b ∈ r.splitSeparator.getLast?, Text.isBlank b = false) ∧
      (c.before = [] → c.typed = [] → ∀ b ∈ r.splitSeparator.head?, Text.isBlank b = false) := by
  obtain ⟨ps, p, hpieces⟩ :=
    Text.pieces_eq_concat r.splitSeparator (c.typed ++ c.added r.splitSeparator)
  obtain ⟨fs, g, more', hparams, hlength, hlocation⟩ := location_of_parse_append hentry h hpieces
  have hsame := Option.some.inj (hlocation.symm.trans hplace)
  rw [Location.parameter.injEq] at hsame
  obtain ⟨hname, rfl⟩ := hsame
  have hps : ps ≠ [] := by
    rintro rfl
    have hplaces := haccepted.length_eq_of_name hparams (c.params_of_after hafter) hname
    rw [hlength, List.length_append] at hplaces
    simp at hplaces
  have hsuffix : r.splitSeparator <:+ c.typed ++ c.added r.splitSeparator := by
    have hends := Text.append_last_suffix_intercalate r.splitSeparator hps []
    rwa [← hpieces, Text.intercalate_pieces hsep, List.append_nil] at hends
  refine ⟨Text.getLast_of_suffix hsuffix (c.getLast_typed_added _), fun hbefore htyped => ?_⟩
  · -- Nothing stands in front, so the separator is whole only if it is trimmed.
    have hrest : c.rest = [] := c.rest_eq_nil_iff.2 ⟨hbefore, htyped⟩
    rw [htyped, List.nil_append, added, if_pos hrest] at hsuffix
    have hwhole : r.splitSeparator = Text.trim r.splitSeparator :=
      hsuffix.eq_of_length_le (Text.trim_isInfix _).length_le
    intro b hb
    exact (Text.trimmed_trim r.splitSeparator).1 b (hwhole ▸ hb)

/-- If the longer line ends in the same parameter, nothing of what is typed has been cut. -/
theorem typed_of_parse_append (haccepted : c.d.Accepted) {ext p : Text} {o' : Outcome}
    (hentry : r.dailyEntry? (Text.trim (line ++ ext)) = none)
    (h : r.parse (line ++ ext) = .ok o')
    (hplace : o'.record.location = some (.parameter c.f.name p)) :
    Text.pieces r.splitSeparator (c.typed ++ c.added ext) = [p] ∧ p = c.typed ++ c.added ext := by
  obtain ⟨ps, q, hpieces⟩ := Text.pieces_eq_concat r.splitSeparator (c.typed ++ c.added ext)
  obtain ⟨fs, g, more, hparams, hlength, hlocation⟩ := location_of_parse_append hentry h hpieces
  have hsame := Option.some.inj (hlocation.symm.trans hplace)
  rw [Location.parameter.injEq] at hsame
  obtain ⟨hname, rfl⟩ := hsame
  have hplaces := haccepted.length_eq_of_name hparams c.params hname
  obtain rfl : ps = [] := List.length_eq_zero_iff.1 (by omega)
  exact ⟨hpieces, Text.eq_of_piecesFrom_eq_singleton hpieces⟩

/-- **The separator of values begins another value of the same parameter**, if it does not end
in a blank and the separator of segments does not come about. -/
theorem parse_append_multi (haccepted : ∀ d ∈ r.databases, d.Accepted) {m : Text}
    (hm : c.f.multi = some m) (hne : m ≠ []) (htyped : Text.trim c.typed ≠ [])
    (hentry : r.dailyEntry? (Text.trim (line ++ m)) = none)
    (hlast : ∀ b ∈ m.getLast?, Text.isBlank b = false)
    (hfree : ¬ r.splitSeparator <:+: c.typed ++ Text.endBlanks line ++ m) :
    ∃ o', r.parse (line ++ m) = .ok o' ∧
      o'.record.database = o.record.database ∧
      o'.record.location = some (.parameter c.f.name (c.typed ++ Text.endBlanks line ++ m)) ∧
      r.matchText o'.record = some [] ∧
      ∀ history, ∃ offers, r.suggest history o'.record = some offers ∧
        ∀ v, v ∈ c.f.allowedValues o.record.typeValue ∨
            v ∈ c.f.remembered c.d history o.record.typeValue →
          ∃ x ∈ offers, Text.alike x.display v = true := by
  have hd := c.database? haccepted
  have hfield := (haccepted c.d (Registry.mem_of_database? hd)).field?_name
    (List.mem_cons_of_mem _ c.f_mem)
  have hrest := c.rest_ne_nil htyped
  have hone : Text.pieces r.splitSeparator (c.typed ++ c.added m)
      = [] ++ [c.typed ++ Text.endBlanks line ++ m] := by
    rw [c.added_of_ends hne hlast fun hnil => absurd hnil hrest, ← c.endBlanks_eq hrest,
      ← List.append_assoc, Text.pieces_of_not_isInfix hfree, List.nil_append]
  obtain ⟨o', hparse, hdaily, hdatabase, htype, hlocation⟩ :=
    parse_append_eq_ok hentry hone c.params rfl
  have hd' : r.database? o'.record.database = some c.d := by rw [hdatabase, hd]
  have hcurrent : currentPiece (c.typed ++ Text.endBlanks line ++ m) c.f.multi = [] := by
    obtain ⟨q, hq, hempty⟩ :=
      Text.exists_afterLast?_suffix hne (c.typed ++ Text.endBlanks line) []
    rw [List.append_nil] at hq
    rw [hm]
    simp only [currentPiece, hq, List.suffix_nil.1 hempty]
    rfl
  refine ⟨o', hparse, hdatabase, hlocation, ?_, fun history =>
    ⟨_, Registry.suggest_of_field hdaily hlocation hd' hfield history, fun v hv => ?_⟩⟩
  · rw [Registry.matchText_of_field hlocation hd' hfield, hcurrent]
  · rw [hcurrent, htype, Field.suggest_eq_offered]
    exact exists_offered hv (matchesTyped_nil v)

/-- Only then nothing is typed of a value of the same parameter. -/
theorem ends_of_parse_append_multi (haccepted : ∀ d ∈ r.databases, d.Accepted)
    (hsep : r.splitSeparator ≠ []) {m : Text} (hm : c.f.multi = some m) (hne : m ≠ [])
    (htyped : Text.trim c.typed ≠ [])
    (hentry : r.dailyEntry? (Text.trim (line ++ m)) = none) {o' : Outcome} {p : Text}
    (h : r.parse (line ++ m) = .ok o')
    (hplace : o'.record.location = some (.parameter c.f.name p))
    (hmatch : r.matchText o'.record = some []) :
    (∀ b ∈ m.getLast?, Text.isBlank b = false) ∧
      ¬ r.splitSeparator <:+: c.typed ++ Text.endBlanks line ++ m := by
  have hd := c.database? haccepted
  have hmem := Registry.mem_of_database? hd
  obtain ⟨hone, rfl⟩ := typed_of_parse_append (haccepted c.d hmem) hentry h hplace
  have hall : Text.pieces r.splitSeparator (c.typed ++ c.added m)
      = [] ++ [c.typed ++ c.added m] := hone
  obtain ⟨again, hparse, _, hdatabase, _⟩ := parse_append_eq_ok hentry hall c.params rfl
  obtain rfl : o' = again := Except.ok.inj (h.symm.trans hparse)
  have hfield := (haccepted c.d hmem).field?_name (List.mem_cons_of_mem _ c.f_mem)
  have hcurrent := Option.some.inj
    ((Registry.matchText_of_field hplace (by rw [hdatabase, hd]) hfield).symm.trans hmatch)
  have hrest := c.rest_ne_nil htyped
  have hlast : ∀ b ∈ m.getLast?, Text.isBlank b = false := by
    have hsomething : c.typed ++ c.added m ≠ [] := by
      intro hnil
      rw [(List.append_eq_nil_iff.1 hnil).1] at htyped
      exact htyped rfl
    rw [hm] at hcurrent
    exact Text.getLast_of_suffix
      (suffix_of_currentPiece_eq_nil hsomething (c.getLast_typed_added m) hcurrent)
      (c.getLast_typed_added m)
  refine ⟨hlast, ?_⟩
  rw [c.added_of_ends hne hlast fun hnil => absurd hnil hrest, ← c.endBlanks_eq hrest,
    ← List.append_assoc] at hone
  exact Text.not_infix_of_mem_pieces hsep (by rw [hone]; exact List.mem_singleton_self _)

end Cursor

namespace Registry

variable {s : Settings} {r : Registry} {line : Text} {o : Outcome} {name typed : Text}

/-- **A separator behind a line leads on.**  Behind a line that ends in a parameter, the
separator of segments leads to the next one, if there is one.  For that it must not end in a
blank, nor begin with one where nothing follows the head yet: what is trimmed of a line is no
separator.  Of the next parameter nothing is typed then, unless the separator overlaps with
what is typed in front.

The separator of values leads to a value of which nothing is typed, and everything that the
field declares or remembers is offered, if some value is typed.  For that it must not end in a
blank either, and the separator of segments must not come about. -/
theorem typing_separator (hr : ofSettings s = .ok r) (h : r.parse line = .ok o)
    (hplace : o.record.location = some (.parameter name typed)) :
    ∃ d before f after, r.database? o.record.database = some d ∧
      d.params = before ++ f :: after ∧ f.name = name ∧
      (∀ next more, after = next :: more →
        r.dailyEntry? (Text.trim (line ++ r.splitSeparator)) = none →
        ((∀ c ∈ r.splitSeparator.getLast?, Text.isBlank c = false) →
          (before = [] → typed = [] → ∀ c ∈ r.splitSeparator.head?, Text.isBlank c = false) →
          ∃ o' p, r.parse (line ++ r.splitSeparator) = .ok o' ∧
            o'.record.database = o.record.database ∧
            o'.record.location = some (.parameter next.name p) ∧
            (p = [] ↔ ∀ u v, u <:+ typed ++ Text.endBlanks line →
              Text.Overlap r.splitSeparator u v → u = [])) ∧
        ∀ o', r.parse (line ++ r.splitSeparator) = .ok o' →
          o'.record.location = some (.parameter next.name []) →
          (∀ c ∈ r.splitSeparator.getLast?, Text.isBlank c = false) ∧
            (before = [] → typed = [] →
              ∀ c ∈ r.splitSeparator.head?, Text.isBlank c = false)) ∧
      ∀ m, f.multi = some m → Text.trim typed ≠ [] →
        r.dailyEntry? (Text.trim (line ++ m)) = none →
        ((∀ c ∈ m.getLast?, Text.isBlank c = false) →
          ¬ r.splitSeparator <:+: typed ++ Text.endBlanks line ++ m →
          ∃ o', r.parse (line ++ m) = .ok o' ∧
            o'.record.database = o.record.database ∧
            o'.record.location
              = some (.parameter f.name (typed ++ Text.endBlanks line ++ m)) ∧
            r.matchText o'.record = some [] ∧
            ∀ history, ∃ offers, r.suggest history o'.record = some offers ∧
              ∀ v, v ∈ f.allowedValues o.record.typeValue ∨
                  v ∈ f.remembered d history o.record.typeValue →
                ∃ x ∈ offers, Text.alike x.display v = true) ∧
        ∀ o' p, r.parse (line ++ m) = .ok o' →
          o'.record.location = some (.parameter f.name p) →
          r.matchText o'.record = some [] →
          (∀ c ∈ m.getLast?, Text.isBlank c = false) ∧
            ¬ r.splitSeparator <:+: typed ++ Text.endBlanks line ++ m := by
  obtain ⟨c, rfl, rfl⟩ := Cursor.exists_of_parse h hplace
  have haccepted := accepted_of_ofSettings hr
  have hd := c.database? haccepted
  have hd' := haccepted c.d (mem_of_database? hd)
  obtain ⟨hsep, hseparators⟩ := separators_of_ofSettings hr
  refine ⟨c.d, c.before, c.f, c.after, hd, c.params, rfl, ?_, ?_⟩
  · intro next more hafter hentry
    exact ⟨fun hlast hfirst => Cursor.parse_append_separator hsep hlast hfirst hentry hafter,
      fun o' => Cursor.ends_of_parse_append_separator hd' hsep hentry hafter⟩
  · intro m hm htyped hentry
    have hne : m ≠ [] := by
      rintro rfl
      exact hseparators c.d (mem_of_database? hd) c.f (List.mem_cons_of_mem _ c.f_mem) hm
    exact ⟨Cursor.parse_append_multi haccepted hm hne htyped hentry,
      fun o' p => Cursor.ends_of_parse_append_multi haccepted hsep hm hne htyped hentry⟩

/-- Settings of meals with several kinds of food, for given separators. -/
def mealSettings (split multi : Text) : Settings where
  splitSeparator := split
  databases :=
    [ { database := "Meal"
        params := ["Food", "Drink"]
        fields := SortedMap.ofList
          [("Food", { allowed := some .history, multi := some multi })] } ]

/-- The registry of those settings. -/
def meals (split multi : Text) : Registry where
  splitSeparator := split
  databases :=
    [ { name := "Meal"
        typeField := { name := "Type" }
        params :=
          [{ name := "Food", policy := .history ⟨[], []⟩, multi := some multi },
            { name := "Drink" }] } ]

/-- What is read of a meal, up to the blanks behind it. -/
def rice : Outcome where
  record :=
    { database := "Meal"
      params := [⟨"Food", .multi ["Rice"]⟩]
      location := some (.parameter "Food" "rice") }

/-- A semicolon leads from the food to the drink, a comma to another kind of food. -/
theorem typing_separator_rice :
    ofSettings (mealSettings ";" ",") = .ok (meals ";" ",") ∧
      (meals ";" ",").parse "Meal rice " = .ok rice ∧
      (∃ o', (meals ";" ",").parse "Meal rice ;" = .ok o' ∧
        o'.record.location = some (.parameter "Drink" [])) ∧
      ∃ o', (meals ";" ",").parse "Meal rice ," = .ok o' ∧
        (meals ";" ",").matchText o'.record = some [] := by
  have hr : ofSettings (mealSettings ";" ",") = .ok (meals ";" ",") := rfl
  have hparse : (meals ";" ",").parse "Meal rice " = .ok rice := by decide +kernel
  obtain ⟨d, before, f, after, hd, hparams, hname, hsplit, hmulti⟩ :=
    typing_separator hr hparse rfl
  obtain rfl : (meals ";" ",").databases.head (by decide) = d := Option.some.inj hd
  obtain rfl : before = [] := by
    cases before with
    | nil => rfl
    | cons g before =>
        cases before with
        | nil =>
            obtain rfl := (List.cons.inj (List.cons.inj hparams).2).1
            exact absurd hname (by decide)
        | cons g' before =>
            have hlength := congrArg List.length hparams
            simp [meals] at hlength
  obtain ⟨rfl, rfl⟩ := List.cons.inj hparams
  have hfirst : ∀ u v, u <:+ "rice".toList ++ Text.endBlanks "Meal rice " →
      Text.Overlap ";" u v → u = [] := by
    intro u v hu hoverlap
    cases u with
    | nil => rfl
    | cons c u =>
        obtain rfl : c = ';' := (List.cons.inj hoverlap).1
        exact absurd (hu.subset List.mem_cons_self) (by decide)
  have hends : ∀ x, Text.isBlank x = false → ∀ c ∈ [x].getLast?, Text.isBlank c = false := by
    intro x hx c hc
    obtain rfl : x = c := Option.some.inj hc
    exact hx
  obtain ⟨o', p, hparse', _, hlocation, hempty⟩ :=
    (hsplit _ _ rfl rfl).1 (hends ';' (by decide)) fun _ h => absurd h (by decide)
  rw [hempty.2 hfirst] at hlocation
  have hfree : ¬ (meals ";" ",").splitSeparator
      <:+: "rice".toList ++ Text.endBlanks "Meal rice " ++ ",".toList := by decide
  obtain ⟨o'', hparse'', _, _, hmatch, _⟩ :=
    (hmulti "," rfl (by decide) rfl).1 (hends ',' (by decide)) hfree
  exact ⟨hr, hparse, ⟨o', hparse', hlocation⟩, o'', hparse'', hmatch⟩

/-- Where a line of a meal ends, and what is matched there. -/
def mealEnd? (split multi line : Text) : Option (Option Location × Option Text) :=
  match ofSettings (mealSettings split multi) with
  | .error _ => none
  | .ok r => (r.parse line).toOption.map fun o => (o.record.location, r.matchText o.record)

/-- Other separators do not lead on: two hyphens that overlap with a hyphen in front; two
semicolons, if a separator of values brings the second one; and separators of which a part
is trimmed, at the end of the line or behind its head. -/
theorem typing_separator_overlapping :
    (mealEnd? "--" "," "Meal 30-" = some (some (.parameter "Food" "30-"), some "30-".toList) ∧
      mealEnd? "--" "," ("Meal 30-" ++ "--")
        = some (some (.parameter "Drink" "-"), some "-".toList)) ∧
    (mealEnd? ";;" ";," "Meal rice;"
        = some (some (.parameter "Food" "rice;"), some "rice;".toList) ∧
      mealEnd? ";;" ";," ("Meal rice;" ++ ";,")
        = some (some (.parameter "Drink" ","), some ",".toList)) ∧
    (mealEnd? "; " ", " "Meal rice" = some (some (.parameter "Food" "rice"), some "rice".toList) ∧
      mealEnd? "; " ", " ("Meal rice" ++ "; ")
        = some (some (.parameter "Food" "rice;"), some "rice;".toList) ∧
      mealEnd? "; " ", " ("Meal rice" ++ ", ")
        = some (some (.parameter "Food" "rice,"), some "rice,".toList)) ∧
    mealEnd? " ;" "," "Meal/Snack " = some (some (.parameter "Food" []), some []) ∧
      mealEnd? " ;" "," ("Meal/Snack " ++ " ;")
        = some (some (.parameter "Food" ";"), some ";".toList) := by
  refine ⟨⟨?_, ?_⟩, ⟨?_, ?_⟩, ⟨?_, ?_, ?_⟩, ?_, ?_⟩ <;> decide +kernel

end Registry

end Tagline
