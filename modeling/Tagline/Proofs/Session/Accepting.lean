import Tagline.Proofs.Filling
import Tagline.Proofs.Session.Offering
import Tagline.Proofs.Session.Spans

/-!
# Accepting a suggestion

Accepting a suggestion puts its text in the place of its span and drops what stands
behind.  The line then ends in that text: the span is what is typed of the value, so
what is left in front of it is what opens the value.

A value that is suggested for a closed list is the first of those that are alike to it,
so reading it gives it back; a value of an open field takes its normal spelling.

* `Field.holds_of_mem_suggest` — what a field suggests it holds;
* `Registry.exists_fills` — a suggested value can be filled in;
* `Session.accepting_fills` — accepting a suggestion puts its value into the field, and
  changes nothing else.
-/

namespace Tagline

/-! ## What is suggested is held -/

/-- **What a field suggests it holds.** -/
theorem Field.holds_of_mem_suggest {f : Field} {d : Database} {history : Document}
    {type : Option Text} {typed : Text} {x : Suggestion} (h : x ∈ f.suggest d history type typed)
    (htrim : Text.Trimmed x.replacement) : f.Holds type x.replacement := by
  intro hfixed
  have hkey : f.historyKey d.typeField.name type = none := by
    unfold isFixed at hfixed
    unfold historyKey
    split at hfixed <;> simp_all
  unfold suggest at h
  rw [hkey] at h
  obtain ⟨⟨origin, value⟩, hmem, rfl⟩ := List.mem_map.1 h
  obtain ⟨_, hfind⟩ := find?_of_mem_firstOfEach [] (List.mem_filter.1 hmem).1
  have hvalue : Text.trim value = value := Text.trim_of_trimmed htrim
  rw [canonical, if_pos hfixed]
  show (f.allowedValues type).find? (fun a => Text.alike a (Text.trim value)) = some value
  rw [List.map_nil, List.append_nil, List.find?_map] at hfind
  obtain ⟨a, ha, heq⟩ := Option.map_eq_some_iff.1 hfind
  obtain rfl : a = value := (Prod.mk.inj heq).2
  rw [hvalue]
  exact ha

/-! ## What a suggestion is filled into -/

/-- The outcome `filled` has a value at the place where `o` ends. -/
inductive Outcome.Fills (d : Database) (o filled : Outcome) (value : Text) : Prop where
  | type {typed : Text} (hlocation : o.record.location = some (.type typed))
      (h : o.FillsType filled d.typeField typed value)
  | parameter {f : Field} {segment : Text} (hf : f ∈ d.params)
      (hlocation : o.record.location = some (.parameter f.name segment))
      (h : o.FillsParameter filled f (currentPiece segment f.multi) value)

/-- The separators of a registry are single characters and not blank. -/
structure Registry.SeparatesByOne (r : Registry) : Prop where
  split : ∃ c, r.splitSeparator = [c] ∧ Text.isBlank c = false
  multi : ∀ d ∈ r.databases, ∀ f ∈ d.fields, f.SeparatesByOne

/-- Punctuation is not blank. -/
theorem Registry.Punctuated.separatesByOne {r : Registry} (h : r.Punctuated) :
    r.SeparatesByOne where
  split := h.split.imp fun _ hc => ⟨hc.1, (isSeparator_of_isPunctuation hc.2).2⟩
  multi d hd f hf m hm :=
    (h.multi d hd f hf m hm).imp fun _ hx => ⟨hx.1, (isSeparator_of_isPunctuation hx.2).2⟩

/-- A text that can stand at a place of a line as one value: a type has no blanks, and a
value of a field that may have several does not hold the separator between them.  The
free text is no place for values. -/
def Location.Admits (l : Location) (d : Database) (value : Text) : Prop :=
  match l with
  | .database _ => True
  | .type _ => ∀ c ∈ value, Text.isBlank c = false
  | .parameter name _ =>
      Text.alike name descriptionField = false ∧
        ∀ f, d.field? name = some f → ∀ m, f.multi = some m → ∀ c ∈ m, c ∉ value

namespace Registry

variable {r : Registry} {body : Text} {o : Outcome}

/-- **A suggested value can be filled in**, in the place of what is typed of it or behind
the body. -/
theorem exists_fills {settings : Settings} (hsettings : Registry.ofSettings settings = .ok r)
    (hseparators : r.SeparatesByOne) (hstart : ∀ c ∈ body.head?, Text.isBlank c = false)
    (hparse : r.parse body = .ok o) {history : Document} {suggestions : List Suggestion}
    (hsuggest : r.suggest history o.record = some suggestions) {x : Suggestion}
    (hx : x ∈ suggestions) (horigin : x.origin ≠ .database) (hne : x.replacement ≠ [])
    (htrim : Text.Trimmed x.replacement) (hsplit : ∀ c ∈ r.splitSeparator, c ∉ x.replacement)
    (hadmits : ∀ d l, r.database? o.record.database = some d → o.record.location = some l →
      l.Admits d x.replacement) :
    ∃ d front typed, r.database? o.record.database = some d ∧
      (r.matchText o.record).getD [] = typed ∧ front ≠ [] ∧ front <+: body ∧
      (typed ≠ [] → Text.trimEnd body = front ++ typed) ∧
      ∀ line, line = (if typed = [] then body else front) ++ x.replacement →
        r.dailyEntry? (Text.trim line) = none →
        ∃ filled, r.parse line = .ok filled ∧ o.Fills d filled x.replacement := by
  have haccepted := accepted_of_ofSettings hsettings
  obtain ⟨c, hsep, hc⟩ := hseparators.split
  have hfree : c ∉ x.replacement := hsplit c (by simp [hsep])
  rcases mem_suggest_cases hsuggest hx with ⟨typed, _, hx, _⟩ |
    ⟨typed, _, hplace, hfound, hx, hmatch⟩ |
    ⟨_, segment, _, g, hplace, hfound, hfield, hx, hmatch⟩
  · obtain ⟨name, _, rfl⟩ := List.mem_map.1 hx
    exact absurd rfl horigin
  · obtain ⟨d, front, hd, hbody, hfront, htyped, hfills⟩ :=
      parse_fills_type haccepted hsep hstart hparse hplace
    obtain rfl := Option.some.inj (hfound.symm.trans hd)
    have hvalue := hadmits _ _ hd hplace
    rw [Text.trimStart_of_trimmed htyped] at hmatch
    refine ⟨_, front, typed, hd, hmatch, hfront, ⟨typed, hbody.symm⟩, fun hne => ?_, ?_⟩
    · rw [hbody, Text.trimEnd_append_of_trimmed front hne htyped]
    · rintro line rfl hentry
      have hsame : (if typed = [] then body else front) = front := by
        split
        · next hnil => rw [hbody, hnil, List.append_nil]
        · rfl
      rw [hsame] at hentry ⊢
      obtain ⟨filled, hfilled, h⟩ := hfills x.replacement hne hvalue
        (Field.holds_of_mem_suggest hx htrim) hentry
      exact ⟨filled, hfilled, .type hplace h⟩
  · obtain ⟨d, f, front, hd, hf, rfl, hfront, hprefix, htyped, hfills⟩ :=
      parse_fills_parameter hsep hc haccepted
        (fun d hd f hf => hseparators.multi d hd f (List.mem_cons_of_mem _ hf)) hstart hparse
        hplace
    obtain rfl := Option.some.inj (hfound.symm.trans hd)
    obtain rfl : g = f := Option.some.inj (hfield.symm.trans
      ((haccepted _ (mem_of_database? hd)).field?_name (List.mem_cons_of_mem _ hf)))
    obtain ⟨hdescription, hmulti⟩ := hadmits _ _ hd hplace
    refine ⟨_, front, currentPiece segment g.multi, hd, hmatch, hfront, hprefix, htyped, ?_⟩
    intro line hline hentry
    obtain ⟨filled, hfilled, h⟩ := hfills x.replacement line hne
      ⟨htrim, hmulti g hfield⟩ hfree (Field.holds_of_mem_suggest hx htrim) hdescription hline
      hentry
    exact ⟨filled, hfilled, .parameter hf hplace h⟩

end Registry

/-! ## Lines -/

/-- What is stripped of its prefix does not begin with a blank. -/
theorem Prefix.head_of_strip? {line body : Text} (h : strip? line = some body) :
    ∀ c ∈ body.head?, Text.isBlank c = false := by
  obtain ⟨t, rfl⟩ : ∃ t, body = Text.trimStart t := by
    unfold strip? at h
    split at h
    · exact ⟨_, (Option.some.inj h).symm⟩
    · obtain ⟨t, _, ht⟩ := Option.map_eq_some_iff.1 h
      exact ⟨t, ht.symm⟩
  intro c hc
  obtain ⟨rest, hrest⟩ := List.head?_eq_some_iff.1 hc
  exact Text.dropWhile_head_false Text.isBlank hrest

/-- **The prefix is stripped whatever follows the first character behind it.** -/
theorem Prefix.strip?_cons {lead rest : Text} {c : Char}
    (h : strip? (lead ++ c :: rest) = some (c :: rest)) (rest' : Text) :
    strip? (lead ++ c :: rest') = some (c :: rest') := by
  have hc : Text.isBlank c = false := head_of_strip? h c rfl
  have hstart : ∀ blanks, (∀ b ∈ blanks, Text.isBlank b = true) →
      Text.trimStart (blanks ++ c :: rest') = c :: rest' := fun blanks hblanks => by
    rw [Text.trimStart_append_of_blank hblanks]
    exact List.dropWhile_cons_of_neg (by simp [hc])
  unfold strip? at h
  split at h
  · next t hheading =>
      obtain ⟨blanks, ht, hblanks⟩ := Text.trimStart_append t
      rw [Option.some.inj h] at ht
      have hline := Text.eq_append_of_dropLead? hheading
      rw [ht, ← List.append_assoc] at hline
      rw [List.append_cancel_right hline, strip?, List.append_assoc, Text.dropLead?_append]
      exact congrArg some (hstart blanks hblanks)
  · next hheading =>
      obtain ⟨t, hhash, hbody⟩ := Option.map_eq_some_iff.1 h
      obtain ⟨blanks, ht, hblanks⟩ := Text.trimStart_append t
      rw [hbody] at ht
      have hline := afterHash?_eq_some hhash
      rw [ht, ← List.cons_append] at hline
      have hlead := List.append_cancel_right hline
      subst hlead
      -- The character behind the hash is the same, so it is no second hash.
      obtain ⟨d, tail, tail', hd, hd'⟩ : ∃ d tail tail', blanks ++ c :: rest = d :: tail ∧
          blanks ++ c :: rest' = d :: tail' := by
        cases blanks with
        | nil => exact ⟨c, rest, rest', rfl, rfl⟩
        | cons b blanks => exact ⟨b, _, _, rfl, rfl⟩
      have hother : d ≠ '#' := by
        rintro rfl
        rw [List.cons_append, hd] at hhash
        simp [afterHash?] at hhash
      have hplain : Text.dropLead? heading ('#' :: d :: tail') = none := by
        simp [heading, Text.dropLead?, Ne.symm hother]
      have hafter : afterHash? ('#' :: d :: tail') = some (d :: tail') := by
        simp [afterHash?, hother]
      rw [List.cons_append, hd', strip?, hplain, hafter, Option.map_some, ← hd']
      exact congrArg some (hstart blanks hblanks)

/-- A part of the body that is left in front of another text is stripped as the body is. -/
theorem Prefix.strip?_append_of_prefix {lead body kept : Text}
    (h : strip? (lead ++ body) = some body) (hne : kept ≠ []) (hpart : kept <+: body)
    (rest : Text) : strip? (lead ++ kept ++ rest) = some (kept ++ rest) := by
  obtain ⟨behind, rfl⟩ := hpart
  obtain ⟨c, tail, rfl⟩ := List.exists_cons_of_ne_nil hne
  rw [List.append_assoc, List.cons_append]
  exact strip?_cons h _

/-- The line with a suggestion accepted: what stands in front of its span, and its text. -/
def Suggestion.accept? (x : Suggestion) (line : Text) : Option Text :=
  x.span.bind fun span => (Text.upTo? span.start line).map (· ++ x.replacement)

theorem Suggestion.accept?_append {x : Suggestion} {span : Span} (hspan : x.span = some span)
    {front : Text} (hstart : span.start = Text.bytes front) (behind : Text) :
    x.accept? (front ++ behind) = some (front ++ x.replacement) := by
  rw [accept?, hspan, Option.bind_some, hstart, Text.upTo?_append]
  rfl

namespace Session

variable {β : Type} {s : Session β} {line : Text} {cursor : Nat}

/-- A suggestion that is no name of a database is one of the registry, placed where what
is typed of it starts. -/
theorem exists_of_mem_suggest {suggestions : List Suggestion}
    (h : s.suggest line cursor = some suggestions) {x : Suggestion} (hx : x ∈ suggestions)
    (horigin : x.origin ≠ .database) :
    ∃ lead body o known y, Prefix.split? (line.take cursor) = some (lead, body) ∧
      s.registry.parse body = .ok o ∧
      s.registry.suggest s.history.document o.record = some known ∧ y ∈ known ∧
      y.origin = x.origin ∧ y.replacement = x.replacement ∧
      ∃ span, x.span = some span ∧ span.start =
        if (s.registry.matchText o.record).getD [] = [] then Text.bytes (line.take cursor)
        else Text.bytes lead + Text.bytes (Text.trimEnd body)
          - Text.bytes ((s.registry.matchText o.record).getD []) := by
  obtain ⟨lead, body, hsplit, ⟨typed, _, y, hy, rfl⟩ | ⟨o, known, hparse, hknown, y, hy, rfl⟩⟩ :=
    mem_suggest_cases h hx
  · obtain ⟨name, _, rfl⟩ := List.mem_map.1 hy
    exact absurd rfl horigin
  · refine ⟨lead, body, o, known, y, hsplit, hparse, hknown, hy, ?_⟩
    split <;> exact ⟨rfl, rfl, _, rfl, rfl⟩

/-- **Accepting a suggestion puts its value into the field**, and leaves what is read in
front of it as it is.  A suggestion for a value is put in the place of its span; unless
the line becomes a daily entry, it is read without a warning about that value, with the
value in the place of what was typed of it. -/
theorem accepting_fills {settings : Settings}
    (hsettings : Registry.ofSettings settings = .ok s.registry)
    (hseparators : s.registry.SeparatesByOne) {suggestions : List Suggestion}
    (hsuggest : s.suggest line cursor = some suggestions) {x : Suggestion}
    (hx : x ∈ suggestions) (horigin : x.origin ≠ .database) (hne : x.replacement ≠ [])
    (htrim : Text.Trimmed x.replacement)
    (hsplit : ∀ c ∈ s.registry.splitSeparator, c ∉ x.replacement)
    (hadmits : ∀ o d l, s.registry.parseTagLine (line.take cursor) = .ok o →
      s.registry.database? o.record.database = some d → o.record.location = some l →
      l.Admits d x.replacement) :
    ∃ o d accepted, s.registry.parseTagLine (line.take cursor) = .ok o ∧
      s.registry.database? o.record.database = some d ∧ x.accept? line = some accepted ∧
      ((∀ body, Prefix.strip? accepted = some body →
          s.registry.dailyEntry? (Text.trim body) = none) →
        ∃ filled, s.registry.parseTagLine accepted = .ok filled ∧
          o.Fills d filled x.replacement) := by
  obtain ⟨lead, body, o, known, y, hbefore, hparse, hknown, hy, hsource, hreplacement, span, hspan,
    hspanStart⟩ := exists_of_mem_suggest hsuggest hx horigin
  rw [← hreplacement] at hne htrim hsplit hadmits
  rw [← hsource] at horigin
  obtain ⟨body', hstrip, hpair⟩ := Option.map_eq_some_iff.1 hbefore
  obtain rfl : body' = body := (Prod.mk.inj hpair).2
  have hline : line.take cursor = lead ++ body' := (Prefix.split?_append hbefore).symm
  have hread : s.registry.parseTagLine (line.take cursor) = .ok o := by
    simp only [Registry.parseTagLine, hstrip, hparse]
  obtain ⟨d, front, typed, hd, htyped, hfront, hprefix, htypedEnd, hfills⟩ :=
    Registry.exists_fills hsettings hseparators (Prefix.head_of_strip? hstrip) hparse hknown hy
      horigin hne htrim hsplit fun d l => hadmits o d l hread
  -- What is left in front of the suggestion.
  let kept := if typed = [] then body' else front
  have hkeptStart : span.start = Text.bytes (lead ++ kept) := by
    rw [hspanStart, htyped, hline]
    by_cases hnone : typed = []
    · simp only [kept, if_pos hnone]
    · simp only [kept, if_neg hnone, htypedEnd hnone, Text.bytes_append]
      omega
  have hkept : kept ≠ [] ∧ kept <+: body' := by
    by_cases hnone : typed = []
    · simp only [kept, if_pos hnone]
      refine ⟨?_, List.prefix_refl _⟩
      rintro rfl
      exact hfront (List.prefix_nil.1 hprefix)
    · simp only [kept, if_neg hnone]
      exact ⟨hfront, hprefix⟩
  have haccept : x.accept? line = some (lead ++ kept ++ x.replacement) := by
    obtain ⟨behind, hbehind⟩ := hkept.2
    have hwhole : line = (lead ++ kept) ++ (behind ++ line.drop cursor) := by
      conv_lhs => rw [← List.take_append_drop cursor line, hline, ← hbehind]
      simp
    conv_lhs => rw [hwhole]
    exact Suggestion.accept?_append hspan hkeptStart _
  refine ⟨o, d, lead ++ kept ++ x.replacement, hread, hd, haccept, fun hentry => ?_⟩
  have hbody : Prefix.strip? (lead ++ kept ++ x.replacement) = some (kept ++ x.replacement) :=
    Prefix.strip?_append_of_prefix (hline ▸ hstrip) hkept.1 hkept.2 _
  obtain ⟨filled, hfilled, h⟩ := hfills (kept ++ y.replacement) rfl
    (by rw [hreplacement]; exact hentry _ hbody)
  refine ⟨filled, ?_, hreplacement ▸ h⟩
  simp only [Registry.parseTagLine, hbody]
  rw [← hreplacement]
  exact hfilled

/-- The second piece of gear is completed, and the first one stays. -/
theorem accepting_fills_gear :
    ∃ o d filled,
      gearedSession.registry.parseTagLine "#Exercise/Run 20;;rope, swim-" = .ok o ∧
        gearedSession.registry.parseTagLine "#Exercise/Run 20;;rope, Swim-Fins" = .ok filled ∧
        o.Fills d filled "Swim-Fins" := by
  let line : Text := "#Exercise/Run 20;;rope, swim-"
  let x : Suggestion := (Suggestion.ofValue .history "Swim-Fins").place 24 29
  let asked : Outcome :=
    { record :=
        { database := "Exercise"
          typeValue := some "Run".toList
          params := [⟨"Duration", .single "20"⟩, ⟨"Equipment", .multi ["Rope", "Swim-"]⟩]
          location := some (.parameter "Equipment" "rope, swim-") } }
  have hregistry : gearedSession.registry = workoutRegistry := rfl
  have hsuggest : gearedSession.suggest line 29 = some [x] := by decide +kernel
  have hparse : gearedSession.registry.parseTagLine (line.take 29) = .ok asked := by decide +kernel
  have haccept : x.accept? line = some "#Exercise/Run 20;;rope, Swim-Fins".toList := by
    decide +kernel
  have htrim : Text.Trimmed x.replacement := by
    constructor <;> intro c hc <;> obtain rfl := Option.some.inj hc <;> decide
  have hsplit : ∀ c ∈ gearedSession.registry.splitSeparator, c ∉ x.replacement := by
    intro c hc
    rw [List.mem_singleton.1 hc]
    decide
  have hadmits : ∀ o d l, gearedSession.registry.parseTagLine (line.take 29) = .ok o →
      gearedSession.registry.database? o.record.database = some d →
      o.record.location = some l → l.Admits d x.replacement := by
    intro o d l ho hd hl
    obtain rfl := Except.ok.inj (hparse.symm.trans ho)
    obtain rfl := Option.some.inj hl
    obtain rfl := Option.some.inj hd
    refine ⟨by decide, fun f hf m hm c hc => ?_⟩
    obtain rfl := Option.some.inj hf
    obtain rfl := Option.some.inj hm
    rw [List.mem_singleton.1 hc]
    decide
  obtain ⟨o, d, accepted, hread, _, haccepted, hfills⟩ := accepting_fills
    (hregistry ▸ ofSettings_workout) (hregistry ▸ workoutRegistry_punctuated.separatesByOne) hsuggest
    (List.mem_singleton_self x) (show Origin.history ≠ .database by decide)
    (List.cons_ne_nil 'S' _)
    htrim hsplit hadmits
  obtain rfl := Option.some.inj (haccept.symm.trans haccepted)
  have hstrip : Prefix.strip? "#Exercise/Run 20;;rope, Swim-Fins".toList
      = some "Exercise/Run 20;;rope, Swim-Fins".toList := by decide +kernel
  obtain ⟨filled, hfilled, h⟩ := hfills fun body hbody => by
    obtain rfl := Option.some.inj (hstrip.symm.trans hbody)
    decide +kernel
  exact ⟨o, d, filled, hread, hfilled, h⟩

end Session

end Tagline
