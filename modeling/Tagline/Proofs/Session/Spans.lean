import Tagline.Completion
import Tagline.Proofs.Suggestion
import Mathlib.Data.List.DropRight

/-!
# The spans of suggestions

A session suggests for the text in front of the cursor.  What is typed of a value goes
through every cut of the reader, and each of them leaves an end of the text: the body
of the line, its head or what follows the head, the type behind the slash or the last
segment, the last piece of it, without the blanks in front.  So what is typed stands at
the end of the body without its blanks, and the offsets where it starts and ends are
found by taking lengths off.

* `Registry.matchText_suffix` — a line ends with what is typed of a value;
* `Registry.mem_suggest_cases`, `Session.mem_suggest_cases` — what is suggested, and where;
* `Registry.matchesTyped_of_mem_suggest` — what is suggested begins with what is typed;
* `Session.exact_of_mem_suggest` — every suggestion replaces just that.
-/

namespace Tagline

/-! ## What is typed -/

namespace Database

variable {d : Database} {separator line : Text} {trailing : Bool} {o : Outcome} {l : Location}

/-- Segments end with what stands at the place where they end. -/
theorem typed_suffix_of_readSegments {type : Option Text}
    (h : d.readSegments separator type line = .ok o) (hl : o.record.location = some l) :
    l.typed <:+ line := by
  obtain ⟨fs, f, more, ps, segment, _, hpieces, _, hplace⟩ := readSegments_ends h
  obtain rfl := Option.some.inj (hplace.symm.trans hl)
  exact Text.getLast_pieces_suffix separator (by simp [hpieces, Location.typed])

/-- **A line ends with what stands at the place where it ends.** -/
theorem typed_suffix_of_readLine
    (h : d.readLine separator (splitHead line).1 (splitType (splitHead line).1).2
      (splitHead line).2 trailing = .ok o) (hl : o.record.location = some l) :
    l.typed <:+ line := by
  rcases splitHead_suffix line with ⟨hnone, hhead⟩ | ⟨rest, hrest, hsuffix⟩
  · rw [hnone, hhead] at h
    have hplace : d.headLocation line (splitType line).2 trailing = some l :=
      (congrArg (·.record.location) (Except.ok.inj h)).trans hl
    simp only [headLocation] at hplace
    split at hplace
    · obtain rfl := Option.some.inj hplace
      exact List.suffix_rfl
    · next type htype =>
        split at hplace
        · obtain ⟨p, _, rfl⟩ := Option.map_eq_some_iff.1 hplace
          exact List.nil_suffix
        · obtain rfl := Option.some.inj hplace
          exact splitType_suffix htype
  · rw [hrest] at h
    obtain ⟨value, ws, o', hread, rfl, _⟩ := readLine_some_eq_ok h
    exact (typed_suffix_of_readSegments hread hl).trans hsuffix

end Database

namespace Registry

variable {r : Registry} {line : Text} {o : Outcome}

/-- The place where a line ends is an end of the line without its blanks. -/
theorem typed_suffix_of_parse {l : Location} (h : r.parse line = .ok o)
    (hl : o.record.location = some l) : l.typed <:+ Text.trimEnd line := by
  refine List.IsSuffix.trans ?_ (Text.trimStart_suffix (Text.trimEnd line))
  unfold parse at h
  simp only at h
  split at h
  · cases h
  · split at h
    · obtain rfl := Except.ok.inj h
      cases hl
    · split at h
      · cases h
      · exact Database.typed_suffix_of_readLine h hl

/-- **A line ends with what is typed of a value**, up to blanks. -/
theorem matchText_suffix (h : r.parse line = .ok o) :
    (r.matchText o.record).getD [] <:+ Text.trimEnd line := by
  unfold matchText
  cases hl : o.record.location with
  | none => exact List.nil_suffix
  | some l =>
      have htyped := typed_suffix_of_parse h hl
      cases l with
      | database typed => exact (Text.trimStart_suffix typed).trans htyped
      | type typed => exact (Text.trimStart_suffix typed).trans htyped
      | parameter name typed => exact (currentPiece_suffix typed _).trans htyped

end Registry

/-- A line that is still inside the name of a database ends with it, up to blanks. -/
theorem databasePrefix?_suffix {line typed : Text} (h : databasePrefix? line = some typed) :
    typed <:+ Text.trimEnd line ∧ Text.trimStart typed = typed := by
  unfold databasePrefix? at h
  simp only [Option.ite_none_left_eq_some, Option.some.injEq] at h
  rw [← h.2]
  exact ⟨Text.trimStart_suffix _, List.dropWhile_idempotent _ _⟩

/-! ## What is suggested -/

theorem matchesTyped_of_mem_offered {declared remembered : List Text} {typed : Text}
    {x : Suggestion} (h : x ∈ offered declared remembered typed) :
    matchesTyped typed x.display = true := by
  obtain ⟨⟨origin, value⟩, hmem, rfl⟩ := List.mem_map.1 h
  exact (List.mem_filter.1 hmem).2

namespace Registry

variable {r : Registry}

theorem matchesTyped_of_mem_suggestDatabases {typed : Text} {x : Suggestion}
    (h : x ∈ r.suggestDatabases typed) : matchesTyped (Text.trimStart typed) x.display = true := by
  obtain ⟨name, hmem, rfl⟩ := List.mem_map.1 h
  exact (List.mem_filter.1 hmem).2

/-- **What is suggested for a record**: the names of databases, or what a field offers
for what is typed of it. -/
theorem mem_suggest_cases {history : Document} {record : Record} {xs : List Suggestion}
    (h : r.suggest history record = some xs) {x : Suggestion} (hx : x ∈ xs) :
    (∃ typed, record.location = some (.database typed) ∧ x ∈ r.suggestDatabases typed ∧
        (r.matchText record).getD [] = Text.trimStart typed) ∨
      (∃ typed d, record.location = some (.type typed) ∧
        r.database? record.database = some d ∧
        x ∈ d.typeField.suggest d history none (Text.trimStart typed) ∧
        (r.matchText record).getD [] = Text.trimStart typed) ∨
      ∃ name segment d f, record.location = some (.parameter name segment) ∧
        r.database? record.database = some d ∧ d.field? name = some f ∧
        x ∈ f.suggest d history record.typeValue (currentPiece segment f.multi) ∧
        (r.matchText record).getD [] = currentPiece segment f.multi := by
  unfold suggest at h
  split at h
  · cases h
  · split at h
    · cases h
    · next typed hl =>
        rw [← Option.some.inj h] at hx
        exact Or.inl ⟨typed, hl, hx, by simp [matchText, hl, Location.typed]⟩
    · next typed hl =>
        obtain ⟨d, hd, rfl⟩ := Option.map_eq_some_iff.1 h
        exact Or.inr (Or.inl ⟨typed, d, hl, hd, hx, by simp [matchText, hl, Location.typed]⟩)
    · next name segment hl =>
        obtain ⟨d, hd, rfl⟩ := Option.map_eq_some_iff.1 h
        split at hx
        · next f hf =>
            exact Or.inr (Or.inr
              ⟨name, segment, d, f, hl, hd, hf, hx, by simp [matchText, hl, hd, hf]⟩)
        · cases hx

/-- **What is suggested for a record begins with what is typed.** -/
theorem matchesTyped_of_mem_suggest {history : Document} {record : Record}
    {xs : List Suggestion} (h : r.suggest history record = some xs) {x : Suggestion}
    (hx : x ∈ xs) : matchesTyped ((r.matchText record).getD []) x.display = true := by
  rcases mem_suggest_cases h hx with ⟨typed, _, hx, htyped⟩ | ⟨typed, d, _, _, hx, htyped⟩ |
    ⟨name, segment, d, f, _, _, _, hx, htyped⟩
  · rw [htyped]
    exact matchesTyped_of_mem_suggestDatabases hx
  · rw [htyped]
    exact matchesTyped_of_mem_offered hx
  · rw [htyped]
    exact matchesTyped_of_mem_offered hx

end Registry

/-! ## Spans -/

/-- A span in a line is **exact** for a text and an offset: its ends are boundaries in
their order, nothing but blanks stands between it and the offset, and the text begins
with what stands in it, ignoring case. -/
structure Span.Exact (span : Span) (line : Text) (offset : Nat) (display : Text) : Prop where
  ordered : span.start ≤ span.stop
  bounded : span.stop ≤ offset
  start_boundary : Text.IsBoundary span.start line
  stop_boundary : Text.IsBoundary span.stop line
  blank : ∃ gap, Text.slice? span.stop offset line = some gap ∧
    ∀ c ∈ gap, Text.isBlank c = true
  typed : ∃ typed, Text.slice? span.start span.stop line = some typed ∧
    (Text.lower typed).isPrefixOf (Text.lower display) = true

/-- A part of the line with blanks behind it has an exact span. -/
theorem Span.exact_of_append (front typed : Text) {gap : Text} (after : Text) {display : Text}
    (hgap : ∀ c ∈ gap, Text.isBlank c = true) (htyped : matchesTyped typed display = true) :
    Span.Exact ⟨Text.bytes front, Text.bytes (front ++ typed)⟩ (front ++ typed ++ gap ++ after)
      (Text.bytes (front ++ typed ++ gap)) display where
  ordered := by simp
  bounded := by simp
  start_boundary := ⟨front, typed ++ gap ++ after, by simp, rfl⟩
  stop_boundary := ⟨front ++ typed, gap ++ after, by simp, rfl⟩
  blank := ⟨gap, Text.slice?_append (front ++ typed) gap after, hgap⟩
  typed := by
    refine ⟨typed, ?_, htyped⟩
    have h := Text.slice?_append front typed (gap ++ after)
    rwa [← List.append_assoc] at h

namespace Session

variable {β : Type} {s : Session β} {line : Text} {cursor : Nat}

/-- What ends the body of a line, up to blanks, is cut off by its length. -/
theorem exact_of_suffix {lead body typed display : Text}
    (hsplit : Prefix.split? (line.take cursor) = some (lead, body))
    (hsuffix : typed <:+ Text.trimEnd body) (htyped : matchesTyped typed display = true) :
    Span.Exact
      ⟨Text.bytes lead + Text.bytes (Text.trimEnd body) - Text.bytes typed,
        Text.bytes lead + Text.bytes (Text.trimEnd body)⟩
      line (Text.bytes (line.take cursor)) display := by
  obtain ⟨front, hfront⟩ := hsuffix
  obtain ⟨gap, hbody, hgap⟩ := Text.trimEnd_append body
  have hbefore : line.take cursor = lead ++ front ++ typed ++ gap := by
    rw [← Prefix.split?_append hsplit, hbody, ← hfront]
    simp
  have hline : line = lead ++ front ++ typed ++ gap ++ line.drop cursor := by
    rw [← hbefore, List.take_append_drop]
  have hstop : Text.bytes lead + Text.bytes (Text.trimEnd body)
      = Text.bytes (lead ++ front ++ typed) := by
    rw [← hfront]
    simp
  have hstart : Text.bytes (lead ++ front ++ typed) - Text.bytes typed
      = Text.bytes (lead ++ front) := by
    rw [Text.bytes_append _ typed, Nat.add_sub_cancel]
  have hexact := Span.exact_of_append (lead ++ front) typed (line.drop cursor) hgap htyped
  rw [← hline] at hexact
  rw [hstop, hstart, hbefore]
  exact hexact

/-- Where nothing is typed, the span is at the cursor. -/
theorem exact_at_cursor {display : Text} :
    Span.Exact ⟨Text.bytes (line.take cursor), Text.bytes (line.take cursor)⟩ line
      (Text.bytes (line.take cursor)) display := by
  have hnone : ∀ c ∈ ([] : Text), Text.isBlank c = true := by simp
  simpa using Span.exact_of_append (line.take cursor) [] (line.drop cursor) hnone
    (matchesTyped_nil display)

/-- **What a session suggests**: names of databases in the place of the end of the body,
or what is suggested for the record that is read, at the cursor if nothing is typed. -/
theorem mem_suggest_cases {xs : List Suggestion} (h : s.suggest line cursor = some xs)
    {x : Suggestion} (hx : x ∈ xs) :
    ∃ lead body, Prefix.split? (line.take cursor) = some (lead, body) ∧
      let place (y : Suggestion) (typed : Text) :=
        y.place (Text.bytes lead + Text.bytes (Text.trimEnd body) - Text.bytes typed)
          (Text.bytes lead + Text.bytes (Text.trimEnd body))
      ((∃ typed, databasePrefix? body = some typed ∧
          ∃ y ∈ s.registry.suggestDatabases typed, x = place y typed) ∨
        ∃ o known, s.registry.parse body = .ok o ∧
          s.registry.suggest s.history.document o.record = some known ∧
          ∃ y ∈ known, x =
            if (s.registry.matchText o.record).getD [] = [] then
              y.place (Text.bytes (line.take cursor)) (Text.bytes (line.take cursor))
            else place y ((s.registry.matchText o.record).getD [])) := by
  unfold suggest at h
  simp only at h
  split at h
  · cases h
  · next lead body hsplit =>
      refine ⟨lead, body, hsplit, ?_⟩
      split at h
      · next typed _ hname =>
          rw [← Option.some.inj h] at hx
          obtain ⟨y, hy, rfl⟩ := List.mem_map.1 hx
          exact Or.inl ⟨typed, hname, y, hy, rfl⟩
      · split at h
        · cases h
        · next o hparse =>
            obtain ⟨known, hknown, rfl⟩ := Option.map_eq_some_iff.1 h
            obtain ⟨y, hy, rfl⟩ := List.mem_map.1 hx
            refine Or.inr ⟨o, known, hparse, hknown, y, hy, ?_⟩
            simp only [List.isEmpty_iff]
            split <;> rfl

/-- **Every suggestion replaces just what is typed of it.** -/
theorem exact_of_mem_suggest {xs : List Suggestion} (h : s.suggest line cursor = some xs)
    {x : Suggestion} (hx : x ∈ xs) :
    ∃ span, x.span = some span ∧
      span.Exact line (Text.bytes (line.take cursor)) x.display := by
  obtain ⟨lead, body, hsplit,
      ⟨typed, hname, y, hy, rfl⟩ | ⟨o, known, hparse, hknown, y, hy, rfl⟩⟩ :=
    mem_suggest_cases h hx
  · obtain ⟨hsuffix, htrim⟩ := databasePrefix?_suffix hname
    have htyped := Registry.matchesTyped_of_mem_suggestDatabases hy
    rw [htrim] at htyped
    exact ⟨_, rfl, exact_of_suffix hsplit hsuffix htyped⟩
  · have htyped := Registry.matchesTyped_of_mem_suggest hknown hy
    split
    · exact ⟨_, rfl, exact_at_cursor⟩
    · exact ⟨_, rfl, exact_of_suffix hsplit (Registry.matchText_suffix hparse) htyped⟩

end Session

end Tagline
