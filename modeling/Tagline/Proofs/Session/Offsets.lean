import Tagline.Proofs.Session.Offering
import Tagline.Proofs.Session.Spans

/-!
# Suggestions and completions by byte offsets

The places of suggestions are found with lengths in bytes: the prefix of the line is the
line without its body, the head ends at the offset of the first blank, and what is typed
starts at the end of the body less its own length.  Here each of these is computed as
such, with differences and cuts that may fail, and none of them does: what is taken off
is always an end of what it is taken from.

A completion is asked for at a byte offset.  If that is a boundary, the characters in
front of it are counted and the same boundary is found again from their number.

* `Registry.parseByBytes?_eq`, `Session.suggestByBytes?_eq` — offsets never fail;
* `Session.start_completeTag` — a completion begins at a boundary in front of the cursor;
* `Session.suggestions_are_exact` — all this together, with the spans.
-/

namespace Tagline

namespace Text

/-- The byte offset of the first blank. -/
def blankOffset? : Text → Option Nat
  | [] => none
  | c :: t => if isBlank c then some 0 else (blankOffset? t).map (c.utf8Size + ·)

/-- The first blank stands behind the characters that are no blanks. -/
theorem blankOffset?_eq (t : Text) :
    blankOffset? t =
      if t.dropWhile (fun c => !isBlank c) = [] then none
      else some (bytes (t.takeWhile fun c => !isBlank c)) := by
  induction t with
  | nil => rfl
  | cons c t ih =>
      by_cases hc : isBlank c = true
      · simp [blankOffset?, hc]
      · simp only [blankOffset?, hc, ih, List.dropWhile_cons, List.takeWhile_cons]
        by_cases hrest : t.dropWhile (fun c => !isBlank c) = [] <;> simp [hrest]

end Text

/-- `splitHead`, with the cut at the byte offset of the first blank. -/
def splitHeadByBytes? (line : Text) : Option (Text × Option Text) :=
  match Text.blankOffset? line with
  | none => some (line, none)
  | some offset => do
      let head ← Text.upTo? offset line
      let rest ← Text.from? offset line
      some (head, some (Text.trimStart rest))

theorem splitHeadByBytes?_eq (line : Text) : splitHeadByBytes? line = some (splitHead line) := by
  have hline := List.takeWhile_append_dropWhile (p := fun c => !Text.isBlank c) (l := line)
  rw [splitHeadByBytes?, Text.blankOffset?_eq, splitHead]
  cases hrest : line.dropWhile fun c => !Text.isBlank c with
  | nil =>
      rw [hrest, List.append_nil] at hline
      simp [hline]
  | cons c rest =>
      rw [hrest] at hline
      generalize line.takeWhile (fun c => !Text.isBlank c) = head at hline
      subst hline
      simp

/-- `Registry.parse`, with the head cut off at its byte offset. -/
def Registry.parseByBytes? (r : Registry) (line : Text) : Option (Except LineError Outcome) :=
  let upToEnd := Text.trimEnd line
  let trailing : Bool := Text.bytes upToEnd < Text.bytes line
  let trimmed := Text.trimStart upToEnd
  if trimmed.isEmpty then some (.error .empty)
  else
    match r.dailyEntry? trimmed with
    | some entry => some (.ok { record := { database := entry, daily := true } })
    | none => do
        let (head, rest) ← splitHeadByBytes? trimmed
        let (name, typeRaw) := splitType head
        match r.database? name with
        | none => some (.error (.unknownDatabase name))
        | some d => some (d.readLine r.splitSeparator head typeRaw rest trailing)

/-- A text is shorter in characters when it is shorter in bytes, if it is a beginning. -/
theorem Text.bytes_trimEnd_lt_iff (t : Text) :
    Text.bytes (Text.trimEnd t) < Text.bytes t ↔ (Text.trimEnd t).length < t.length := by
  obtain ⟨tail, ht, _⟩ := Text.trimEnd_append t
  generalize Text.trimEnd t = front at ht
  subst ht
  cases tail with
  | nil => simp
  | cons c tail =>
      have hpos := c.utf8Size_pos
      simp
      omega

theorem Registry.parseByBytes?_eq (r : Registry) (line : Text) :
    r.parseByBytes? line = some (r.parse line) := by
  simp only [parseByBytes?, parse, splitHeadByBytes?_eq, Text.bytes_trimEnd_lt_iff]
  split
  · rfl
  · cases r.dailyEntry? (Text.trimStart (Text.trimEnd line)) with
    | some entry => rfl
    | none =>
        simp only [Option.bind_eq_bind, Option.bind_some]
        cases r.database? (splitType (splitHead (Text.trimStart (Text.trimEnd line))).1).1 <;> rfl

/-- The length of the tag prefix in bytes: what is stripped is taken off the line.  There
is `none` inside if the line is no tag line. -/
def Prefix.byteLength? (line : Text) : Option (Option Nat) :=
  match Prefix.strip? line with
  | none => some none
  | some body => (sub? (Text.bytes line) (Text.bytes body)).map some

namespace Session

variable {β : Type}

/-- The suggestions for a body that can be read.  They end at `textEnd`, or stand at
`offset` if nothing is typed. -/
def suggestKnownByBytes? (s : Session β) (body : Text) (offset textEnd : Nat) :
    Option (Option (List Suggestion)) := do
  match ← s.registry.parseByBytes? body with
  | .error _ => some none
  | .ok outcome =>
      match s.registry.suggest s.history.document outcome.record with
      | none => some none
      | some suggestions =>
          let typed := (s.registry.matchText outcome.record).getD []
          if typed.isEmpty then
            some (some (suggestions.map fun x => x.place offset offset))
          else
            let start ← sub? textEnd (Text.bytes typed)
            some (some (suggestions.map fun x => x.place start textEnd))

/-- `suggest`, with every place computed as a byte offset from lengths: cuts of the line
at offsets and differences of lengths may all fail. -/
def suggestByBytes? (s : Session β) (line : Text) (cursor : Nat) :
    Option (Option (List Suggestion)) := do
  let offset := Text.bytes (line.take cursor)
  let before ← Text.upTo? offset line
  match ← Prefix.byteLength? before with
  | none => some none
  | some lead =>
      let body ← Text.from? lead before
      let textEnd := lead + Text.bytes (Text.trimEnd body)
      match s.registry.dailyEntry? (Text.trim body), databasePrefix? body with
      | none, some typed =>
          let start ← sub? textEnd (Text.bytes typed)
          some (some ((s.registry.suggestDatabases typed).map fun x => x.place start textEnd))
      | _, _ => s.suggestKnownByBytes? body offset textEnd

/-- `completeTag`, with the line cut at the byte offset of the cursor. -/
def completeTagByBytes? (s : Session β) (line : Text) (position : Nat) : Option Completion := do
  let before ← Text.upTo? position line
  match ← s.suggestByBytes? line before.length with
  | some suggestions => some (Completion.ofSuggestions suggestions position)
  | none => some { start := position }

/-- What ends a text can be taken off its length. -/
theorem sub?_of_suffix (lead : Text) {text typed : Text} (h : typed <:+ text) :
    sub? (Text.bytes lead + Text.bytes text) (Text.bytes typed)
      = some (Text.bytes lead + Text.bytes text - Text.bytes typed) := by
  obtain ⟨front, hfront⟩ := h
  refine if_pos ?_
  rw [← hfront, Text.bytes_append]
  omega

/-- A body that can be read, with `lead` in front of it. -/
theorem suggestKnownByBytes?_eq (s : Session β) (lead body : Text) (offset : Nat) :
    s.suggestKnownByBytes? body offset (Text.bytes lead + Text.bytes (Text.trimEnd body)) = some
      (match s.registry.parse body with
      | .error _ => none
      | .ok outcome =>
          (s.registry.suggest s.history.document outcome.record).map fun suggestions =>
            let typed := (s.registry.matchText outcome.record).getD []
            let (start, stop) :=
              if typed.isEmpty then (offset, offset)
              else (Text.bytes lead + Text.bytes (Text.trimEnd body) - Text.bytes typed,
                Text.bytes lead + Text.bytes (Text.trimEnd body))
            suggestions.map fun x => x.place start stop) := by
  simp only [suggestKnownByBytes?, Registry.parseByBytes?_eq, Option.bind_eq_bind,
    Option.bind_some]
  cases hparse : s.registry.parse body with
  | error e => rfl
  | ok o =>
      have hsub := sub?_of_suffix lead (Registry.matchText_suffix hparse)
      simp only [hsub, Option.bind_some]
      cases s.registry.suggest s.history.document o.record with
      | none => rfl
      | some xs =>
          by_cases htyped : ((s.registry.matchText o.record).getD []).isEmpty = true <;>
            simp [htyped]

/-- **No offset of a suggestion falls below zero or inside a character**, so computing
with offsets gives what is suggested. -/
theorem suggestByBytes?_eq (s : Session β) (line : Text) (cursor : Nat) :
    s.suggestByBytes? line cursor = some (s.suggest line cursor) := by
  simp only [suggestByBytes?, suggest, Text.upTo?_take, Option.bind_eq_bind, Option.bind_some]
  generalize line.take cursor = before
  cases hstrip : Prefix.strip? before with
  | none => simp [Prefix.byteLength?, Prefix.split?, hstrip]
  | some body =>
      obtain ⟨lead, rfl⟩ := Prefix.strip?_suffix hstrip
      have hlead : (lead ++ body).take ((lead ++ body).length - body.length) = lead := by simp
      simp only [Prefix.byteLength?, Prefix.split?, hstrip, Option.map_some, Text.bytes_append,
        sub?_add, Option.bind_some, Text.from?_append, hlead]
      rw [suggestKnownByBytes?_eq]
      cases s.registry.dailyEntry? (Text.trim body) with
      | some entry => rfl
      | none =>
          cases hname : databasePrefix? body with
          | none => rfl
          | some typed => simp [sub?_of_suffix lead (databasePrefix?_suffix hname).1]

/-! ## Completions -/

/-- A boundary of a line is the offset of its cursor. -/
theorem completeTag_of_append (s : Session β) (before after : Text) :
    s.completeTag (before ++ after) (Text.bytes before) =
      match s.suggest (before ++ after) before.length with
      | some suggestions => Completion.ofSuggestions suggestions (Text.bytes before)
      | none => { start := Text.bytes before } := by
  cases h : s.suggest (before ++ after) before.length <;>
    simp [completeTag, Text.takeBytes_append, h]

theorem completeTagByBytes?_eq (s : Session β) (before after : Text) :
    s.completeTagByBytes? (before ++ after) (Text.bytes before)
      = some (s.completeTag (before ++ after) (Text.bytes before)) := by
  rw [completeTag_of_append]
  simp only [completeTagByBytes?, Text.upTo?_append, suggestByBytes?_eq, Option.bind_eq_bind,
    Option.bind_some]
  cases s.suggest (before ++ after) before.length <;> rfl

/-- **A completion begins at a boundary in front of the cursor.** -/
theorem start_completeTag (s : Session β) (before after : Text) :
    (s.completeTag (before ++ after) (Text.bytes before)).start ≤ Text.bytes before ∧
      Text.IsBoundary (s.completeTag (before ++ after) (Text.bytes before)).start
        (before ++ after) := by
  have hcursor := Text.isBoundary_append before after
  rw [completeTag_of_append]
  cases hsuggest : s.suggest (before ++ after) before.length with
  | none => exact ⟨Nat.le_refl _, hcursor⟩
  | some xs =>
      cases xs with
      | nil => exact ⟨Nat.le_refl _, hcursor⟩
      | cons x xs =>
          obtain ⟨span, hspan, hexact⟩ := exact_of_mem_suggest hsuggest List.mem_cons_self
          rw [List.take_left] at hexact
          have hle := hexact.ordered.trans hexact.bounded
          have hstart : (Completion.ofSuggestions (x :: xs) (Text.bytes before)).start
              = span.start := by
            simp only [Completion.ofSuggestions, List.head?_cons, Option.bind_some, hspan]
            exact Nat.min_eq_left hle
          simp only [hstart]
          exact ⟨hle, hexact.start_boundary⟩

/-- **Suggestions are placed exactly**, and completions begin where they do.  For every
cursor the span of a suggestion is exact, and computing it with offsets never fails; for
every boundary of the line, the completion there is asked for at the cursor that stands
at the boundary, and begins at a boundary in front of it. -/
theorem suggestions_are_exact (s : Session β) (line : Text) :
    (∀ cursor, s.suggestByBytes? line cursor = some (s.suggest line cursor) ∧
      ∀ xs, s.suggest line cursor = some xs → ∀ x ∈ xs, ∃ span, x.span = some span ∧
        span.Exact line (Text.bytes (line.take cursor)) x.display) ∧
    ∀ position, Text.IsBoundary position line →
      s.completeTagByBytes? line position = some (s.completeTag line position) ∧
      (∃ cursor, Text.bytes (line.take cursor) = position ∧
        s.completeTag line position =
          match s.suggest line cursor with
          | some suggestions => Completion.ofSuggestions suggestions position
          | none => { start := position }) ∧
      (s.completeTag line position).start ≤ position ∧
      Text.IsBoundary (s.completeTag line position).start line := by
  constructor
  · intro cursor
    exact ⟨s.suggestByBytes?_eq line cursor, fun xs h x hx => exact_of_mem_suggest h hx⟩
  · rintro _ ⟨before, after, rfl, rfl⟩
    have hcursor : Text.bytes ((before ++ after).take before.length) = Text.bytes before := by
      rw [List.take_left]
    exact ⟨s.completeTagByBytes?_eq before after,
      ⟨before.length, hcursor, s.completeTag_of_append before after⟩,
      s.start_completeTag before after⟩

/-- The line of a swim in which the second piece of gear is typed, with the cursor two
blanks behind it. -/
def gearLine : Text :=
  "#Exercise/Run 20;Café;rope, swim-  later"

/-- The accent in front of the gear counts for two bytes. -/
theorem suggestions_are_exact_gear :
    ∃ x, gearedSession.suggest gearLine 35 = some [x] ∧ x.span = some ⟨29, 34⟩ ∧
      Span.Exact ⟨29, 34⟩ gearLine 36 x.display ∧
      (gearedSession.completeTag gearLine 36).start ≤ 36 := by
  have hsuggest : gearedSession.suggest gearLine 35
      = some [(Suggestion.ofValue .history "Swim-Fins").place 29 34] := by decide +kernel
  have hoffset : Text.bytes (gearLine.take 35) = 36 := by decide +kernel
  obtain ⟨hsuggestions, hcompletions⟩ := suggestions_are_exact gearedSession gearLine
  obtain ⟨span, hspan, hexact⟩ := (hsuggestions 35).2 _ hsuggest _ List.mem_cons_self
  obtain rfl := Option.some.inj hspan
  have hboundary : Text.IsBoundary 36 gearLine :=
    ⟨gearLine.take 35, gearLine.drop 35, by rw [List.take_append_drop], hoffset.symm⟩
  rw [hoffset] at hexact
  exact ⟨_, hsuggest, rfl, hexact, (hcompletions 36 hboundary).2.2.1⟩

end Session

end Tagline
