import Tagline.Suggestion
import Tagline.Session
import Tagline.Proofs.History.Document
import Tagline.Proofs.Parse

/-!
# What is offered

A field offers its declared values and the remembered ones, and of values that are
alike the first.  So a remembered value may be offered in another spelling, but one
that is alike to it is always there if it begins with what is typed.

The key of a field is computed with the type of the record, and that of the type field
without any; the type field has the same key for every type.

* `exists_offered` — every value that begins with what is typed is offered, in some
  spelling;
* `Field.exists_suggest` — so is every value that the history holds for a field;
* `Registry.suggest_of_endsAt` — what is suggested for a field of which nothing is typed;
* `Session.suggest_of_parse` — what a session suggests is what its registry suggests.
-/

namespace Tagline

/-! ## Values -/

/-- Of values that are alike one is kept, or one came before. -/
theorem exists_alike_firstOfEach (seen : List Text) {marked : List (Origin × Text)}
    {origin : Origin} {value : Text} (h : (origin, value) ∈ marked) :
    Text.lower value ∈ seen ∨ ∃ x ∈ firstOfEach seen marked, Text.alike x.2 value = true := by
  induction marked generalizing seen with
  | nil => cases h
  | cons first marked ih =>
      obtain ⟨firstOrigin, firstValue⟩ := first
      rw [firstOfEach]
      split
      · next hseen =>
          rcases List.mem_cons.1 h with heq | h
          · cases heq
            exact Or.inl (by simpa using hseen)
          · exact ih seen h
      · rcases List.mem_cons.1 h with heq | h
        · cases heq
          exact Or.inr ⟨_, List.mem_cons_self, Text.alike_refl _⟩
        · rcases ih (Text.lower firstValue :: seen) h with hseen | ⟨x, hx, halike⟩
          · rcases List.mem_cons.1 hseen with hlower | hseen
            · exact Or.inr ⟨_, List.mem_cons_self, Text.alike_iff.2 hlower.symm⟩
            · exact Or.inl hseen
          · exact Or.inr ⟨x, List.mem_cons_of_mem _ hx, halike⟩

/-- **Of values that are alike the first is kept.** -/
theorem find?_of_mem_firstOfEach (seen : List Text) {marked : List (Origin × Text)}
    {e : Origin × Text} (h : e ∈ firstOfEach seen marked) :
    Text.lower e.2 ∉ seen ∧ marked.find? (fun m => Text.alike m.2 e.2) = some e := by
  induction marked generalizing seen with
  | nil => cases h
  | cons first marked ih =>
      obtain ⟨origin, value⟩ := first
      rw [firstOfEach] at h
      split at h
      · next hseen =>
          obtain ⟨hnew, hfind⟩ := ih seen h
          have hother : Text.alike value e.2 = false := by
            rw [← Bool.not_eq_true, Text.alike_iff]
            intro heq
            rw [← heq] at hnew
            exact hnew (by simpa using hseen)
          exact ⟨hnew, by rw [List.find?_cons_of_neg (by simp [hother]), hfind]⟩
      · next hseen =>
          rcases List.mem_cons.1 h with rfl | h
          · exact ⟨by simpa using hseen, List.find?_cons_of_pos (Text.alike_refl _)⟩
          · obtain ⟨hnew, hfind⟩ := ih _ h
            rw [List.mem_cons, not_or] at hnew
            have hother : Text.alike value e.2 = false := by
              rw [← Bool.not_eq_true, Text.alike_iff]
              exact fun heq => hnew.1 heq.symm
            exact ⟨hnew.2, by rw [List.find?_cons_of_neg (by simp [hother]), hfind]⟩

/-- Every candidate begins with nothing. -/
theorem matchesTyped_nil (candidate : Text) : matchesTyped [] candidate = true := rfl

/-- Of values that are alike all begin with what is typed, or none. -/
theorem matchesTyped_of_alike {s t : Text} (h : Text.alike s t = true) (typed : Text) :
    matchesTyped typed s = matchesTyped typed t := by
  rw [matchesTyped, matchesTyped, Text.alike_iff.1 h]

/-- **Every value that begins with what is typed is offered**, in some spelling. -/
theorem exists_offered {declared remembered : List Text} {typed value : Text}
    (h : value ∈ declared ∨ value ∈ remembered) (htyped : matchesTyped typed value = true) :
    ∃ x ∈ offered declared remembered typed, Text.alike x.display value = true := by
  have hmarked : ∃ origin, (origin, value) ∈
      declared.map (Origin.fixed, ·) ++ remembered.map (Origin.history, ·) := by
    rcases h with h | h
    · exact ⟨.fixed, List.mem_append_left _ (List.mem_map_of_mem h)⟩
    · exact ⟨.history, List.mem_append_right _ (List.mem_map_of_mem h)⟩
  obtain ⟨origin, hmem⟩ := hmarked
  rcases exists_alike_firstOfEach [] hmem with hseen | ⟨⟨kept, text⟩, hx, halike⟩
  · cases hseen
  · have hkept : matchesTyped typed text = true := by
      rw [matchesTyped_of_alike halike, htyped]
    refine ⟨Suggestion.ofValue kept text, ?_, halike⟩
    exact List.mem_map.2 ⟨(kept, text), List.mem_filter.2 ⟨hx, hkept⟩, rfl⟩

/-- What is typed of a value ends the text of its field. -/
theorem currentPiece_suffix (typed : Text) (separator : Option Text) :
    currentPiece typed separator <:+ typed := by
  refine (Text.trimStart_suffix _).trans ?_
  cases separator with
  | none => exact List.suffix_rfl
  | some sep =>
      cases hlast : Text.afterLast? sep typed with
      | none => simp [hlast]
      | some rest => simpa [hlast] using Text.afterLast?_suffix hlast

namespace Field

variable {f : Field} {d : Database} {history : Document} {type : Option Text}

/-- The key of a field that has the name of the type field is the same for every
type. -/
theorem historyKey_own (t u : Option Text) : f.historyKey f.name t = f.historyKey f.name u := by
  simp [historyKey]

/-- **What the history holds for a field is offered**, in some spelling. -/
theorem exists_suggest {key value : Text}
    (hkey : f.historyKey d.typeField.name type = some key)
    (hheld : history.contains d.name key value = true) :
    ∃ x ∈ f.suggest d history type [], Text.alike x.display value = true := by
  obtain ⟨v, hv, halike⟩ := Document.contains_eq_true.1 hheld
  have hoffered : ∃ x ∈ f.suggest d history type [], Text.alike x.display v = true := by
    rw [suggest, hkey]
    exact exists_offered (Or.inr hv) (matchesTyped_nil v)
  obtain ⟨x, hx, hdisplay⟩ := hoffered
  exact ⟨x, hx, Text.alike_trans hdisplay halike⟩

end Field

/-! ## Places -/

/-- A record ends at a field of its database: behind the slash for the type field, or
at a parameter of a record that has the given type. -/
inductive Record.EndsAt (r : Record) (d : Database) (f : Field) (type : Option Text) : Prop where
  | type {typed : Text} (hlocation : r.location = some (.type typed)) (hfield : f = d.typeField)
  | parameter {typed : Text} (hlocation : r.location = some (.parameter f.name typed))
      (hfield : f ∈ d.params) (htype : r.typeValue = type)

theorem Record.EndsAt.ne_database {r : Record} {d : Database} {f : Field} {type : Option Text}
    (h : r.EndsAt d f type) (typed : Text) : r.location ≠ some (.database typed) := by
  cases h with
  | type hlocation => simp [hlocation]
  | parameter hlocation => simp [hlocation]

namespace Registry

variable {r : Registry} {before : Text} {d : Database} {f : Field} {type : Option Text}

/-- A text gives a record of a database that ends at a field, and nothing is typed
there. -/
def Asks (r : Registry) (before : Text) (d : Database) (f : Field) (type : Option Text) : Prop :=
  ∃ o, r.parseTagLine before = .ok o ∧ o.record.daily = false ∧ o.record.database = d.name ∧
    o.record.EndsAt d f type ∧ r.matchText o.record = some []

/-- **What is suggested for a field of which nothing is typed**, where the type is the
one that the field has its key for. -/
theorem suggest_of_endsAt (haccepted : d.Accepted) (hd : r.database? d.name = some d)
    {record : Record} (hdaily : record.daily = false) (hdatabase : record.database = d.name)
    (hends : record.EndsAt d f type) (hempty : r.matchText record = some [])
    (history : Document) :
    ∃ t, f.historyKey d.typeField.name t = f.historyKey d.typeField.name type ∧
      r.suggest history record = some (f.suggest d history t []) := by
  cases hends with
  | @type typed hlocation hfield =>
      subst hfield
      rw [matchText, hlocation, Option.map_some, Option.some.injEq] at hempty
      refine ⟨none, Field.historyKey_own _ _, ?_⟩
      rw [suggest, hdaily, hlocation, hdatabase, hd]
      exact congrArg (fun typed => some (d.typeField.suggest d history none typed)) hempty
  | @parameter typed hlocation hfield htype =>
      have hfound : d.field? f.name = some f :=
        haccepted.field?_name (List.mem_cons_of_mem _ hfield)
      rw [matchText, hlocation, Option.map_some, Option.some.injEq, hdatabase, hd] at hempty
      simp only [Option.bind_some, hfound] at hempty
      refine ⟨type, rfl, ?_⟩
      rw [suggest, hdaily, hlocation, hdatabase, hd]
      simp [hfound, hempty, htype]

/-- A line that is still inside the name of the database ends there. -/
theorem location_of_databasePrefix? {line typed : Text} {o : Outcome}
    (hlead : databasePrefix? line = some typed) (hparse : r.parse line = .ok o)
    (hdaily : o.record.daily = false) :
    ∃ head, o.record.location = some (.database head) := by
  unfold databasePrefix? at hlead
  dsimp only at hlead
  split at hlead
  · cases hlead
  · next hinside =>
      simp only [List.any_eq_true, Bool.or_eq_true, beq_iff_eq, not_exists, not_and, not_or,
        Bool.not_eq_true] at hinside
      have hblank : ∀ c ∈ Text.trim line, Text.isBlank c = false := fun c hc => (hinside c hc).1
      have hslash : '/' ∉ Text.trim line := fun hmem => (hinside '/' hmem).2 rfl
      rcases parse_cases hparse with ⟨hentry, _⟩ | ⟨trailing, d, _, hread⟩
      · rw [hdaily] at hentry
        cases hentry
      · rw [splitHead_of_no_blank hblank, splitType_of_not_mem hslash] at hread
        obtain rfl := Except.ok.inj hread
        exact ⟨_, rfl⟩

end Registry

/-- **What a session suggests is what its registry suggests**, placed on the line, once
the line is past the name of the database. -/
theorem Session.suggest_of_parse {β : Type} {s : Session β} {line : Text} {cursor : Nat}
    {o : Outcome} (hparse : s.registry.parseTagLine (line.take cursor) = .ok o)
    (hdaily : o.record.daily = false)
    (hplace : ∀ typed, o.record.location ≠ some (.database typed)) :
    ∃ start stop, s.suggest line cursor
      = (s.registry.suggest s.history.document o.record).map fun suggestions =>
          suggestions.map fun x => x.place start stop := by
  unfold Registry.parseTagLine at hparse
  cases hbody : Prefix.strip? (line.take cursor) with
  | none => simp [hbody] at hparse
  | some body =>
      rw [hbody] at hparse
      have hlead : databasePrefix? body = none := by
        cases hinside : databasePrefix? body with
        | none => rfl
        | some typed =>
            obtain ⟨head, hlocation⟩ :=
              Registry.location_of_databasePrefix? hinside hparse hdaily
            exact absurd hlocation (hplace head)
      have hread : s.registry.parse body = .ok o := hparse
      simp only [suggest, Prefix.split?, hbody, Option.map_some, hlead, hread]
      cases s.registry.dailyEntry? (Text.trim body) with
      | none => exact ⟨_, _, rfl⟩
      | some entry => exact ⟨_, _, rfl⟩

end Tagline
