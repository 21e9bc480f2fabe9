import Tagline.Proofs.History.Opening
import Tagline.Proofs.Suggestion
import Tagline.Proofs.Text.Beginnings

/-!
# What begins with what is typed

A candidate is offered if its lower-cased form begins with that of what is typed.  This is
almost, but not quite, the same as beginning with what is typed up to case: who types a name
letter by letter loses it right behind an inner capital sigma and has it back with the next
letter.

A field goes through its declared values and then the remembered ones, keeps of values that
are alike the first, and offers of these the ones that begin with what is typed.  Since alike
values have the same lower-cased form, it makes no difference that the repeats go before the
values are compared with what is typed.  The mark of a value that is kept is the one under
which it stands first, and declared values stand before remembered ones.

* `filterCandidates_beginning` — which beginnings of a candidate keep it;
* `firstOfEach_eq_firsts` — which values are kept, and with which marks;
* `offered_matches` — what is offered is sound, complete and without repeats;
* `Registry.suggest_matches` — what is suggested for a field, and for which text.
-/

namespace Tagline

/-! ## Beginnings of a candidate -/

/-- A candidate matches what is typed if it begins so in lower case. -/
theorem matchesTyped_iff {typed candidate : Text} :
    matchesTyped typed candidate = true ↔ Text.lower typed <+: Text.lower candidate :=
  List.isPrefixOf_iff_prefix

/-- **Which beginnings of a candidate keep it**: all that do not end inside a word behind a
capital sigma, however they are spelled. -/
theorem filterCandidates_beginning (candidate : Text) (n : Nat) {typed : Text}
    (htyped : Text.alike typed (candidate.take n) = true) :
    filterCandidates [candidate] typed =
      if Text.closesWithSigma (candidate.take n) && Text.meetsCased (candidate.drop n) then []
      else [candidate] := by
  have hmatches : matchesTyped typed candidate = true ↔
      (Text.closesWithSigma (candidate.take n) && Text.meetsCased (candidate.drop n)) = false := by
    rw [matchesTyped_iff, Text.alike_iff.1 htyped, ← Text.lower_isPrefix_iff,
      List.take_append_drop]
  rw [filterCandidates, List.filter_singleton]
  cases hseen : Text.closesWithSigma (candidate.take n) && Text.meetsCased (candidate.drop n) with
  | true =>
      have hlost : matchesTyped typed candidate = false := by
        rw [← Bool.not_eq_true, hmatches, hseen]
        exact Bool.noConfusion
      rw [hlost, cond_false, if_pos rfl]
  | false =>
      rw [hmatches.2 hseen, cond_true, if_neg Bool.false_ne_true]

/-- Who types the name letter by letter, in capitals or not, loses it after the fourth one
and has it back with the fifth. -/
theorem filterCandidates_museum :
    filterCandidates ["ΜΟΥΣΕΙΟ"] "ΜΟΥΣ" = [] ∧ filterCandidates ["ΜΟΥΣΕΙΟ"] "μους" = [] ∧
      filterCandidates ["ΜΟΥΣΕΙΟ"] "ΜΟΥΣΕ" = ["ΜΟΥΣΕΙΟ"] := by
  refine ⟨?_, ?_, ?_⟩
  · rw [filterCandidates_beginning "ΜΟΥΣΕΙΟ" 4 (by decide +kernel)]
    decide +kernel
  · rw [filterCandidates_beginning "ΜΟΥΣΕΙΟ" 4 (by decide +kernel)]
    decide +kernel
  · rw [filterCandidates_beginning "ΜΟΥΣΕΙΟ" 5 (by decide +kernel)]
    decide +kernel

/-! ## Marks -/

/-- The mark of a value, given the declared ones. -/
def originOf (declared : List Text) (value : Text) : Origin :=
  if declared.any fun v => Text.alike v value then .fixed else .history

/-- The marks have no say in which values are kept. -/
theorem map_snd_firstOfEach (seen : List Text) (marked : List (Origin × Text)) :
    (firstOfEach seen marked).map (·.2) = keepFirst seen (marked.map (·.2)) := by
  induction marked generalizing seen with
  | nil => rfl
  | cons first marked ih =>
      obtain ⟨origin, value⟩ := first
      rw [firstOfEach, List.map_cons, keepFirst]
      split
      · exact ih seen
      · exact congrArg (value :: ·) (ih _)

/-- The first value that is alike to a declared one is declared. -/
theorem origin_of_mem_firstOfEach {declared remembered : List Text} {e : Origin × Text}
    (h : e ∈ firstOfEach []
      (declared.map (Origin.fixed, ·) ++ remembered.map (Origin.history, ·))) :
    e.1 = originOf declared e.2 := by
  have hfirst := (find?_of_mem_firstOfEach [] h).2
  rw [List.find?_append, List.find?_map, List.find?_map] at hfirst
  unfold originOf
  cases hdeclared : declared.find? fun v => Text.alike v e.2 with
  | some v =>
      have halike : Text.alike v e.2 = true :=
        List.find?_some (p := fun v => Text.alike v e.2) hdeclared
      have hany : (declared.any fun v => Text.alike v e.2) = true :=
        List.any_eq_true.2 ⟨v, List.mem_of_find?_eq_some hdeclared, halike⟩
      rw [if_pos hany]
      simp only [Function.comp_def, hdeclared, Option.map_some, Option.some_or,
        Option.some.injEq] at hfirst
      rw [← hfirst]
  | none =>
      have hnone : (declared.any fun v => Text.alike v e.2) = false :=
        List.any_eq_false.2 (List.find?_eq_none.1 hdeclared)
      rw [if_neg (Bool.eq_false_iff.1 hnone)]
      simp only [Function.comp_def, hdeclared, Option.map_none, Option.none_or] at hfirst
      obtain ⟨v, _, hv⟩ := Option.map_eq_some_iff.1 hfirst
      rw [← hv]

/-- **Which values are kept**: the ones that stand first, with their marks. -/
theorem firstOfEach_eq_firsts (declared remembered : List Text) :
    firstOfEach [] (declared.map (Origin.fixed, ·) ++ remembered.map (Origin.history, ·))
      = (firsts (declared ++ remembered)).map fun v => (originOf declared v, v) := by
  have hvalues : (declared.map (Origin.fixed, ·) ++ remembered.map (Origin.history, ·)).map (·.2)
      = declared ++ remembered := by
    simp [Function.comp_def]
  rw [← keepFirst_eq_firsts, ← hvalues, ← map_snd_firstOfEach, List.map_map]
  conv_lhs => rw [← List.map_id (firstOfEach _ _)]
  refine List.map_congr_left fun e he => ?_
  exact Prod.ext (origin_of_mem_firstOfEach he) rfl

/-! ## Values -/

/-- Of the values that stand first, in order, the ones that begin with what is typed, with
their marks. -/
def matching (declared remembered : List Text) (typed : Text) : List Suggestion :=
  ((firsts (declared ++ remembered)).filter fun v => Text.lower typed <+: Text.lower v).map
    fun v => Suggestion.ofValue (originOf declared v) v

/-- **What is offered is what matches**, in the same order. -/
theorem offered_eq_matching (declared remembered : List Text) (typed : Text) :
    offered declared remembered typed = matching declared remembered typed := by
  have hsame : matchesTyped typed = fun v => decide (Text.lower typed <+: Text.lower v) := by
    funext v
    rw [Bool.eq_iff_iff, matchesTyped_iff, decide_eq_true_iff]
  rw [offered, firstOfEach_eq_firsts, List.filter_map, List.map_map, matching, ← hsame]
  rfl

/-- What is offered of some values **matches** what is typed: it is the values that stand
first and begin with it; nothing else is offered, nothing twice, and every value that begins
with what is typed in some spelling. -/
structure Matches (declared remembered : List Text) (typed : Text) (offers : List Suggestion) :
    Prop where
  list : offers = matching declared remembered typed
  sound : ∀ x ∈ offers, x.display ∈ declared ∨ x.display ∈ remembered
  differ : Text.AllDiffer (offers.map (·.display))
  complete : ∀ v, v ∈ declared ∨ v ∈ remembered → Text.lower typed <+: Text.lower v →
    ∃ x ∈ offers, Text.alike x.display v = true

/-- The texts that are shown are the first spellings that match. -/
theorem map_display_matching (declared remembered : List Text) (typed : Text) :
    (matching declared remembered typed).map (·.display)
      = (firsts (declared ++ remembered)).filter fun v => Text.lower typed <+: Text.lower v := by
  rw [matching, List.map_map]
  exact List.map_id _

/-- **What is offered matches what is typed.** -/
theorem offered_matches (declared remembered : List Text) (typed : Text) :
    Matches declared remembered typed (offered declared remembered typed) where
  list := offered_eq_matching declared remembered typed
  sound x hx := by
    rw [offered_eq_matching] at hx
    have hdisplay : x.display ∈ (matching declared remembered typed).map (·.display) :=
      List.mem_map_of_mem hx
    rw [map_display_matching, ← keepFirst_eq_firsts] at hdisplay
    have hkept := (List.mem_filter.1 hdisplay).1
    exact List.mem_append.1 ((keepFirst_sublist [] _).mem hkept)
  differ := by
    rw [offered_eq_matching, map_display_matching, ← keepFirst_eq_firsts]
    exact (Document.allDiffer_keepFirst [] _).sublist List.filter_sublist
  complete v hv hbegins := exists_offered hv (matchesTyped_iff.2 hbegins)

/-! ## Fields -/

/-- The remembered values of a field for a type: its list, if it has a key and there is a
list under it. -/
def Field.remembered (f : Field) (d : Database) (history : Document) (type : Option Text) :
    List Text :=
  ((f.historyKey d.typeField.name type).bind (history.bucket? d.name)).getD []

/-- A field offers its declared and its remembered values. -/
theorem Field.suggest_eq_offered (f : Field) (d : Database) (history : Document)
    (type : Option Text) (typed : Text) :
    f.suggest d history type typed
      = offered (f.allowedValues type) (f.remembered d history type) typed := by
  unfold suggest remembered
  cases f.historyKey d.typeField.name type with
  | none => rfl
  | some key => rfl

/-- A record stands at a field of its database, whose values are those for a type: at the
type field, whose values are those that hold without a type, or at a parameter. -/
inductive Record.StandsAt (record : Record) (d : Database) : Field → Option Text → Prop where
  | type {typed : Text} (hlocation : record.location = some (.type typed)) :
      record.StandsAt d d.typeField none
  | parameter {name typed : Text} {f : Field}
      (hlocation : record.location = some (.parameter name typed))
      (hfield : d.field? name = some f) : record.StandsAt d f record.typeValue

/-- **What is suggested at a field matches what is typed there**, and what is typed there is
the text that is matched for the record: of the declared values for the type and the
remembered ones just those that stand first and begin with it, in this order, marked as
declared if they are declared in some spelling. -/
theorem Registry.suggest_matches {r : Registry} (history : Document) {record : Record}
    {d : Database} {f : Field} {type : Option Text} (hdaily : record.daily = false)
    (hd : r.database? record.database = some d) (hstands : record.StandsAt d f type) :
    ∃ typed suggestions, r.matchText record = some typed ∧
      r.suggest history record = some suggestions ∧
      Matches (f.allowedValues type) (f.remembered d history type) typed suggestions := by
  have hmatches : ∀ typed, Matches (f.allowedValues type) (f.remembered d history type) typed
      (f.suggest d history type typed) := by
    intro typed
    rw [Field.suggest_eq_offered]
    exact offered_matches _ _ typed
  cases hstands with
  | @type typed hlocation =>
      refine ⟨Text.trimStart typed, _, ?_, ?_, hmatches _⟩
      · rw [matchText, hlocation]
        rfl
      · rw [suggest, hdaily, hlocation, hd]
        rfl
  | @parameter name typed f hlocation hfield =>
      refine ⟨currentPiece typed f.multi, _, ?_, ?_, hmatches _⟩
      · rw [matchText, hlocation, hd]
        simp [hfield]
      · rw [suggest, hdaily, hlocation, hd]
        simp [hfield]

/-- Gear that is remembered for each type beside what is declared. -/
def diveGear : Field where
  name := "Gear"
  policy := .historyByType ⟨["Mask"], [("Reef", ["Fins", "Snorkel", "SLATE"])]⟩
  multi := some ","

/-- A database of dives. -/
def dive : Database where
  name := "Dive"
  typeField := { name := "Type" }
  params := [{ name := "Depth" }, diveGear]

/-- Gear of two dives; some of it is declared, in another spelling. -/
def diveHistory : Document :=
  ⟨SortedMap.ofList [("Dive", SortedMap.ofList
    [("Reef-Gear", ["snorkel", "Spear", "Mask", "Slate"]), ("Wreck-Gear", ["Spool"])])]⟩

/-- A dive that stands at its second piece of gear. -/
def reefDive : Record where
  database := "dive"
  typeValue := some "reef".toList
  location := some (.parameter "gear" "fins, s")

/-- What is declared comes first and in its own spelling, and the gear of the other dive is
not offered. -/
theorem Registry.suggest_matches_reef :
    ∃ suggestions,
      Registry.suggest { databases := [dive] } diveHistory reefDive = some suggestions ∧
        suggestions = [.ofValue .fixed "Snorkel", .ofValue .fixed "SLATE",
          .ofValue .history "Spear"] := by
  have hstands : reefDive.StandsAt dive diveGear (some "reef".toList) := .parameter rfl rfl
  obtain ⟨typed, suggestions, htyped, hsuggest, hmatches⟩ :=
    Registry.suggest_matches (r := { databases := [dive] }) diveHistory rfl rfl hstands
  obtain rfl : "s".toList = typed := Option.some.inj (by rw [← htyped]; decide +kernel)
  refine ⟨suggestions, hsuggest, ?_⟩
  rw [hmatches.list]
  decide +kernel

end Tagline
