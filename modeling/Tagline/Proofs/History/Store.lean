import Tagline.Proofs.History.Persistence

/-!
# What holds of a store in every state

A store is new or opened; then it is called in any order, and its medium may be
written by others meanwhile.  `Store.Reached` collects the states that come about
in this way, with the documents that were loaded on the way.  Calls that fail are
among the calls: a load that fails leaves the document, a save that fails leaves it
too, and a deletion that fails has already emptied it.

* `document_call` — what the changes of a document keep, a call keeps;
* `Reached.no_variants` — no state holds two values of a bucket that are alike,
  nor, if no loaded document did, two databases or two keys that are alike.
-/

namespace Tagline

namespace Store

variable {β : Type}

/-- The document loses the value, if it holds it. -/
theorem document_removeValue (s : Store β) (database key value : Text) :
    (s.removeValue database key value).1.document
      = s.document.remove { database, key, value } := by
  unfold removeValue Document.remove
  split <;> rfl

/-! ## Calls and states -/

/-- What may be asked of a store so that it changes. -/
inductive Call where
  | addRecord (database : Database) (record : Record)
  | apply (delta : Delta)
  | removeValue (database key value : Text)
  | save
  | load
  | deleteHistory

variable [Medium β]

/-- The store after a call, be it successful or not. -/
def call (s : Store β) : Call → Store β
  | .addRecord database record => (s.addRecord database record).1
  | .apply delta => (s.apply delta).1
  | .removeValue database key value => (s.removeValue database key value).1
  | .save => s.save.1
  | .load => s.load.1
  | .deleteHistory => s.deleteHistory.1

/-- The document that a call loads, as the medium holds it. -/
def loaded (s : Store β) : Call → List Document
  | .load => (held? s.medium).toList
  | _ => []

/-- The states of a store, each with the documents that were loaded on the way. -/
inductive Reached : List Document → Store β → Prop where
  /-- A new store has loaded nothing. -/
  | new (medium : β) : Reached [] { medium }
  /-- An opened store has loaded what its medium holds. -/
  | opened {medium : β} {s : Store β} (h : openOn medium = .ok s) :
      Reached (held? medium).toList s
  /-- A call leads on, whether it succeeds or fails. -/
  | call {loads : List Document} {s : Store β} (h : Reached loads s) (c : Call) :
      Reached (loads ++ s.loaded c) (s.call c)
  /-- Others may write to the medium at any time. -/
  | rewritten {loads : List Document} {s : Store β} (h : Reached loads s) (medium : β) :
      Reached loads { s with medium }

/-! ## One call -/

/-- Nothing is left when everything is forgotten. -/
theorem document_deleteHistory (s : Store β) : s.deleteHistory.1.document = Document.empty :=
  document_save _

/-- **What the changes of a document keep, a call keeps**, given that the loaded
documents have it once their repeats are dropped. -/
theorem document_call {P : Document → Prop} (hempty : P Document.empty)
    (hadd : ∀ d e, P d → P (d.add e)) (hremove : ∀ d e, P d → P (d.remove e))
    {s : Store β} (h : P s.document) {c : Call} (hloaded : ∀ d ∈ s.loaded c, P d.dedup) :
    P (s.call c).document := by
  cases c with
  | addRecord database record => exact Document.apply_induction hadd h _
  | apply delta => exact Document.apply_induction hadd h delta
  | removeValue database key value =>
      rw [call, document_removeValue]
      exact hremove _ _ h
  | save =>
      rw [call, document_save]
      exact h
  | load =>
      rcases document_load s with heq | heq | ⟨d, hheld, heq⟩ <;> rw [call, heq]
      · exact h
      · exact hempty
      · exact hloaded d (by simp [loaded, hheld])
  | deleteHistory =>
      rw [call, document_deleteHistory]
      exact hempty

/-- What the changes of a document keep holds in every state. -/
theorem Reached.document {P : Document → Prop} (hempty : P Document.empty)
    (hadd : ∀ d e, P d → P (d.add e)) (hremove : ∀ d e, P d → P (d.remove e))
    {loads : List Document} {s : Store β} (h : Reached loads s)
    (hloads : ∀ d ∈ loads, P d.dedup) : P s.document := by
  induction h with
  | new medium => exact hempty
  | @opened medium s hopen =>
      rcases document_of_openOn hopen with heq | ⟨d, hheld, heq⟩ <;> rw [heq]
      · exact hempty
      · exact hloads d (by simp [hheld])
  | call _ c ih =>
      refine document_call hempty hadd hremove
        (ih fun d hd => hloads d (List.mem_append_left _ hd)) fun d hd => ?_
      exact hloads d (List.mem_append_right _ hd)
  | rewritten _ medium ih => exact ih hloads

/-! ## Every state -/

/-- **No store holds variants.**  No bucket of a state holds two values that are
alike.  If in each document that was loaded the databases differ ignoring case, and
so do the keys of each database, then this is so in the state, too. -/
theorem Reached.no_variants {loads : List Document} {s : Store β} (h : Reached loads s) :
    s.document.NoRepeats ∧
      ((∀ d ∈ loads, d.NamesDiffer) → s.document.NamesDiffer) := by
  refine ⟨?_, fun hloads => ?_⟩
  · exact h.document Document.noRepeats_empty (fun _ e hd => hd.add e) (fun _ e hd => hd.remove e)
      fun d _ => d.noRepeats_dedup
  · exact h.document Document.namesDiffer_empty (fun _ e hd => hd.add e)
      (fun _ e hd => hd.remove e) fun d hd => Document.namesDiffer_dedup (hloads d hd)

/-- The lists of a gym, with a value that was written twice. -/
def gymDocument : Document :=
  ⟨SortedMap.ofList [("Exercise", SortedMap.ofList
    [("Type", ["Run", "RUN", "Swim"]), ("Place", ["Park"])])]⟩

/-- A store that loads the lists of the gym, takes a value out under other variants
of its names, and gets values of which one is a variant. -/
def gymStore : Store Memory :=
  ((({ medium := ⟨some gymDocument.encode⟩ : Store Memory }.call .load).call
    (.removeValue "EXERCISE" "place" "PARK")).call
      (.apply ⟨[⟨"exercise", "TYPE", "swim"⟩, ⟨"exercise", "TYPE", "Climb"⟩]⟩))

/-- The memory holds the document. -/
theorem held?_gym : held? (⟨some gymDocument.encode⟩ : Memory) = some gymDocument :=
  (held?_of_read rfl).trans gymDocument.decode?_encode

theorem no_variants_gym :
    Reached [gymDocument] gymStore ∧ gymDocument.NamesDiffer ∧
      gymStore.document.NoRepeats ∧ gymStore.document.NamesDiffer := by
  have hloaded : (({ medium := ⟨some gymDocument.encode⟩ : Store Memory }).loaded .load)
      = [gymDocument] := by
    simp only [loaded, held?_gym, Option.toList_some]
  have hreached : Reached [gymDocument] gymStore := by
    have hload := (Reached.new (⟨some gymDocument.encode⟩ : Memory)).call .load
    rw [hloaded] at hload
    have hremoved := hload.call (.removeValue "EXERCISE" "place" "PARK")
    exact hremoved.call (.apply ⟨[⟨"exercise", "TYPE", "swim"⟩, ⟨"exercise", "TYPE", "Climb"⟩]⟩)
  have hnames : gymDocument.NamesDiffer := ⟨by decide +kernel, by decide +kernel⟩
  obtain ⟨hrepeats, hdiffer⟩ := hreached.no_variants
  refine ⟨hreached, hnames, hrepeats, hdiffer fun d hd => ?_⟩
  rw [List.mem_singleton.1 hd]
  exact hnames

end Store

end Tagline
