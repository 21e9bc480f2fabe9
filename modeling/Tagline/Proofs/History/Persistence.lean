import Tagline.History.Store
import Tagline.Proofs.History.Document
import Tagline.Proofs.History.Medium
import Tagline.Proofs.Json
import Tagline.Proofs.Json.Decode

/-!
# A saved history is loaded again

The text of a document is read back as the document it was made of, spelling,
order and all.  A store whose document has no repeats therefore finds itself again
on its medium after a save, and a load right after an opening changes nothing.

* `decode?_encode` — bytes of a document are read back as the document;
* `Store.held?` — the document that a medium holds, as a load reads it;
* `openOn_of_save` — after a save the medium opens as the saved store;
* `noRepeats_of_openOn` — what is opened has no repeats.
-/

namespace Tagline

/-! ## The text of a document -/

namespace Document

/-- A document is read from what is written of it. -/
theorem ofJson?_toJson (d : Document) : ofJson? d.toJson = some d := by
  have hdatabases := Json.mapOf?_object
    (fun buckets : Buckets => Json.mapOf?_object Json.listOf?_ofTexts buckets) d.databases
  rw [ofJson?, toJson, hdatabases, Option.map_some]

/-- What is written of a document is legible. -/
theorem legible_toJson (d : Document) : d.toJson.Legible := by
  refine Json.legible_object fun m hm => ?_
  obtain ⟨e, _, rfl⟩ := List.mem_map.1 hm
  refine Json.legible_object fun b hb => ?_
  obtain ⟨list, _, rfl⟩ := List.mem_map.1 hb
  exact Json.legible_ofTexts list.2

/-- A document is read from its text. -/
theorem read?_print (d : Document) : read? d.print = some d := by
  rw [read?, print, Json.read?_print d.legible_toJson, Option.bind_some, ofJson?_toJson]

/-- **The bytes of a document are read back as the document.** -/
theorem decode?_encode (d : Document) : decode? d.encode = some d := by
  have hutf : String.fromUTF8? (String.ofList d.print).toUTF8 = some (String.ofList d.print) := by
    rw [String.fromUTF8?, String.toUTF8_eq_toByteArray, dif_pos (String.isValidUTF8 _)]
    rfl
  rw [decode?, encode, hutf, Option.bind_some, String.toList_ofList, read?_print]

end Document

namespace Store

variable {β : Type} [Medium β]

/-! ## What a medium holds -/

/-- The document that a medium holds, repeats included; none if it holds nothing,
fails, or holds something else. -/
def held? (medium : β) : Option Document :=
  match Medium.read medium with
  | .ok (some bytes) => Document.decode? bytes
  | _ => none

/-- What a medium holds is what is read from it. -/
theorem held?_of_read {medium : β} {bytes : ByteArray} (h : Medium.read medium = .ok (some bytes)) :
    held? medium = Document.decode? bytes := by
  unfold held?
  rw [h]

/-- What a load brings into a store. -/
theorem document_load (s : Store β) :
    s.load.1.document = s.document ∨ s.load.1.document = Document.empty ∨
      ∃ d, held? s.medium = some d ∧ s.load.1.document = d.dedup := by
  unfold load
  split
  · exact Or.inl rfl
  · exact Or.inr (Or.inl rfl)
  · next bytes hread =>
      split
      · exact Or.inl rfl
      · next d hd => exact Or.inr (Or.inr ⟨d, (held?_of_read hread).trans hd, rfl⟩)

/-- What a load that succeeds brings into a store. -/
theorem document_of_load {s t : Store β} (h : s.load = (t, .ok ())) :
    (held? s.medium = none ∧ t.document = Document.empty) ∨
      ∃ d, held? s.medium = some d ∧ t.document = d.dedup := by
  unfold load at h
  split at h
  · cases h
  · next hread =>
      cases h
      refine Or.inl ⟨?_, rfl⟩
      unfold held?
      rw [hread]
  · next bytes hread =>
      split at h
      · cases h
      · next d hd =>
          cases h
          exact Or.inr ⟨d, (held?_of_read hread).trans hd, rfl⟩

/-- A store is opened by loading it. -/
theorem openOn_eq_ok {medium : β} {s : Store β} :
    openOn medium = .ok s ↔ load { medium } = (s, .ok ()) := by
  unfold openOn
  split
  · next s' heq => simp [heq]
  · next s' e heq => simp [heq]

/-- What an opening brings depends on what is read. -/
theorem openOn_of_read {m m' : β} (h : Medium.read m = Medium.read m') :
    openOn m' = (openOn m).map fun s => { s with medium := m' } := by
  unfold openOn load
  rw [h]
  cases Medium.read m' with
  | error e => rfl
  | ok blob =>
      cases blob with
      | none => rfl
      | some bytes =>
          dsimp only
          cases Document.decode? bytes <;> rfl

/-- Opening a store does not write. -/
theorem medium_of_openOn {medium : β} {s : Store β} (h : openOn medium = .ok s) :
    s.medium = medium := by
  rw [openOn_eq_ok] at h
  unfold load at h
  split at h
  · cases h
  · cases h
    rfl
  · split at h
    · cases h
    · cases h
      rfl

/-- What an opening brings. -/
theorem document_of_openOn {medium : β} {s : Store β} (h : openOn medium = .ok s) :
    s.document = Document.empty ∨ ∃ d, held? medium = some d ∧ s.document = d.dedup := by
  rcases document_of_load (openOn_eq_ok.1 h) with ⟨_, heq⟩ | hloaded
  · exact Or.inl heq
  · exact Or.inr hloaded

/-- **What is opened has no repeats.** -/
theorem noRepeats_of_openOn {medium : β} {s : Store β} (h : openOn medium = .ok s) :
    s.document.NoRepeats := by
  rcases document_of_openOn h with heq | ⟨d, _, heq⟩ <;> rw [heq]
  · exact Document.noRepeats_empty
  · exact d.noRepeats_dedup

/-! ## Saving -/

/-- A save leaves the document, whether or not it fails. -/
theorem document_save (s : Store β) : s.save.1.document = s.document := by
  unfold save
  split <;> rfl

/-- After a save that succeeds the medium has the document, and nothing is left to save. -/
theorem save_eq_ok {s s' : Store β} (h : s.save = (s', .ok ())) :
    Medium.write s.medium s.document.encode = (s'.medium, .ok ()) ∧
      s'.document = s.document ∧ s'.dirty = false := by
  unfold save at h
  split at h
  · cases h
  · next medium hwrite =>
      cases h
      exact ⟨hwrite, rfl, rfl⟩

/-- After one that fails as much is left to save as before. -/
theorem save_eq_error {s s' : Store β} {e : HistoryError} (h : s.save = (s', .error e)) :
    (∃ cause, Medium.write s.medium s.document.encode = (s'.medium, .error cause)) ∧
      s'.document = s.document ∧ s'.dirty = s.dirty := by
  unfold save at h
  split at h
  · next medium cause hwrite =>
      cases h
      exact ⟨⟨cause, hwrite⟩, rfl, rfl⟩
  · cases h

variable [FaithfulMedium β]

/-- **A saved store is opened again** just as it is. -/
theorem openOn_of_save {s s' : Store β} (hdocument : s.document.NoRepeats)
    (h : s.save = (s', .ok ())) : openOn s'.medium = .ok s' := by
  obtain ⟨hwrite, hsame, hclean⟩ := save_eq_ok h
  obtain ⟨medium, document, dirty⟩ := s'
  cases hsame
  cases hclean
  rw [openOn_eq_ok, load]
  simp only [FaithfulMedium.read_of_write hwrite, Document.decode?_encode,
    Document.dedup_eq_self hdocument, bne_self_eq_false]

end Store

end Tagline
