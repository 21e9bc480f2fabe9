import Tagline.Proofs.History.Growth
import Tagline.Proofs.Registry

/-!
# Keys of the history

A field that remembers for all types together has its name as its key.  A field that
remembers by type puts the type and a hyphen in front of it.  A name may hold
hyphens and so may a type, so a key does not say where the type ends: the key
`Run-Trail-Gear` is the one of `Gear` for the type `Run-Trail` and the one of
`Trail-Gear` for the type `Run`.

One field has one key for each type.  Two fields have a key in common where the name
of one **ends in** the name of the other, and only there.

* `Field.historyKey_eq_some` — a key is a lead and the name;
* `Field.alike_keys_iff` — what two keys that are alike have in common;
* `Document.values_apply_of_not_alike` — keys that are not alike have nothing to do
  with each other;
* `Database.keptApart_iff` — which values are kept apart.
-/

namespace Tagline

namespace Field

/-- Values are remembered for each type on its own.  The type field never does that:
its values are the types. -/
def ByType (f : Field) (typeField : Text) : Prop :=
  (∃ values, f.policy = .historyByType values) ∧ Text.alike f.name typeField = false

/-- What stands in front of the name in the key of a field. -/
def keyLead (f : Field) (typeField : Text) (type : Option Text) : Text :=
  match f.policy with
  | .historyByType _ => if Text.alike f.name typeField then [] else type.getD [] ++ ['-']
  | _ => []

/-- A key is read from its end: a field whose name ends in the name of another leaves
the rest of its name to the type of the other. -/
def EndsIn (f : Field) (typeField : Text) (t : Option Text) (g : Field) (u : Option Text) : Prop :=
  g.ByType typeField ∧ ∃ type rest, u = some type ∧
    Text.lower f.name = rest ++ '-' :: Text.lower g.name ∧
    Text.lower type = Text.lower (f.keyLead typeField t) ++ rest

variable {f g : Field} {typeField key : Text} {t u : Option Text}

theorem keyLead_of_byType (h : f.ByType typeField) :
    f.keyLead typeField t = t.getD [] ++ ['-'] := by
  obtain ⟨⟨values, hpolicy⟩, hother⟩ := h
  simp [keyLead, hpolicy, hother]

theorem keyLead_of_not_byType (h : ¬ f.ByType typeField) : f.keyLead typeField t = [] := by
  unfold keyLead
  split
  · next values hpolicy =>
      split
      · rfl
      · next hother => exact absurd ⟨⟨values, hpolicy⟩, Bool.eq_false_iff.2 hother⟩ h
  · rfl

/-- **A key is a lead and the name**, and a field that remembers by type has none
without a type. -/
theorem historyKey_eq_some (h : f.historyKey typeField t = some key) :
    key = f.keyLead typeField t ++ f.name ∧ (f.ByType typeField → ∃ type, t = some type) := by
  unfold historyKey at h
  unfold keyLead ByType
  split at h
  · next values hpolicy => simp_all
  · next values hpolicy =>
      split at h
      · next hown => simp_all
      · next hother =>
          split at h
          · next type =>
              split at h
              · cases h
              · cases h
                simp [hpolicy, hother]
          · cases h
  · cases h

theorem lower_key (h : f.historyKey typeField t = some key) :
    Text.lower key = Text.lower (f.keyLead typeField t) ++ Text.lower f.name := by
  rw [(historyKey_eq_some h).1]
  by_cases hby : f.ByType typeField
  · rw [keyLead_of_byType hby, List.append_assoc, List.singleton_append,
      Text.lower_append_stop Text.stopsCase_hyphen, Text.lower_append_stop Text.stopsCase_hyphen,
      Text.lower_nil, List.append_assoc, List.singleton_append]
  · simp [keyLead_of_not_byType hby]

/-- A type keeps its hyphen when the lead is lower-cased. -/
theorem lower_keyLead (h : f.ByType typeField) (type : Text) :
    Text.lower (f.keyLead typeField (some type)) = Text.lower type ++ ['-'] := by
  rw [keyLead_of_byType h, Option.getD_some, Text.lower_append_stop Text.stopsCase_hyphen,
    Text.lower_nil]

/-- A name that ends in another gives the two fields a key in common. -/
theorem EndsIn.alike (h : f.EndsIn typeField t g u) {k l : Text}
    (hk : f.historyKey typeField t = some k) (hl : g.historyKey typeField u = some l) :
    Text.alike k l = true := by
  obtain ⟨hby, type, rest, rfl, hname, htype⟩ := h
  rw [Text.alike_iff, lower_key hk, lower_key hl, lower_keyLead hby, hname, htype,
    List.append_assoc, List.append_assoc, List.singleton_append]

/-- A field does not end in itself. -/
theorem not_endsIn_self : ¬ f.EndsIn typeField t f u := by
  rintro ⟨_, type, rest, _, hname, _⟩
  have hlength := congrArg List.length hname
  rw [List.length_append, List.length_cons] at hlength
  omega

/-- A lead that is longer than another by `more` leaves `more` to the name: the part
in front of the hyphen ends the type. -/
theorem endsIn_of_lower_keyLead {more : Text} (hne : more ≠ [])
    (hl : g.historyKey typeField u = some key)
    (hlead : Text.lower (g.keyLead typeField u) = Text.lower (f.keyLead typeField t) ++ more)
    (hname : Text.lower f.name = more ++ Text.lower g.name) : f.EndsIn typeField t g u := by
  by_cases hby : g.ByType typeField
  · obtain ⟨type, rfl⟩ := (historyKey_eq_some hl).2 hby
    obtain ⟨rest, last, rfl⟩ : ∃ rest last, more = rest ++ [last] :=
      ⟨_, _, (List.dropLast_append_getLast hne).symm⟩
    rw [lower_keyLead hby, ← List.append_assoc] at hlead
    obtain ⟨htype, hlast⟩ := List.append_inj' hlead rfl
    cases hlast
    refine ⟨hby, type, rest, rfl, ?_, htype⟩
    rw [hname, List.append_assoc, List.singleton_append]
  · rw [keyLead_of_not_byType hby, Text.lower_nil] at hlead
    have hnil := List.append_eq_nil_iff.1 hlead.symm
    exact absurd hnil.2 hne

/-- **Two keys are alike** where field and type are, and where the name of one field
ends in the name of the other. -/
theorem alike_keys_iff {k l : Text} (hk : f.historyKey typeField t = some k)
    (hl : g.historyKey typeField u = some l) :
    Text.alike k l = true ↔
      (Text.alike f.name g.name = true ∧
          Text.alike (f.keyLead typeField t) (g.keyLead typeField u) = true) ∨
        f.EndsIn typeField t g u ∨ g.EndsIn typeField u f t := by
  constructor
  · intro h
    rw [Text.alike_iff, lower_key hk, lower_key hl] at h
    -- The same text is cut at two places; what lies between them is a part of the type
    -- for one field and a part of the name for the other.
    rcases List.append_eq_append_iff.1 h with ⟨more, hlead, hname⟩ | ⟨more, hlead, hname⟩
    · by_cases hmore : more = []
      · left
        rw [hmore, List.append_nil] at hlead
        rw [hmore, List.nil_append] at hname
        exact ⟨Text.alike_iff.2 hname, Text.alike_iff.2 hlead.symm⟩
      · exact Or.inr (Or.inl (endsIn_of_lower_keyLead hmore hl hlead hname))
    · by_cases hmore : more = []
      · left
        rw [hmore, List.append_nil] at hlead
        rw [hmore, List.nil_append] at hname
        exact ⟨Text.alike_iff.2 hname.symm, Text.alike_iff.2 hlead⟩
      · exact Or.inr (Or.inr (endsIn_of_lower_keyLead hmore hk hlead hname))
  · rintro (⟨hname, hlead⟩ | hends | hends)
    · rw [Text.alike_iff, lower_key hk, lower_key hl, Text.alike_iff.1 hname,
        Text.alike_iff.1 hlead]
    · exact hends.alike hk hl
    · exact Text.alike_symm (hends.alike hl hk)

end Field

/-- All entries of a delta are values of one bucket. -/
def Delta.Under (delta : Delta) (database key : Text) : Prop :=
  ∀ e ∈ delta.entries, e.database = database ∧ e.key = key

namespace Document

/-- **Keys that are not alike have nothing to do with each other.** -/
theorem values_apply_of_not_alike {delta : Delta} {database key other : Text}
    (hunder : delta.Under database key) (h : Text.alike key other = false) (d : Document) :
    (d.apply delta).values database other = d.values database other := by
  rw [apply]
  unfold Delta.Under at hunder
  generalize delta.entries = es at hunder
  induction es generalizing d with
  | nil => rfl
  | cons e es ih =>
      obtain ⟨hfirst, hrest⟩ := List.forall_mem_cons.1 hunder
      obtain ⟨rfl, rfl⟩ := hfirst
      have hstep : (d.add e).values e.database other = d.values e.database other := by
        rw [add]
        split
        · rfl
        · exact values_setBucket_of_not_alike h _
      rw [List.foldl_cons, ih _ hrest, hstep]

/-- Keys that are alike are one key, where the names of the document differ. -/
theorem contains_apply_of_alike {delta : Delta} {database key other : Text}
    (hunder : delta.Under database key) (h : Text.alike key other = true) {d : Document}
    (hnames : d.NamesDiffer) {e : Entry} (he : e ∈ delta.entries) :
    (d.apply delta).contains database other e.value = true := by
  obtain ⟨rfl, rfl⟩ := hunder e he
  exact (hnames.apply delta).contains_of_alike h (Text.alike_refl _) (contains_apply he)

end Document

namespace Database

/-- Values that a database is to keep apart: those of two fields, and those of one
field for two types, if it remembers by type. -/
inductive KeptApart (d : Database) (f : Field) (t : Option Text) (g : Field) (u : Option Text) :
    Prop where
  | fields (hother : f ≠ g)
  | types {type other : Text} (hsame : f = g) (hby : f.ByType d.typeField.name)
      (ht : t = some type) (hu : u = some other) (hother : Text.alike type other = false)

/-- **Which values are kept apart.**  Two fields have a key in common where the name of
one ends in the name of the other, and one field never has one key for two types.
Keys that are not alike do not touch each other's values; and where names differ,
what is recorded under one of two keys that are alike is found under the other. -/
theorem keptApart_iff {index : Nat} {s : DatabaseSettings} {d : Database}
    (haccepted : ofSettings index s = .ok d) {f g : Field} (hf : f ∈ d.fields)
    (hg : g ∈ d.fields) {t u : Option Text} {k l : Text}
    (hk : f.historyKey d.typeField.name t = some k)
    (hl : g.historyKey d.typeField.name u = some l) (hapart : d.KeptApart f t g u) :
    (Text.alike k l = true ↔
      f.EndsIn d.typeField.name t g u ∨ g.EndsIn d.typeField.name u f t) ∧
    (f = g → Text.alike k l = false) ∧
    ∀ (doc : Document) (delta : Delta), delta.Under d.name k →
      (Text.alike k l = false →
        (doc.apply delta).values d.name l = doc.values d.name l) ∧
      (Text.alike k l = true → doc.NamesDiffer →
        ∀ e ∈ delta.entries, (doc.apply delta).contains d.name l e.value = true) := by
  have hiff := Field.alike_keys_iff hk hl
  -- What two keys of one field and one type have in common is what is not kept apart.
  have hfresh : ¬ (Text.alike f.name g.name = true ∧
      Text.alike (f.keyLead d.typeField.name t) (g.keyLead d.typeField.name u) = true) := by
    rintro ⟨hname, hlead⟩
    cases hapart with
    | fields hother =>
        rw [(accepted_of_ofSettings haccepted).not_alike hf hg hother] at hname
        cases hname
    | types hsame hby ht hu hother =>
        subst hsame ht hu
        rw [Text.alike_iff, Field.lower_keyLead hby, Field.lower_keyLead hby] at hlead
        have htypes := Text.alike_iff.2 (List.append_cancel_right hlead)
        rw [hother] at htypes
        cases htypes
  have hkeys : Text.alike k l = true ↔
      f.EndsIn d.typeField.name t g u ∨ g.EndsIn d.typeField.name u f t := by
    rw [hiff, or_iff_right hfresh]
  refine ⟨hkeys, fun hsame => ?_, fun doc delta hunder => ⟨fun h => ?_, fun h hnames e he => ?_⟩⟩
  · rw [← Bool.not_eq_true, hkeys]
    subst hsame
    rintro (hends | hends)
    · exact Field.not_endsIn_self hends
    · exact Field.not_endsIn_self hends
  · exact doc.values_apply_of_not_alike hunder h
  · exact Document.contains_apply_of_alike hunder h hnames he

/-- Settings with two fields that remember by type, of which one name ends in the
other. -/
def gearSettings : DatabaseSettings where
  database := "Exercise"
  params := ["Gear", "Trail-Gear"]
  fields := SortedMap.ofList
    [("Gear", { allowed := some .historyByType }),
      ("Trail-Gear", { allowed := some .historyByType })]

/-- The gear for every type of exercise. -/
def gear : Field where
  name := "Gear"
  policy := .historyByType ⟨[], []⟩

/-- The gear for the trail. -/
def trailGear : Field where
  name := "Trail-Gear"
  policy := .historyByType ⟨[], []⟩

/-- The database of those settings. -/
def gearDatabase : Database where
  name := "Exercise"
  typeField := { name := "Type" }
  params := [gear, trailGear]

/-- A run with a lamp. -/
def runWithLamp : Record where
  database := "Exercise"
  typeValue := some "Run"
  params := [⟨"Trail-Gear", .single "lamp"⟩]

/-- What is recorded as trail gear for `Run` is found as gear for `Run-Trail`, which
is another field and another type. -/
theorem keptApart_iff_gear :
    ofSettings 0 gearSettings = .ok gearDatabase ∧
      gearDatabase.KeptApart trailGear (some "Run") gear (some "Run-Trail") ∧
      trailGear.historyKey gearDatabase.typeField.name (some "Run") = some "Run-Trail-Gear" ∧
      gear.historyKey gearDatabase.typeField.name (some "Run-Trail") = some "Run-Trail-Gear" ∧
      (Document.empty.diff gearDatabase runWithLamp).entries
        = [⟨gearDatabase.name, "Run-Trail-Gear", "Lamp"⟩] ∧
      Document.empty.contains gearDatabase.name "Run-Trail-Gear" "Lamp" = false ∧
      (Document.empty.apply (Document.empty.diff gearDatabase runWithLamp)).contains
        gearDatabase.name "Run-Trail-Gear" "Lamp" = true := by
  have hother : trailGear ≠ gear := by
    intro hsame
    exact absurd (congrArg (fun f : Field => f.name) hsame) (by decide)
  have hapart : gearDatabase.KeptApart trailGear (some "Run") gear (some "Run-Trail") :=
    .fields hother
  have haccepted : ofSettings 0 gearSettings = .ok gearDatabase := by rfl
  have hgear : gear ∈ gearDatabase.fields := List.mem_cons_of_mem _ List.mem_cons_self
  have htrail : trailGear ∈ gearDatabase.fields :=
    List.mem_cons_of_mem _ (List.mem_cons_of_mem _ List.mem_cons_self)
  have hkey : trailGear.historyKey gearDatabase.typeField.name (some "Run")
      = some "Run-Trail-Gear" := by decide +kernel
  have hkey' : gear.historyKey gearDatabase.typeField.name (some "Run-Trail")
      = some "Run-Trail-Gear" := by decide +kernel
  have hends : trailGear.EndsIn gearDatabase.typeField.name (some "Run") gear
      (some "Run-Trail") := by
    refine ⟨⟨⟨_, rfl⟩, by decide +kernel⟩, "Run-Trail", "trail", rfl, ?_, ?_⟩
    · decide +kernel
    · decide +kernel
  have hentries : (Document.empty.diff gearDatabase runWithLamp).entries
      = [⟨gearDatabase.name, "Run-Trail-Gear", "Lamp"⟩] := by decide +kernel
  have hunder : (Document.empty.diff gearDatabase runWithLamp).Under gearDatabase.name
      "Run-Trail-Gear" := by
    intro e he
    rw [hentries, List.mem_singleton] at he
    rw [he]
    exact ⟨rfl, rfl⟩
  obtain ⟨hiff, _, hvalues⟩ := keptApart_iff haccepted htrail hgear hkey hkey' hapart
  obtain ⟨_, hshared⟩ := hvalues Document.empty _ hunder
  refine ⟨haccepted, hapart, hkey, hkey', hentries, rfl, ?_⟩
  exact hshared (hiff.2 (Or.inl hends)) Document.namesDiffer_empty _
    (hentries ▸ List.mem_cons_self)

end Database

end Tagline
