import Tagline.Proofs.Parse
import Tagline.Proofs.Text.Plain

/-!
# What a warning says

A value of a closed list is compared as it is typed, trimmed and ignoring case; a
value that is not found takes its normal spelling, and a warning says that it is not
in the list.  So what is outside the list is the **typed** text.  The value that the
warning shows is its normal spelling, and that one is outside too where it is alike
to the typed text, but not always: `ice  cream` with two spaces is not `Ice Cream`,
and its normal spelling is.

* `Field.flags_of_check` — when one value is flagged;
* `Field.flags_of_readSegment`, `Database.flags_of_readLine` — the warnings of a
  segment and of a line;
* `Registry.flags_of_mem_warnings` — every warning of a line is about a text of the
  line that is not in its list.
-/

namespace Tagline

/-- What a warning says about a text that is checked for a field. -/
structure Warning.Flags (w : Warning) (kind : WarningKind) (database : Text) (f : Field)
    (type : Option Text) (raw : Text) : Prop where
  kind_eq : w.kind = kind
  database_eq : w.database = database
  field_eq : w.field = f.name
  value_eq : w.value = Text.normalize raw
  allowed_eq : w.allowed = f.allowedValues type
  closed : f.isFixed = true
  declared : w.allowed ≠ []
  trimmed : Text.Trimmed raw
  ne : raw ≠ []
  outside : ∀ a ∈ w.allowed, Text.alike a raw = false

variable {w : Warning} {kind : WarningKind} {database raw : Text} {f : Field}
  {type : Option Text}

/-- **The value of a warning is outside its list** where it is alike to what was
typed. -/
theorem Warning.Flags.not_alike (h : w.Flags kind database f type raw)
    (halike : Text.alike w.value raw = true) : ∀ a ∈ w.allowed, Text.alike a w.value = false := by
  intro a ha
  have houtside := h.outside a ha
  rw [← Bool.not_eq_true] at houtside ⊢
  intro hlisted
  exact houtside (Text.alike_trans hlisted halike)

/-- So it is for a plain text. -/
theorem Warning.Flags.not_alike_of_plain (h : w.Flags kind database f type raw)
    (hplain : raw.Plain) : ∀ a ∈ w.allowed, Text.alike a w.value = false := by
  refine h.not_alike ?_
  rw [h.value_eq]
  exact Text.alike_normalize h.trimmed hplain

namespace Field

/-- **A text is flagged** where its field has a list and the list does not hold it. -/
theorem flags_of_check (ht : Text.Trimmed raw) (hne : raw ≠ []) :
    (f.check database kind type raw).warning = some w ↔ w.Flags kind database f type raw := by
  constructor
  · intro h
    unfold check at h
    simp only at h
    split at h
    · cases h
    · next hclosed =>
        simp only [Bool.or_eq_true, Bool.not_eq_true', not_or, Bool.not_eq_false,
          List.isEmpty_iff] at hclosed
        obtain ⟨hfixed, hdeclared⟩ := hclosed
        split at h
        · cases h
        · next hcanonical =>
            cases h
            have hout : ∀ a ∈ f.allowedValues type, Text.alike a raw = false := by
              intro a ha
              rw [canonical, if_pos hfixed, Text.trim_of_trimmed ht] at hcanonical
              simpa using List.find?_eq_none.1 hcanonical a ha
            exact ⟨rfl, rfl, rfl, rfl, rfl, hfixed, hdeclared, ht, hne, hout⟩
  · intro h
    have hdeclared : f.allowedValues type ≠ [] := h.allowed_eq ▸ h.declared
    have hcanonical : f.canonical raw type = none := by
      rw [canonical, if_pos h.closed, Text.trim_of_trimmed ht]
      refine List.find?_eq_none.2 fun a ha => ?_
      have houtside := h.outside a (h.allowed_eq ▸ ha)
      simp [houtside]
    have hw : ⟨kind, database, f.name, Text.normalize raw, f.allowedValues type⟩ = w := by
      rw [← h.kind_eq, ← h.database_eq, ← h.field_eq, ← h.value_eq, ← h.allowed_eq]
    rw [← hw]
    simp [check, h.closed, hdeclared, hcanonical]

/-- A segment is flagged for one of its values. -/
theorem flags_of_readSegment {s : Text} (h : w ∈ (f.readSegment database type s).warnings) :
    ∃ raw, raw <:+: s ∧ w.Flags .valueNotAllowed database f type raw := by
  obtain ⟨raws, hraws, _, _, hwarnings⟩ := f.readSegment_cases database type s
  rw [hwarnings] at h
  obtain ⟨k, hk, hwarning⟩ := List.mem_filterMap.1 h
  obtain ⟨raw, hraw, rfl⟩ := List.mem_map.1 hk
  obtain ⟨hin, htrim, hne⟩ := hraws raw hraw
  exact ⟨raw, hin, (flags_of_check htrim hne).1 hwarning⟩

end Field

namespace Database

variable {d : Database} {separator head body : Text} {rest : Option Text} {trailing : Bool}
  {o : Outcome}

/-- The segments of a line are flagged for the parameters and the type of the line. -/
theorem flags_of_readSegments (h : d.readSegments separator type body = .ok o)
    (hw : w ∈ o.warnings) :
    ∃ f ∈ d.params, ∃ raw, raw <:+: body ∧ w.Flags .valueNotAllowed d.name f type raw := by
  rw [(readSegments_eq_ok h).2.2] at hw
  obtain ⟨reading, hreading, hwarning⟩ := List.mem_flatMap.1 hw
  obtain ⟨f, s, hpair, rfl⟩ := mem_readings.1 hreading
  obtain ⟨hf, hs⟩ := List.of_mem_zip hpair
  obtain ⟨raw, hraw, hflags⟩ := Field.flags_of_readSegment hwarning
  exact ⟨f, hf, raw, hraw.trans (Text.infix_of_mem_pieces hs), hflags⟩

/-- A warning of a line is about its type, or about a value of a parameter, which is
checked for the type that the record keeps. -/
inductive FlagsPart (d : Database) (w : Warning) (type : Option Text) (raw : Text) : Prop where
  | type (h : w.Flags .unknownType d.name d.typeField none raw)
  | value {f : Field} (hf : f ∈ d.params) (h : w.Flags .valueNotAllowed d.name f type raw)

/-- A line is flagged for its type or for one of its segments. -/
theorem flags_of_readLine (h : d.readLine separator head type rest trailing = .ok o)
    (hw : w ∈ o.warnings) :
    ∃ raw, ((∃ t, type = some t ∧ raw <:+: t) ∨ ∃ body, rest = some body ∧ raw <:+: body) ∧
      o.record.database = d.name ∧ d.FlagsPart w o.record.typeValue raw := by
  obtain ⟨checked, hchecked, hdatabase, _, hrest⟩ := readLine_cases h
  have hhead : w ∈ (checked.bind (·.warning)).toList →
      ∃ t, type = some t ∧ w.Flags .unknownType d.name d.typeField none (Text.trim t) := by
    intro hmem
    obtain ⟨k, hk, hwarning⟩ := Option.bind_eq_some_iff.1 (Option.mem_toList.1 hmem)
    obtain ⟨t, ht, hne, rfl⟩ := hchecked k hk
    exact ⟨t, ht, (Field.flags_of_check (Text.trimmed_trim t) hne).1 hwarning⟩
  rcases hrest with ⟨_, _, _, hwarnings⟩ | ⟨body, segments, hbody, hseg, _, _, hwarnings⟩
  · rw [hwarnings] at hw
    obtain ⟨t, ht, hflags⟩ := hhead hw
    exact ⟨_, Or.inl ⟨t, ht, Text.trim_isInfix t⟩, hdatabase, .type hflags⟩
  · rw [hwarnings] at hw
    rcases List.mem_append.1 hw with hw | hw
    · obtain ⟨t, ht, hflags⟩ := hhead hw
      exact ⟨_, Or.inl ⟨t, ht, Text.trim_isInfix t⟩, hdatabase, .type hflags⟩
    · obtain ⟨f, hf, raw, hraw, hflags⟩ := flags_of_readSegments hseg hw
      exact ⟨raw, Or.inr ⟨body, hbody, hraw⟩, hdatabase, .value hf hflags⟩

end Database

/-! ## Lines -/

/-- The head of a line and what follows it stand in the line. -/
theorem splitHead_isInfix (line : Text) :
    (splitHead line).1 <:+: line ∧ ∀ rest, (splitHead line).2 = some rest → rest <:+: line := by
  refine ⟨splitHead_fst line ▸ (List.takeWhile_prefix _).isInfix, fun rest hrest => ?_⟩
  unfold splitHead at hrest
  dsimp only at hrest
  split at hrest
  · cases hrest
  · next blanks hblanks =>
      cases hrest
      have hdrop : Text.trimStart (line.dropWhile fun c => !Text.isBlank c) <:+ line :=
        (List.dropWhile_suffix _).trans (List.dropWhile_suffix _)
      exact hdrop.isInfix

/-- The type of a head stands in the head. -/
theorem splitType_isInfix {head type : Text} (h : (splitType head).2 = some type) :
    type <:+: head := by
  unfold splitType at h
  split at h
  · next name t hcut =>
      obtain rfl : t = type := by simpa using h
      obtain ⟨hhead, _⟩ := Text.cutAt_eq_some hcut
      rw [hhead]
      exact ((List.suffix_cons '/' t).trans (List.suffix_append name ('/' :: t))).isInfix
  · cases h

/-- **Every warning is about a text of the line that is not in its list**: the type, or
a value of a parameter.  The value that the warning shows is the normal spelling of
that text, and where this is alike to the text, plain texts in particular, it is not
in the list either. -/
theorem Registry.flags_of_mem_warnings {r : Registry} {line : Text} {o : Outcome}
    (h : r.parse line = .ok o) {w : Warning} (hw : w ∈ o.warnings) :
    ∃ d ∈ r.databases, ∃ raw : Text, raw <:+: line ∧ o.record.database = d.name ∧
      d.FlagsPart w o.record.typeValue raw ∧ (∀ a ∈ w.allowed, Text.alike a raw = false) ∧
      w.value = Text.normalize raw ∧
      (Text.alike w.value raw = true ∨ raw.Plain →
        ∀ a ∈ w.allowed, Text.alike a w.value = false) := by
  rcases parse_cases h with ⟨_, hclean⟩ | ⟨trailing, d, hd, hread⟩
  · rw [hclean] at hw
    cases hw
  · obtain ⟨raw, hpart, hdatabase, hflags⟩ := Database.flags_of_readLine hread hw
    obtain ⟨hhead, hrest⟩ := splitHead_isInfix (Text.trim line)
    have hin : raw <:+: Text.trim line := by
      rcases hpart with ⟨t, ht, hraw⟩ | ⟨body, hbody, hraw⟩
      · exact (hraw.trans (splitType_isInfix ht)).trans hhead
      · exact hraw.trans (hrest body hbody)
    have hflag : ∃ kind f type, w.Flags kind d.name f type raw := by
      cases hflags with
      | type hflags => exact ⟨_, _, _, hflags⟩
      | value _ hflags => exact ⟨_, _, _, hflags⟩
    obtain ⟨kind, f, type, hflag⟩ := hflag
    refine ⟨d, mem_of_database? hd, raw, hin.trans (Text.trim_isInfix line), hdatabase, hflags,
      hflag.outside, hflag.value_eq, fun halike => ?_⟩
    rcases halike with halike | hplain
    · exact hflag.not_alike halike
    · exact hflag.not_alike_of_plain hplain

/-- Settings with a closed list. -/
def mealSettings : Settings where
  databases :=
    [ { database := "Meal"
        params := ["Dessert"]
        fields := SortedMap.ofList
          [("Dessert", { allowed := some .fixed
                         values := SortedMap.ofList [(allTypesKey, ["Ice Cream"])] })] } ]

/-- The registry of those settings. -/
def mealRegistry : Registry where
  databases :=
    [ { name := "Meal"
        typeField := { name := "Type" }
        params := [{ name := "Dessert", policy := .fixed ⟨["Ice Cream"], []⟩ }] } ]

/-- Two spaces between the words are flagged with a value that is in the list; what was
typed is not plain. -/
theorem flags_of_mem_warnings_meal :
    Registry.ofSettings mealSettings = .ok mealRegistry ∧
      ∃ (o : Outcome) (w : Warning) (raw : Text),
        mealRegistry.parse "Meal ice  cream" = .ok o ∧ w ∈ o.warnings ∧
        w.value = "Ice Cream".toList ∧ w.allowed = ["Ice Cream".toList] ∧
        w.value = Text.normalize raw ∧ Text.alike w.value raw = false ∧ ¬ raw.Plain := by
  let w : Warning :=
    { kind := .valueNotAllowed
      database := "Meal"
      field := "Dessert"
      value := "Ice Cream"
      allowed := ["Ice Cream"] }
  let o : Outcome :=
    { record :=
        { database := "Meal"
          params := [⟨"Dessert", .single "Ice Cream"⟩]
          location := some (.parameter "Dessert" "ice  cream") }
      warnings := [w] }
  have haccepted : Registry.ofSettings mealSettings = .ok mealRegistry := by rfl
  have hparse : mealRegistry.parse "Meal ice  cream" = .ok o := by decide +kernel
  obtain ⟨_, _, raw, _, _, _, _, hvalue, houtside⟩ :=
    Registry.flags_of_mem_warnings hparse (w := w) List.mem_cons_self
  have hlisted : Text.alike "Ice Cream" w.value = true := Text.alike_refl _
  have hchanged : ¬ (Text.alike w.value raw = true ∨ raw.Plain) := by
    intro hkept
    have hout := houtside hkept "Ice Cream" List.mem_cons_self
    rw [hlisted] at hout
    cases hout
  rw [not_or, Bool.not_eq_true] at hchanged
  exact ⟨haccepted, o, w, raw, hparse, List.mem_cons_self, rfl, rfl, hvalue, hchanged.1, hchanged.2⟩

end Tagline
