import ToolServer.Proofs.Schema.Merging
import ToolServer.Schema.Kind

/-!
# Kinds of schemas

What makes a schema of a kind, and what type the input has that it describes: choices go before the declared type, and
that before the keys of the schema.
-/

namespace ToolServer

open Document

theorem Document.Value.beq_text_iff {v : Value} {s : String} : (v == .text s) = true ↔ v = .text s := by
  cases v with
  | scalar a => exact Scalar.beq_text_iff.trans ⟨congrArg Value.scalar, Value.scalar.inj⟩
  | _ => exact ⟨fun h => (by cases h), fun h => (by cases h)⟩

namespace Schema

variable {schema : Entries}

/-! ## Declared types -/

/-- What a schema says under `type`; a list counts as its first entry that is not `null`. -/
inductive SaysType (schema : Entries) : Value → Prop
  | alone {v} : Entries.get? schema "type" = some v → (∀ vs, v ≠ .list vs) → SaysType schema v
  | first {before v after} : Entries.get? schema "type" = some (.list (before ++ v :: after)) →
      (∀ w ∈ before, w = .text "null") → v ≠ .text "null" → SaysType schema v

def Declares (schema : Entries) (t : String) : Prop := SaysType schema (.text t) ∧ t ∈ inputTypes.map (·.1)

section
variable {v w : Value}

theorem SaysType.has (h : SaysType schema v) : ∃ w, Entries.get? schema "type" = some w := by
  cases h with
  | alone hget _ => exact ⟨_, hget⟩
  | first hget _ _ => exact ⟨_, hget⟩

theorem saysType_alone_iff (hget : Entries.get? schema "type" = some w) (hlist : ∀ vs, w ≠ .list vs) :
    SaysType schema v ↔ w = v := by
  constructor
  · intro h
    cases h with
    | alone hv _ => exact Option.some.inj (hget.symm.trans hv)
    | first hv _ _ => exact absurd (Option.some.inj (hget.symm.trans hv)) (hlist _)
  · rintro rfl
    exact .alone hget hlist

theorem saysType_list_iff {vs : List Value} (hget : Entries.get? schema "type" = some (.list vs)) :
    SaysType schema v ↔ vs.find? (· != .text "null") = some v := by
  have hfind : vs.find? (· != .text "null") = some v ↔
      v ≠ .text "null" ∧ ∃ before after, vs = before ++ v :: after ∧ ∀ w ∈ before, w = .text "null" := by
    rw [List.find?_eq_some_iff_append]
    simp [bne, ← Value.beq_text_iff]
  rw [hfind]
  constructor
  · intro h
    cases h with
    | alone hv hlist => exact absurd (Option.some.inj (hget.symm.trans hv)).symm (hlist vs)
    | first hv hnull hne => exact ⟨hne, _, _, Value.list.inj (Option.some.inj (hget.symm.trans hv)), hnull⟩
  · rintro ⟨hne, before, after, rfl, hnull⟩
    exact .first hget hnull hne

theorem isKnownType_eq_some_iff {t : String} : isKnownType v = some t ↔ v = .text t ∧ t ∈ inputTypes.map (·.1) := by
  have hknown : ∀ s, (inputTypes.lookup s).isSome = true ↔ s ∈ inputTypes.map (·.1) := by
    intro s
    rw [Ordered.lookup_eq_get?, Option.isSome_iff_exists, ← Ordered.contains_iff, Ordered.mem_keys_iff]
  unfold isKnownType
  split
  · rename_i s
    rw [← hknown t, Option.ite_none_right_eq_some, Option.some.injEq]
    constructor
    · rintro ⟨hs, rfl⟩
      exact ⟨rfl, hs⟩
    · rintro ⟨h, ht⟩
      cases h
      exact ⟨ht, rfl⟩
  · rename_i hv
    exact ⟨fun h => (by cases h), fun h => absurd h.1 (hv t)⟩

end

theorem declaredType_eq_some_iff {t : String} : declaredType schema = some t ↔ Declares schema t := by
  unfold declaredType Declares Entries.get
  cases hget : Entries.get? schema "type" with
  | none =>
    constructor
    · intro h
      cases h
    · rintro ⟨h, -⟩
      obtain ⟨w, hw⟩ := h.has
      rw [hget] at hw
      cases hw
  | some v =>
    rw [Option.getD_some]
    split
    · rw [saysType_list_iff hget, Option.bind_eq_some_iff]
      simp [isKnownType_eq_some_iff, ← and_assoc]
    · rename_i hlist
      rw [saysType_alone_iff hget hlist, isKnownType_eq_some_iff]

theorem declaredType_eq_none_iff : declaredType schema = none ↔ ∀ t, ¬ Declares schema t := by
  simp only [← declaredType_eq_some_iff, Option.eq_none_iff_forall_ne_some, ne_eq]

/-! ## Kinds -/

def HasChoices (schema : Entries) : Prop := ∃ vs, vs ≠ [] ∧ Entries.get? schema "enum" = some (.list vs)

/-- What kind a schema is of. Choices go before the declared type, and that before the keys of the schema. -/
inductive IsKind (schema : Entries) : Kind → Prop
  | enum : HasChoices schema → IsKind schema .enum
  | object : ¬ HasChoices schema → Declares schema "object" → IsKind schema .object
  | array : ¬ HasChoices schema → Declares schema "array" → IsKind schema .array
  | scalar {t} : ¬ HasChoices schema → Declares schema t → t ≠ "object" → t ≠ "array" → IsKind schema .scalar
  | withProperties : ¬ HasChoices schema → (∀ t, ¬ Declares schema t) → Entries.has schema "properties" = true →
      IsKind schema .object
  | withItems : ¬ HasChoices schema → (∀ t, ¬ Declares schema t) → Entries.has schema "properties" = false →
      Entries.has schema "items" = true → IsKind schema .array
  | unknown : ¬ HasChoices schema → (∀ t, ¬ Declares schema t) → Entries.has schema "properties" = false →
      Entries.has schema "items" = false → IsKind schema .unresolved

theorem enumValues?_eq_some_iff {vs : List Value} :
    enumValues? schema = some vs ↔ vs ≠ [] ∧ Entries.get? schema "enum" = some (.list vs) := by
  unfold enumValues?
  split
  · rename_i v ws hget
    rw [hget]
    constructor
    · intro h
      cases h
      exact ⟨List.cons_ne_nil v ws, rfl⟩
    · rintro ⟨-, h⟩
      cases h
      rfl
  · rename_i hother
    constructor
    · intro h
      cases h
    · rintro ⟨hne, hget⟩
      obtain ⟨v, ws, rfl⟩ := List.exists_cons_of_ne_nil hne
      exact absurd hget (hother v ws)

theorem isSome_enumValues?_iff : (enumValues? schema).isSome = true ↔ HasChoices schema := by
  rw [Option.isSome_iff_exists]
  exact exists_congr fun _ => enumValues?_eq_some_iff

theorem isKind_plainKind (h : ¬ HasChoices schema) : IsKind schema (plainKind schema) := by
  unfold plainKind
  split
  · rename_i ht
    exact .object h (declaredType_eq_some_iff.mp ht)
  · rename_i ht
    exact .array h (declaredType_eq_some_iff.mp ht)
  · rename_i t hobject harray ht
    exact .scalar h (declaredType_eq_some_iff.mp ht) (fun heq => hobject (heq ▸ rfl)) fun heq => harray (heq ▸ rfl)
  · rename_i hnone
    have hnone := declaredType_eq_none_iff.mp hnone
    by_cases hproperties : Entries.has schema "properties" = true
    · rw [if_pos hproperties]
      exact .withProperties h hnone hproperties
    · rw [if_neg hproperties]
      have hproperties := Bool.eq_false_iff.mpr hproperties
      by_cases hitems : Entries.has schema "items" = true
      · rw [if_pos hitems]
        exact .withItems h hnone hproperties hitems
      · rw [if_neg hitems]
        exact .unknown h hnone hproperties (Bool.eq_false_iff.mpr hitems)

theorem isKind_kind (schema : Entries) : IsKind schema (kind schema) := by
  unfold kind
  by_cases h : (enumValues? schema).isSome = true
  · rw [if_pos h]
    exact .enum (isSome_enumValues?_iff.mp h)
  · rw [if_neg h]
    exact isKind_plainKind (mt isSome_enumValues?_iff.mpr h)

theorem IsKind.kind_eq {k : Kind} (h : IsKind schema k) : kind schema = k := by
  have hplain : ¬ HasChoices schema → kind schema = plainKind schema := fun hnone => by
    rw [kind, if_neg (mt isSome_enumValues?_iff.mp hnone)]
  cases h with
  | enum h => rw [kind, if_pos (isSome_enumValues?_iff.mpr h)]
  | object h ht =>
    rw [hplain h, plainKind, declaredType_eq_some_iff.mpr ht]
    rfl
  | array h ht =>
    rw [hplain h, plainKind, declaredType_eq_some_iff.mpr ht]
    rfl
  | scalar h ht hobject harray =>
    rw [hplain h, plainKind, declaredType_eq_some_iff.mpr ht]
    split
    · rename_i heq
      exact absurd (Option.some.inj heq) hobject
    · rename_i heq
      exact absurd (Option.some.inj heq) harray
    · rfl
    · rename_i heq
      cases heq
  | withProperties h ht hproperties =>
    rw [hplain h, plainKind, declaredType_eq_none_iff.mpr ht]
    simp [hproperties]
  | withItems h ht hproperties hitems =>
    rw [hplain h, plainKind, declaredType_eq_none_iff.mpr ht]
    simp [hproperties, hitems]
  | unknown h ht hproperties hitems =>
    rw [hplain h, plainKind, declaredType_eq_none_iff.mpr ht]
    simp [hproperties, hitems]

theorem kind_eq_iff {k : Kind} : kind schema = k ↔ IsKind schema k :=
  ⟨fun h => h ▸ isKind_kind schema, IsKind.kind_eq⟩

theorem kind_eq_enum_iff : kind schema = .enum ↔ HasChoices schema := by
  rw [kind_eq_iff]
  constructor
  · intro h
    cases h with
    | enum h => exact h
  · exact .enum

/-! ## Types -/

def toolTypes : List String := ["string", "number", "boolean", "array", "object"]

def typeFor (t : String) : String := if t = "integer" then "number" else t

def typeWithout : Kind → String
  | .object => "object"
  | .array => "array"
  | _ => "string"

theorem lookup_inputTypes : ∀ t ∈ inputTypes.map (·.1), inputTypes.lookup t = some (typeFor t) := by decide

theorem inputType_of_declares {t : String} (h : Declares schema t) : inputType schema = typeFor t := by
  have ht : declaredType schema = some t := declaredType_eq_some_iff.mpr h
  have hlookup : inputTypes.lookup t = some (typeFor t) := lookup_inputTypes t h.2
  have hunique : ∀ u, Declares schema u → u = t := fun u hu =>
    Option.some.inj ((declaredType_eq_some_iff.mpr hu).symm.trans ht)
  have hkind := isKind_kind schema
  unfold inputType
  rw [ht, Option.getD_some, hlookup, Option.getD_some]
  generalize kind schema = k at hkind
  cases hkind with
  | enum _ => rfl
  | object _ hobject => rw [← hunique _ hobject]; rfl
  | array _ harray => rw [← hunique _ harray]; rfl
  | scalar _ _ _ _ => rfl
  | withProperties _ hnone _ => exact absurd h (hnone t)
  | withItems _ hnone _ _ => exact absurd h (hnone t)
  | unknown _ hnone _ _ => exact absurd h (hnone t)

theorem inputType_of_none (h : ∀ t, ¬ Declares schema t) : inputType schema = typeWithout (kind schema) := by
  unfold inputType
  rw [declaredType_eq_none_iff.mpr h]
  cases kind schema <;> rfl

theorem inputType_mem (schema : Entries) : inputType schema ∈ toolTypes := by
  have hdeclared : ∀ t ∈ inputTypes.map (·.1), typeFor t ∈ toolTypes := by decide
  have hwithout : ∀ k, typeWithout k ∈ toolTypes := fun k => by cases k <;> decide
  by_cases h : ∃ t, Declares schema t
  · obtain ⟨t, ht⟩ := h
    rw [inputType_of_declares ht]
    exact hdeclared t ht.2
  · rw [inputType_of_none (not_exists.mp h)]
    exact hwithout _

end Schema

end ToolServer
