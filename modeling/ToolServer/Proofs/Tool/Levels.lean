import ToolServer.Proofs.Schema.Kind
import ToolServer.Tool.Property

/-!
# Levels of inputs

The input that a schema describes has a level for each schema that it is made of. `Level` says what one level has of
its schema: the type, the choices, the items and the members. `ofSchema_mirrors`: it holds at every depth.
-/

namespace ToolServer

open Document

namespace Property

open Schema

variable {schema : Entries} {p : Property}

/-- A schema inside a schema; what is no map counts as the empty one. -/
def subschema : Value → Entries
  | .map schema => schema
  | _ => []

theorem ofValue_eq (description : Option String) (v : Value) :
    ofValue description v = ofSchema (subschema v) description := by
  have hempty : ofSchema [] description = .ok (base description []) := rfl
  cases v with
  | map schema => rfl
  | _ => exact hempty.symm

theorem itemsIn_eq : ∀ es : Entries, itemsIn es = match Entries.get? es "items" with
    | some (.map schema) => (ofSchema schema).map some
    | _ => .ok none
  | [] => by rw [itemsIn]; rfl
  | (k, v) :: es => by
    unfold itemsIn Entries.get? Ordered.get?
    split
    · cases v <;> rfl
    · exact itemsIn_eq es

theorem propertiesIn_eq : ∀ es : Entries, propertiesIn es = match Entries.get? es "properties" with
    | some (.map members) => (membersOf members).map fun ps => some (Ordered.ofPairs ps)
    | _ => .ok none
  | [] => by rw [propertiesIn]; rfl
  | (k, v) :: es => by
    unfold propertiesIn Entries.get? Ordered.get?
    split
    · cases v <;> rfl
    · exact propertiesIn_eq es

theorem itemsIn_eq_some_iff {q : Property} : itemsIn schema = .ok (some q) ↔
    ∃ inner, Entries.get? schema "items" = some (.map inner) ∧ ofSchema inner = .ok q := by
  rw [itemsIn_eq]
  constructor
  · intro h
    split at h
    · rename_i inner hinner
      obtain ⟨r, hr, heq⟩ := exists_of_map_ok h
      exact ⟨inner, hinner, Option.some.inj heq ▸ hr⟩
    · cases h
  · rintro ⟨inner, hinner, hq⟩
    rw [hinner]
    exact congrArg (·.map some) hq

theorem propertiesIn_eq_some {ps : List (String × Property)} (h : propertiesIn schema = .ok (some ps)) :
    ∃ members qs, Entries.get? schema "properties" = some (.map members) ∧ membersOf members = .ok qs ∧
      ps = Ordered.ofPairs qs := by
  rw [propertiesIn_eq] at h
  split at h
  · rename_i members hmembers
    obtain ⟨qs, hqs, heq⟩ := exists_of_map_ok h
    exact ⟨members, qs, hmembers, hqs, (Option.some.inj heq).symm⟩
  · cases h

theorem ite_ok_none_eq_some_iff {ε α : Type} {c : Prop} [Decidable c] {x : Except ε (Option α)} {a : α} :
    (if c then x else .ok none) = .ok (some a) ↔ c ∧ x = .ok (some a) := by
  by_cases hc : c
  · simp [hc]
  · simp [hc]

structure Made (schema : Entries) (p : Property) : Prop where
  type : p.type = inputType schema
  enum : p.enum = enumValues? schema
  items : (if kind schema = .array then itemsIn schema else .ok none) = .ok p.items
  properties : (if kind schema = .object then propertiesIn schema else .ok none) = .ok p.properties

theorem made_ofSchema (schema : Entries) (description : Option String) :
    Gives (ofSchema schema description) (Made schema) := by
  unfold ofSchema ofValue
  dsimp only
  split
  · rename_i hkind
    intro p hp
    obtain ⟨o, ho, hp⟩ := bind_eq_ok_iff.mp hp
    cases hp
    exact ⟨rfl, rfl, by rw [if_pos hkind, ho], by rw [hkind]; rfl⟩
  · rename_i hkind
    intro p hp
    obtain ⟨o, ho, hp⟩ := bind_eq_ok_iff.mp hp
    have hitems : (if kind schema = .array then itemsIn schema else .ok none) = .ok none := by rw [hkind]; rfl
    cases o with
    | none =>
      cases hp
      exact ⟨rfl, rfl, hitems, by rw [if_pos hkind, ho]; rfl⟩
    | some ps =>
      obtain ⟨r, -, hp⟩ := bind_eq_ok_iff.mp hp
      cases hp
      exact ⟨rfl, rfl, hitems, by rw [if_pos hkind, ho]⟩
  · rename_i harray hobject
    exact .ok ⟨rfl, rfl, if_neg harray, if_neg hobject⟩

/-! ## Levels -/

/-- The inputs of members go by the texts that their keys show as; of those that show alike the last one counts. -/
structure MadeMembers (members : Entries) (ps : List (String × Property)) : Prop where
  names : ps.map (·.1) = (members.map (·.1.display)).eraseDups
  last : ∀ name q, Ordered.get? name ps = some q →
    ∃ m, members.findRev? (·.1.display == name) = some m ∧ ofSchema (subschema m.2) = .ok q

structure Level (schema : Entries) (p : Property) : Prop where
  kind : ∀ k, kind schema = k ↔ IsKind schema k
  known : p.type ∈ toolTypes
  declared : ∀ t, Declares schema t → p.type = typeFor t
  undeclared : (∀ t, ¬ Declares schema t) → p.type = typeWithout (Schema.kind schema)
  choices : ∀ vs, p.enum = some vs ↔ vs ≠ [] ∧ Entries.get? schema "enum" = some (.list vs)
  alone : ∀ vs, p.enum = some vs → p.items = none ∧ p.properties = none
  hasItems : (∃ q, p.items = some q) ↔
    Schema.kind schema = .array ∧ ∃ inner, Entries.get? schema "items" = some (.map inner)
  items : ∀ q inner, p.items = some q → Entries.get? schema "items" = some (.map inner) → ofSchema inner = .ok q
  hasProperties : (∃ ps, p.properties = some ps) ↔
    Schema.kind schema = .object ∧ ∃ members, Entries.get? schema "properties" = some (.map members)
  properties : ∀ ps members, p.properties = some ps → Entries.get? schema "properties" = some (.map members) →
    MadeMembers members ps

theorem membersOf_forall₂ : ∀ members : Entries, Gives (membersOf members) fun ps =>
    List.Forall₂ (fun m e => e.1 = m.1.display ∧ ofSchema (subschema m.2) = .ok e.2) members ps
  | [] => by
    unfold membersOf
    exact .ok .nil
  | (k, v) :: members => by
    unfold membersOf
    rw [ofValue_eq]
    refine Gives.bind (fun q hq => hq) fun q hq => (membersOf_forall₂ members).bind fun ps hps => ?_
    exact .ok (.cons ⟨rfl, hq⟩ hps)

theorem findRev?_forall₂ {α β κ : Type} [BEq κ] [LawfulBEq κ] {f : α → κ} {g : β → κ} {R : α → β → Prop} {as : List α}
    {bs : List β} (h : List.Forall₂ (fun a b => g b = f a ∧ R a b) as bs) {k : κ} {b : β}
    (hb : bs.findRev? (g · == k) = some b) : ∃ a, as.findRev? (f · == k) = some a ∧ R a b := by
  rw [List.findRev?_eq_find?_reverse] at hb ⊢
  have h := List.rel_reverse h
  generalize as.reverse = as at h ⊢
  generalize bs.reverse = bs at h hb
  induction h with
  | nil => cases hb
  | @cons a b' as bs hab _ ih =>
    obtain ⟨hkey, hrel⟩ := hab
    rw [List.find?_cons, hkey] at hb
    rw [List.find?_cons]
    cases hk : f a == k with
    | true =>
      rw [hk] at hb
      exact ⟨a, rfl, Option.some.inj hb ▸ hrel⟩
    | false =>
      rw [hk] at hb
      exact ih hb

theorem membersOf_made {members : Entries} {ps : List (String × Property)} (h : membersOf members = .ok ps) :
    MadeMembers members (Ordered.ofPairs ps) := by
  have hmade := membersOf_forall₂ members ps h
  have hnames : ps.map (·.1) = members.map (·.1.display) := map_eq_of_forall₂ (hmade.imp fun _ _ h => h.1)
  constructor
  · rw [Ordered.ofPairs, keys_putAll, ← hnames]
    simp [withNew]
  · intro name q hq
    rw [Ordered.get?_ofPairs] at hq
    obtain ⟨e, he, rfl⟩ := Option.map_eq_some_iff.mp hq
    exact findRev?_forall₂ hmade he

section
variable (h : Made schema p)
include h

theorem Made.items_eq_some {q : Property} (hq : p.items = some q) : kind schema = .array ∧
    ∃ inner, Entries.get? schema "items" = some (.map inner) ∧ ofSchema inner = .ok q := by
  have hitems := h.items
  rw [hq, ite_ok_none_eq_some_iff, itemsIn_eq_some_iff] at hitems
  exact hitems

theorem Made.properties_eq_some {ps : List (String × Property)} (hps : p.properties = some ps) : kind schema = .object ∧
    ∃ members, Entries.get? schema "properties" = some (.map members) ∧ MadeMembers members ps := by
  have hproperties := h.properties
  rw [hps, ite_ok_none_eq_some_iff] at hproperties
  obtain ⟨hkind, hproperties⟩ := hproperties
  obtain ⟨members, qs, hmembers, hqs, rfl⟩ := propertiesIn_eq_some hproperties
  exact ⟨hkind, members, hmembers, membersOf_made hqs⟩

theorem Made.items_isSome_iff : (∃ q, p.items = some q) ↔
    kind schema = .array ∧ ∃ inner, Entries.get? schema "items" = some (.map inner) := by
  constructor
  · rintro ⟨q, hq⟩
    obtain ⟨hkind, inner, hinner, -⟩ := h.items_eq_some hq
    exact ⟨hkind, inner, hinner⟩
  · rintro ⟨hkind, inner, hinner⟩
    have hitems := h.items
    rw [if_pos hkind, itemsIn_eq, hinner] at hitems
    obtain ⟨q, -, hq⟩ := exists_of_map_ok hitems
    exact ⟨q, hq.symm⟩

theorem Made.properties_isSome_iff : (∃ ps, p.properties = some ps) ↔
    kind schema = .object ∧ ∃ members, Entries.get? schema "properties" = some (.map members) := by
  constructor
  · rintro ⟨ps, hps⟩
    obtain ⟨hkind, members, hmembers, -⟩ := h.properties_eq_some hps
    exact ⟨hkind, members, hmembers⟩
  · rintro ⟨hkind, members, hmembers⟩
    have hproperties := h.properties
    rw [if_pos hkind, propertiesIn_eq, hmembers] at hproperties
    obtain ⟨qs, -, hqs⟩ := exists_of_map_ok hproperties
    exact ⟨_, hqs.symm⟩

theorem Made.level : Level schema p where
  kind _ := kind_eq_iff
  known := h.type ▸ inputType_mem schema
  declared t ht := h.type.trans (inputType_of_declares ht)
  undeclared hnone := h.type.trans (inputType_of_none hnone)
  choices vs := by rw [h.enum, enumValues?_eq_some_iff]
  alone vs hvs := by
    rw [h.enum, enumValues?_eq_some_iff] at hvs
    have hkind : Schema.kind schema = .enum := kind_eq_enum_iff.mpr ⟨vs, hvs⟩
    constructor
    · refine Option.eq_none_iff_forall_ne_some.mpr fun q hq => ?_
      have harray := (h.items_eq_some hq).1
      rw [hkind] at harray
      cases harray
    · refine Option.eq_none_iff_forall_ne_some.mpr fun ps hps => ?_
      have hobject := (h.properties_eq_some hps).1
      rw [hkind] at hobject
      cases hobject
  hasItems := h.items_isSome_iff
  items q inner hq hinner := by
    obtain ⟨-, schema', hget, hmade⟩ := h.items_eq_some hq
    rw [hinner] at hget
    cases hget
    exact hmade
  hasProperties := h.properties_isSome_iff
  properties ps members hps hmembers := by
    obtain ⟨-, members', hget, hmade⟩ := h.properties_eq_some hps
    rw [hmembers] at hget
    cases hget
    exact hmade

end

/-! ## Every depth -/

inductive Mirrors : Entries → Property → Prop
  | intro {schema : Entries} {p : Property} : Level schema p →
      (∀ q inner, p.items = some q → Entries.get? schema "items" = some (.map inner) → Mirrors inner q) →
      (∀ ps members, p.properties = some ps → Entries.get? schema "properties" = some (.map members) →
        ∀ name q m, Ordered.get? name ps = some q → members.findRev? (·.1.display == name) = some m →
          Mirrors (subschema m.2) q) →
      Mirrors schema p

theorem sizeOf_lt_of_mem {k : Scalar} {v : Value} {es : Entries} (h : (k, v) ∈ es) : sizeOf v < sizeOf es := by
  have hentry := List.sizeOf_lt_of_mem h
  rw [Prod.mk.sizeOf_spec] at hentry
  omega

theorem sizeOf_lt_of_get? {name : String} {inner es : Entries} (h : Entries.get? es name = some (.map inner)) :
    sizeOf inner < sizeOf es := by
  have hvalue : sizeOf (Value.map inner) < sizeOf es := sizeOf_lt_of_mem (Entries.mem_of_get? h)
  rw [Value.map.sizeOf_spec] at hvalue
  omega

theorem sizeOf_subschema_le (v : Value) : sizeOf (subschema v) ≤ sizeOf v := by
  cases v with
  | pair a b =>
    simp only [subschema, List.nil.sizeOf_spec, Value.pair.sizeOf_spec]
    omega
  | _ => simp [subschema]

/-- **The input that a schema describes mirrors it at every depth.** -/
theorem ofSchema_mirrors {schema : Entries} {description : Option String} {p : Property}
    (h : ofSchema schema description = .ok p) : Mirrors schema p := by
  have hlevel : Level schema p := (made_ofSchema schema description p h).level
  refine .intro hlevel (fun q inner hq hinner => ?_) fun ps members hps hmembers name q m hq hm => ?_
  · have hsize : sizeOf inner < sizeOf schema := sizeOf_lt_of_get? hinner
    exact ofSchema_mirrors (hlevel.items q inner hq hinner)
  · obtain ⟨m', hm', hmade⟩ := (hlevel.properties ps members hps hmembers).last name q hq
    rw [hm] at hm'
    cases hm'
    have hsize : sizeOf (subschema m.2) < sizeOf schema := by
      have hmem : m ∈ members := by
        rw [List.findRev?_eq_find?_reverse] at hm
        exact List.mem_reverse.mp (List.mem_of_find?_eq_some hm)
      have hmember : sizeOf m.2 < sizeOf members := sizeOf_lt_of_mem hmem
      have hmembers : sizeOf members < sizeOf schema := sizeOf_lt_of_get? hmembers
      have := sizeOf_subschema_le m.2
      omega
    exact ofSchema_mirrors hmade
termination_by sizeOf schema

def shelfSchema : Entries := [
  (.text "type", .list [.text "null", .text "object", .text "string"]),
  (.text "properties", .map [
    (.int 1, .map [(.text "type", .text "integer")]),
    (.text "sizes", .map [(.text "items", .map [(.text "enum", .list [.int 2]), (.text "items", .map [])])]),
    (.text "1", .map [(.text "type", .text "boolean")]),
    (.text "note", .text "string")])]

theorem ofSchema_mirrors_shelf : ∃ p, ofSchema shelfSchema = .ok p ∧
    p.properties.map (·.map fun e => (e.1, e.2.type)) =
      some [("1", "boolean"), ("sizes", "array"), ("note", "string")] ∧
    Mirrors shelfSchema p := by
  have hmembers : (ofSchema shelfSchema).map (fun p => p.properties.map (·.map fun e => (e.1, e.2.type))) =
      .ok (some [("1", "boolean"), ("sizes", "array"), ("note", "string")]) := by decide +kernel
  obtain ⟨p, hp, hmembers⟩ := exists_of_map_ok hmembers
  exact ⟨p, hp, hmembers, ofSchema_mirrors hp⟩

end Property

end ToolServer
