import ToolServer.Api.Records
import ToolServer.Proofs.Schema.Flattening

/-!
# Schemas without indirection

A schema is direct if no map inside it has a reference and no schema that it is made of has a composition.
`flatten_flattened`: flattening a value without references makes it direct.
-/

namespace ToolServer.Schema

open Document

/-- No map at any depth has a reference, and no schema in it a composition. -/
structure Direct (schema : Entries) : Prop where
  no_ref : EachEntry (·.1 ≠ .text "$ref") (.map schema)
  no_composition : ∀ es, Position (.map schema) (.map es) → ∀ e ∈ es, e.1 ≠ .text "allOf"

/-! ## Before and after -/

def words : List String := ["$ref", "allOf", "properties"] ++ schemaKeys ++ schemaListKeys

def Spelled (k : Scalar) : Prop := ∀ s ∈ words, Api.keyText? k = some s → k = .text s

structure SettledEntry (e : Scalar × Value) : Prop where
  no_ref : e.1 ≠ .text "$ref"
  properties : e.1 = .text "properties" → ∃ ps, e.2 = .map ps
  spelled : Spelled e.1

def Settled : Value → Prop := EachEntry SettledEntry

structure FlatKey (e : Scalar × Value) : Prop where
  no_composition : e.1 ≠ .text "allOf"
  properties : e.1 = .text "properties" → ∃ ps, e.2 = .map ps
  spelled : Spelled e.1

structure Flattened (v : Value) : Prop where
  no_ref : EachEntry (·.1 ≠ .text "$ref") v
  flat : ∀ es, Position v (.map es) → ∀ e ∈ es, FlatKey e

theorem Flattened.direct {s : Entries} (h : Flattened (.map s)) : Direct s where
  no_ref := h.no_ref
  no_composition es hes e he := (h.flat es hes e he).no_composition

theorem Flattened.of_no_map {v : Value} (h : EachEntry (·.1 ≠ .text "$ref") v) (hv : ∀ es, v ≠ .map es) :
    Flattened v where
  no_ref := h
  flat es hes := by
    cases hes with
    | root => exact absurd rfl (hv es)
    | inner => exact absurd rfl (hv _)

structure FlatEntry (e : Scalar × Value) : Prop extends FlatKey e where
  key : e.1 ≠ .text "$ref"
  no_ref : EachEntry (·.1 ≠ .text "$ref") e.2
  held : ∀ v, Holds e v → Flattened v

theorem flattened_map_iff {es : Entries} : Flattened (.map es) ↔ ∀ e ∈ es, FlatEntry e := by
  constructor
  · intro h e he
    have hr := EachEntry.map_iff.mp h.no_ref e he
    refine ⟨h.flat es .root e he, hr.1, hr.2, fun v hv => ⟨?_, fun fs hfs => h.flat fs (.inner he hv hfs)⟩⟩
    cases hv with
    | property hp => exact hr.2.part (.of_entry hp)
    | single _ => exact hr.2
    | choice _ hv => exact hr.2.part (.of_item hv)
  · refine fun h => ⟨EachEntry.map_iff.mpr fun e he => ⟨(h e he).key, (h e he).no_ref⟩, fun fs hfs => ?_⟩
    cases hfs with
    | root => exact fun e he => (h e he).toFlatKey
    | inner he hv hfs => exact ((h _ he).held _ hv).flat fs hfs

/-! ## Entries -/

theorem spelled_text (s : String) : Spelled (.text s) := fun _ _ h => congrArg _ (Option.some.inj h)

/-- A key under which no schema stands is of no account. -/
theorem FlatEntry.of_other {name : String} {v : Value} (hname : name ∉ words)
    (hv : EachEntry (·.1 ≠ .text "$ref") v) : FlatEntry (.text name, v) where
  no_composition h := hname (by cases h; decide)
  properties h := absurd (by cases h; decide) hname
  spelled := spelled_text name
  key h := hname (by cases h; decide)
  no_ref := hv
  held w hw := by
    have hwords : ∀ place ∈ schemaPlaces, place ∈ words := by decide
    exact absurd (hwords name hw.place) hname

theorem FlatEntry.of_properties {ps : Entries} (h : ∀ p ∈ ps, p.1 ≠ .text "$ref" ∧ Flattened p.2) :
    FlatEntry (.text "properties", .map ps) where
  no_composition := by simp
  properties _ := ⟨ps, rfl⟩
  spelled := spelled_text _
  key := by simp
  no_ref := EachEntry.map_iff.mpr fun p hp => ⟨(h p hp).1, (h p hp).2.no_ref⟩
  held v hv := by
    cases hv with
    | property hp => exact (h _ hp).2
    | single h => exact absurd h (by decide)

theorem FlatEntry.declared {v : Value} (h : FlatEntry (.text "properties", v)) :
    ∃ ps, v = .map ps ∧ ∀ p ∈ ps, p.1 ≠ .text "$ref" ∧ Flattened p.2 := by
  obtain ⟨ps, rfl⟩ := h.properties rfl
  exact ⟨ps, rfl, fun p hp => ⟨(EachEntry.map_iff.mp h.no_ref p hp).1, h.held _ (.property hp)⟩⟩

theorem elements_each {P : Scalar × Value → Prop} {v : Value} (h : EachEntry P v) :
    Gives v.elements (fun vs => ∀ w ∈ vs, EachEntry P w) :=
  v.elements_within.mono fun vs hvs w hw => by
    rcases hvs w hw with hw | ⟨s, rfl⟩
    · exact h.part hw
    · exact .of_scalar s

theorem Settled.no_ref {v : Value} (h : Settled v) : EachEntry (·.1 ≠ .text "$ref") v :=
  EachEntry.imp h fun _ he => he.no_ref

section
variable {k : Scalar} {v : Value} (hk : SettledEntry (k, v)) (hno : k ≠ .text "allOf")
include hk hno

/-- An entry that keeps its value is flat if no schema stands under it. -/
theorem FlatEntry.unchanged (hv : Settled v) (hh : ∀ w, ¬ Holds (k, v) w) : FlatEntry (k, v) where
  no_composition := hno
  properties := hk.properties
  spelled := hk.spelled
  key := hk.no_ref
  no_ref := hv.no_ref
  held w hw := absurd hw (hh w)

theorem FlatEntry.of_single (hs : isOneOf schemaKeys k = true) {w : Value} (hw : Flattened w) :
    FlatEntry (k, w) where
  no_composition := hno
  properties h := by
    obtain rfl : k = .text "properties" := h
    exact absurd hs (by decide)
  spelled := hk.spelled
  key := hk.no_ref
  no_ref := hw.no_ref
  held u hu := by
    cases hu with
    | property _ => exact absurd hs (by decide)
    | single _ => exact hw
    | choice h _ => rcases List.mem_cons.mp h with rfl | h
                    · exact absurd hs (by decide)
                    · obtain rfl := List.mem_singleton.mp h
                      exact absurd hs (by decide)

end

theorem FlatEntry.of_choice {vs ws : List Value} {k : Scalar} (hk : SettledEntry (k, .list vs))
    (hno : k ≠ .text "allOf") (hl : isOneOf schemaListKeys k = true) (hws : ∀ w ∈ ws, Flattened w) :
    FlatEntry (k, .list ws) where
  no_composition := hno
  properties h := by
    obtain ⟨ps, hps⟩ := hk.properties h
    cases hps
  spelled := hk.spelled
  key := hk.no_ref
  no_ref := EachEntry.list_iff.mpr fun w hw => (hws w hw).no_ref
  held u hu := by
    cases hu with
    | single h =>
      have hapart : ∀ name ∈ schemaKeys, name ∉ schemaListKeys := by decide
      exact absurd (Law.isOneOf_text.mp hl) (hapart _ h)
    | choice _ hu => exact hws _ hu

/-! ## Flattening -/

def directLaw : Law where
  before := Settled
  given e := SettledEntry e ∧ Settled e.2
  after := Flattened
  entry := FlatEntry
  property p := p.1 ≠ .text "$ref" ∧ Flattened p.2
  name := EachEntry (·.1 ≠ .text "$ref")
  items h := EachEntry.list_iff.mp h
  entries h := EachEntry.map_iff.mp h
  value h := h.2
  other h := .of_no_map h.no_ref
  map := flattened_map_iff
  unchanged h hno := .unchanged h.1 hno h.2
  single h hno hs hw := .of_single h.1 hno hs hw
  choice h hno hl hws := .of_choice h.1 hno hl hws
  member h hw := ⟨h.1.no_ref, hw⟩
  properties := .of_properties
  declared h := by
    obtain ⟨ps, rfl, hps⟩ := h.declared
    exact .ok hps
  put h h' := ⟨h.1, h'.2⟩
  required h := .of_other (by decide) (EachEntry.list_iff.mpr h)
  names h := elements_each h.no_ref
  object := .of_other (by decide) (.of_scalar _)

theorem flatten_flattened {v : Value} (h : Settled v) : Gives (flatten v) Flattened := directLaw.flatten_after h

end ToolServer.Schema
