import ToolServer.Proofs.Api.Fit
import ToolServer.Proofs.Tool.Gather
import ToolServer.Tool.Property

/-!
# Tools of JSON documents

A tool server is plain if what it holds besides texts is finite data and no map in it has a key twice. That of a
description of JSON data is plain.
-/

namespace ToolServer

open Document Schema Api
open Json (FiniteData)

/-! ## Inputs -/

inductive PlainLimit : Scalar → Prop
  | bool (b) : PlainLimit (.bool b)
  | int (n) : PlainLimit (.int n)
  | real {x} : x.Finite → PlainLimit (.real x)

namespace Property

structure PlainParts (p : Property) : Prop where
  enum : ∀ vs, p.enum = some vs → ∀ v ∈ vs, FiniteData v
  default : FiniteData p.default
  required : ∀ vs, p.required = some vs → ∀ v ∈ vs, ∃ s, v = .text s
  minimum : ∀ s, p.minimum = some s → PlainLimit s
  maximum : ∀ s, p.maximum = some s → PlainLimit s

inductive Plain : Property → Prop
  | intro {p : Property} : PlainParts p → (∀ q, p.items = some q → Plain q) →
      (∀ qs, p.properties = some qs → Ordered.Distinct qs) →
      (∀ qs, p.properties = some qs → ∀ q ∈ qs, Plain q.2) → Plain p

/-! ## Inputs from schemas -/

theorem plainLimit_of_numberOf? {v : Value} {s : Scalar} (hv : FiniteData v) (h : numberOf? v = some s) :
    PlainLimit s := by
  cases hv with
  | bool b => cases h; exact .bool b
  | @int n _ => cases h; exact .int n
  | real hx => cases h; exact .real hx
  | _ => cases h

section
variable {schema : Entries} (h : ∀ e ∈ schema, FitEntry e)
include h

theorem data_get (name : String) (hname : name ∉ schemaPlaces) : FiniteData (Entries.get schema name) := by
  unfold Entries.get
  cases hv : Entries.get? schema name with
  | none => exact .null
  | some v => exact (h _ (Entries.mem_of_get? hv)).data fun place hplace he => hname (Scalar.text.inj he ▸ hplace)

theorem data_enum {vs : List Value} (hvs : enumValues? schema = some vs) : ∀ v ∈ vs, FiniteData v := by
  have hdata : FiniteData (Entries.get schema "enum") := data_get h "enum" (by decide)
  unfold enumValues? at hvs
  unfold Entries.get at hdata
  split at hvs
  · rename_i v rest henum
    cases hvs
    rw [henum] at hdata
    cases hdata with
    | list hvs => exact hvs
  · cases hvs

theorem plainParts_base (description : Option String) : PlainParts (base description schema) where
  enum _ hvs := data_enum h hvs
  default := data_get h "default" (by decide)
  required vs hvs := by cases hvs
  minimum _ hs := plainLimit_of_numberOf? (data_get h "minimum" (by decide)) hs
  maximum _ hs := plainLimit_of_numberOf? (data_get h "maximum" (by decide)) hs

theorem requiredOf_texts : Gives (requiredOf schema) (fun o => ∀ vs, o = some vs → ∀ v ∈ vs, ∃ s, v = .text s) := by
  unfold requiredOf Entries.get
  dsimp only
  cases hv : Entries.get? schema "required" with
  | none => exact .ok fun vs hvs => by cases hvs
  | some v =>
    split
    · refine (h _ (Entries.mem_of_get? hv)).names.map fun ws hws vs hvs => ?_
      cases hvs
      exact hws
    · exact .ok fun vs hvs => by cases hvs

end

theorem PlainParts.plain {p : Property} (h : PlainParts p) (hitems : p.items = none)
    (hproperties : p.properties = none) : Plain p := by
  refine .intro h (fun q hq => ?_) (fun qs hqs => ?_) fun qs hqs => ?_
  · rw [hitems] at hq
    cases hq
  · rw [hproperties] at hqs
    cases hqs
  · rw [hproperties] at hqs
    cases hqs

theorem ofValue_empty (description : Option String) :
    Gives (.ok (base description []) : Except Fault Property) Plain :=
  .ok ((plainParts_base (fun e he => by cases he) description).plain rfl rfl)

mutual
theorem ofValue_plain (description : Option String) : ∀ {v : Value}, Fit v → Gives (ofValue description v) Plain
  | .map schema, hv => by
    have hes : ∀ e ∈ schema, FitEntry e := fit_map_iff.mp hv
    have hbase : PlainParts (base description schema) := plainParts_base hes description
    unfold ofValue
    dsimp only
    split
    · refine (itemsIn_plain hes).bind fun o ho => .ok (.intro ⟨hbase.enum, hbase.default, hbase.required,
        hbase.minimum, hbase.maximum⟩ ho (fun qs hqs => by cases hqs) fun qs hqs => by cases hqs)
    · refine (propertiesIn_plain hes).bind fun o ho => ?_
      split
      · rename_i ps
        obtain ⟨hdistinct, hps⟩ := ho ps rfl
        refine (requiredOf_texts hes).bind fun r hr => .ok (.intro ⟨hbase.enum, hbase.default, hr, hbase.minimum,
          hbase.maximum⟩ (fun q hq => by cases hq) (fun qs hqs => ?_) fun qs hqs => ?_)
        · cases hqs
          exact hdistinct
        · cases hqs
          exact hps
      · exact .ok (hbase.plain rfl rfl)
    · exact .ok (hbase.plain rfl rfl)
  | .scalar _, _ => ofValue_empty description
  | .list _, _ => ofValue_empty description
  | .set _, _ => ofValue_empty description
  | .pair .., _ => ofValue_empty description

theorem itemsIn_plain : ∀ {es : List (Scalar × Value)}, (∀ e ∈ es, FitEntry e) →
    Gives (itemsIn es) (fun o => ∀ q, o = some q → Plain q)
  | [], _ => .ok fun q hq => by cases hq
  | (k, v) :: es, h => by
    obtain ⟨hkv, h⟩ := List.forall_mem_cons.mp h
    unfold itemsIn
    split
    · rename_i hk
      obtain rfl := Scalar.beq_text_iff.mp hk
      split
      · refine (ofValue_plain none (hkv.held _ (.single (by decide)))).bind fun p hp => .ok fun q hq => ?_
        cases hq
        exact hp
      · exact .ok fun q hq => by cases hq
    · exact itemsIn_plain h

theorem propertiesIn_plain : ∀ {es : List (Scalar × Value)}, (∀ e ∈ es, FitEntry e) →
    Gives (propertiesIn es) (fun o => ∀ qs, o = some qs → Ordered.Distinct qs ∧ ∀ q ∈ qs, Plain q.2)
  | [], _ => .ok fun qs hqs => by cases hqs
  | (k, v) :: es, h => by
    obtain ⟨hkv, h⟩ := List.forall_mem_cons.mp h
    unfold propertiesIn
    split
    · rename_i hk
      obtain rfl := Scalar.beq_text_iff.mp hk
      split
      · rename_i members
        have hmembers : ∀ m ∈ members, Fit m.2 := fun m hm => hkv.held _ (.property hm)
        refine (membersOf_plain hmembers).bind fun ps hps => .ok fun qs hqs => ?_
        cases hqs
        exact ⟨Ordered.distinct_ofPairs ps, fun q hq =>
          hps q (Ordered.mem_of_ofPairs hq)⟩
      · exact .ok fun qs hqs => by cases hqs
    · exact propertiesIn_plain h

theorem membersOf_plain : ∀ {ms : List (Scalar × Value)}, (∀ m ∈ ms, Fit m.2) →
    Gives (membersOf ms) (fun ps => ∀ p ∈ ps, Plain p.2)
  | [], _ => .ok fun p hp => by cases hp
  | (k, v) :: ms, h => by
    obtain ⟨hv, h⟩ := List.forall_mem_cons.mp h
    unfold membersOf
    exact (ofValue_plain none hv).bind fun p hp => (membersOf_plain h).bind fun ps hps =>
      .ok (List.forall_mem_cons.mpr ⟨hp, hps⟩)
end

end Property

/-! ## Tools -/

structure Tool.Plain (t : Tool) : Prop where
  properties : ∀ p ∈ t.inputSchema.properties, p.2.Plain
  distinct : Ordered.Distinct t.inputSchema.properties
  flows : ∀ a ∈ t.handler.auth, ∀ fs, a.scheme.flows = some fs → FiniteData (.map fs)

def Config.Plain (c : Config) : Prop := ∀ t ∈ c.tools, t.Plain

theorem fit_inputSchemas {e : Endpoint} (h : ∀ s ∈ e.schemas, Schema.Fit (.map s)) :
    ∀ v ∈ e.inputSchemas, Schema.Fit v :=
  inputSchemas_each h fun _ _ hfit hproperties _ hfield =>
    (fit_map_iff.mp hfit _ (Entries.mem_of_get? hproperties)).held _ (.property hfield)

theorem gather_plain {e : Endpoint} (h : ∀ s ∈ e.schemas, Schema.Fit (.map s)) :
    Gives (gather e) (Inputs.Each Property.Plain) :=
  gather_each fun v hv description => Property.ofValue_plain description (fit_inputSchemas h v hv)

theorem authFor_scheme {schemes : List Scheme} : ∀ {requirements : List Requirement} {seen : List String},
    ∀ a ∈ authFor schemes seen requirements, a.scheme ∈ schemes
  | [], _, a, ha => by cases ha
  | r :: rest, seen, a, ha => by
    unfold authFor at ha
    split at ha
    · rename_i s hs
      have hmem : s ∈ schemes := List.mem_reverse.mp (List.mem_of_find?_eq_some hs)
      split at ha
      · exact authFor_scheme a ha
      · rcases List.mem_cons.mp ha with rfl | ha
        · exact hmem
        · exact authFor_scheme a ha
    · exact authFor_scheme a ha

section
variable {d : Description} (h : d.Fit)
include h

theorem toolOf_plain {e : Endpoint} (he : e ∈ d.endpoints) : Gives (toolOf d e) Tool.Plain := by
  have hschemas : ∀ s ∈ e.schemas, Schema.Fit (.map s) := fun s hs =>
    h.schemas s (List.mem_append_right _ (List.mem_flatMap.mpr ⟨e, he, hs⟩))
  unfold toolOf
  refine (gather_plain hschemas).bind fun i hi => ?_
  refine Gives.any fun required => .ok ?_
  exact ⟨hi.properties, hi.distinct, fun a ha => h.flows _ (authFor_scheme a ha)⟩

theorem ofDescription_plain : Gives (Config.ofDescription d) Config.Plain := by
  refine (mapped_ofDescription d).mono fun c hc t ht => ?_
  obtain ⟨e, he, u, hu, heq⟩ := exists_of_forall₂ hc t ht
  have hplain : u.Plain := toolOf_plain h (List.mem_of_mem_filter he) u hu
  rw [heq]
  exact ⟨hplain.properties, hplain.distinct, hplain.flows⟩

end

end ToolServer
