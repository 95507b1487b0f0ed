import ToolServer.Proofs.Api.Operations
import ToolServer.Proofs.Document.Within
import ToolServer.Proofs.Reference.Related

/-!
# Stages of reading

A node of a document is resolved, a schema among what it is resolved to is flattened, and a flattened schema
is checked and stored. Where each of these steps leads from one stage to the next, every schema of a
description is at the last stage.
-/

namespace ToolServer.Api

open Document
open Reference (Remembers)

/-- What holds of the nodes of a document, of what they are resolved to, of flattened and of stored schemas,
and of the plain data that a record holds. -/
structure Stages (root : Value) where
  node : Value → Prop
  found : Value → Prop
  flat : Entries → Prop
  stored : Entries → Prop
  held : Entries → Prop
  resolves : Value → Value → Prop
  null : node .null
  none : node (.list [])
  nothing : node noEntries
  part {v w} : node v → Within v w → node w
  elements {v} : node v → Gives v.elements (fun vs => ∀ w ∈ vs, node w)
  closed : Reference.Closed root resolves
  resolve {v w} : node v → resolves v w → found w
  again {v} : found v → node v
  flatten {v} : found v → Gives (Schema.flatten v) (fun w => ∀ es, w = .map es → flat es)
  object : flat objectSchema
  text : flat [(.text "type", .text "string")]
  store {s t} : flat s → textKeyed? s = some t → stored t
  hold {s t} : node (.map s) → textKeyed? s = some t → held t

section
variable {root : Value} (S : Stages root)

/-! ## Parts of nodes -/

theorem node_get {es : Entries} (h : S.node (.map es)) (name : String) : S.node (Entries.get es name) := by
  unfold Entries.get
  cases hv : Entries.get? es name with
  | none => exact S.null
  | some v => exact S.part h (.of_entry (Entries.mem_of_get? hv))

theorem node_orElse {v d : Value} (h : S.node v) (hd : S.node d) : S.node (orElse v d) := by
  unfold orElse
  split
  · exact h
  · exact hd

theorem node_elementsOr {v : Value} (h : S.node v) : Gives (elementsOr v) (fun vs => ∀ w ∈ vs, S.node w) :=
  S.elements (node_orElse S h S.none)

theorem node_membersOr {v : Value} (h : S.node v) : Gives (membersOr v) (fun es => S.node (.map es)) := by
  intro es hes
  have hnode : S.node (orElse v noEntries) := node_orElse S h S.nothing
  rwa [members_gives _ es hes] at hnode

/-! ## Schemas -/

abbrev Steps {α : Type} (x : Work α) (P : α → Prop) : Prop := Keeps (Remembers root S.resolves) x P

theorem Steps.any {α : Type} (x : Except Fault α) : Steps S (plainly x) (fun _ => True) :=
  .plainly fun _ _ => trivial

theorem resolved_steps {v : Value} (hv : S.node v) : Steps S (resolved root v) S.found := by
  intro m hm
  obtain ⟨hw, hm'⟩ := Reference.resolveIn_related S.closed (Reference.maxDepth + 1) v m hm
  exact ⟨hm', .ok (S.resolve hv hw)⟩

theorem schemaOf_steps {v : Value} (hv : S.node v) : Steps S (schemaOf root v) S.flat := by
  unfold schemaOf
  split
  · refine (resolved_steps S hv).bind fun w hw => (Keeps.plainly (S.flatten hw)).bind fun s hs => ?_
    split
    · exact .pure (hs _ rfl)
    · exact .pure S.object
  · exact .pure S.object

theorem contentSchema_steps {media : Value} (hm : S.node media) : Steps S (contentSchema root media) S.flat := by
  have h : S.node (orElse media noEntries) := node_orElse S hm S.nothing
  unfold contentSchema
  split
  · rename_i es hes
    rw [hes] at h
    split
    · rename_i v hv
      exact schemaOf_steps S (S.part h (.of_entry (Entries.mem_of_get? hv)))
    · exact .pure S.text
  · refine (Steps.any S _).bind fun b _ => ?_
    split
    · exact .plainly (.error _)
    · exact .pure S.text

theorem parameterSchema_steps {p : Entries} (hp : S.node (.map p)) : Steps S (parameterSchema root p) S.flat := by
  unfold parameterSchema
  split
  · rename_i v hv
    exact schemaOf_steps S (S.part hp (.of_entry (Entries.mem_of_get? hv)))
  · split
    · rename_i k media rest hc
      have h : S.node (Entries.get p "content") := node_get S hp "content"
      rw [hc] at h
      exact contentSchema_steps S (S.part h (.of_entry (e := (k, media)) (List.mem_cons_self ..)))
    · exact .pure S.text

theorem checked_stored {s : Entries} (hs : S.flat s) (record : RecordKind) :
    Gives (checked record (textKeyed? s)) S.stored :=
  (checked_gives record _).mono fun _ ht => S.store hs ht

/-! ## Parameters, bodies and responses -/

theorem parameterOf_steps {raw : Value} (hraw : S.node raw) :
    Steps S (parameterOf root raw) (fun o => ∀ p, o = some p → S.stored p.schema) := by
  unfold parameterOf
  refine (resolved_steps S hraw).bind fun w hw => ?_
  split
  · rename_i p
    simp only
    split
    · exact .pure fun p h => by cases h
    · refine (parameterSchema_steps S (S.again hw)).bind fun s hs =>
        (Keeps.plainly (checked_stored S hs _)).bind fun t ht => .pure fun p h => ?_
      cases h
      exact ht
  · exact .pure fun p h => by cases h

theorem parametersOf_steps {raw : Value} (hraw : S.node raw) :
    Steps S (parametersOf root raw) (fun ps => ∀ p ∈ ps, S.stored p.schema) :=
  (Keeps.plainly (node_elementsOr S hraw)).bind fun _ hvs => .collect fun v hv => parameterOf_steps S (hvs v hv)

theorem requestBodyOf_steps {raw : Value} (hraw : S.node raw) :
    Steps S (requestBodyOf root raw) (fun o => ∀ b, o = some b → S.stored b.schema) := by
  unfold requestBodyOf
  refine (resolved_steps S hraw).bind fun w hw => ?_
  split
  · rename_i body
    have hcontent : S.node (orElse (Entries.get body "content") noEntries) :=
      node_orElse S (node_get S (S.again hw) "content") S.nothing
    refine (Steps.any S _).bind fun _ _ => (Keeps.plainly (members_gives _)).bind fun es hes => ?_
    rw [hes] at hcontent
    refine (Keeps.plainly (P := fun media => S.node (.map media)) ?_).bind fun media hm =>
      (schemaOf_steps S (node_orElse S (node_get S hm "schema") S.nothing)).bind fun s hs =>
        (Keeps.plainly (checked_stored S hs _)).bind fun t ht => ?_
    · cases es with
      | nil => exact node_membersOr S S.null
      | cons e rest => exact node_membersOr S (S.part hcontent (.of_entry (List.mem_cons_self ..)))
    · refine .pure fun b h => ?_
      cases h
      exact ht
  · exact .pure fun b h => by cases h

theorem responseOf_steps {e : Scalar × Value} (he : S.node e.2) : Steps S (responseOf root e)
    (fun o => ∀ r, o = some r → ∀ s, r.2.schema = some s → S.stored s) := by
  unfold responseOf
  refine (resolved_steps S he).bind fun w hw => ?_
  split
  · rename_i r
    have hcontent : S.node (orElse (Entries.get r "content") noEntries) :=
      node_orElse S (node_get S (S.again hw) "content") S.nothing
    refine (Steps.any S _).bind fun _ _ => ?_
    simp only
    split
    · refine .pure fun r h s hs => ?_
      cases h
      cases hs
    · rename_i name _
      refine (Keeps.plainly (members_gives _)).bind fun es hes => ?_
      rw [hes] at hcontent
      refine (Keeps.plainly (node_membersOr S (node_get S hcontent name))).bind fun media hm =>
        (schemaOf_steps S (node_orElse S (node_get S hm "schema") S.nothing)).bind fun s hs =>
          (Keeps.plainly (checked_stored S hs _)).bind fun t ht => .pure fun r h s hs => ?_
      cases h
      cases hs
      exact ht
  · exact .pure fun r h => by cases h

theorem responsesOf_steps {raw : Value} (hraw : S.node raw) :
    Steps S (responsesOf root raw) (fun rs => ∀ r ∈ rs, ∀ s, r.2.schema = some s → S.stored s) :=
  (Keeps.plainly (node_membersOr S hraw)).bind fun _ hes =>
    (Keeps.collect fun _ he => responseOf_steps S (S.part hes (.of_entry he))).bind fun _ hrs =>
      .pure fun r hr => hrs r (Ordered.mem_of_ofPairs hr)

end

/-! ## Descriptions -/

def Endpoint.schemas (e : Endpoint) : List Entries :=
  e.parameters.map (·.schema) ++ (e.requestBody.map (·.schema)).toList ++ e.responses.filterMap (·.2.schema)

def Description.allSchemas (d : Description) : List Entries :=
  d.schemas.map (·.2) ++ d.endpoints.flatMap Endpoint.schemas

/-- All schemas of a description are stored, and the flows of its schemes held. -/
structure Stages.Stocks {root : Value} (S : Stages root) (d : Description) : Prop where
  schemas : ∀ s ∈ d.allSchemas, S.stored s
  flows : ∀ s ∈ d.schemes, ∀ fs, s.flows = some fs → S.held fs

section
variable {doc : Entries} (S : Stages (.map doc))

theorem endpointOf_steps (path method : String) {ofPath : List Parameter}
    (hpath : ∀ p ∈ ofPath, S.stored p.schema) {o : Entries} (ho : S.node (.map o)) :
    Steps S (endpointOf doc path method ofPath o) (fun e => ∀ s ∈ e.schemas, S.stored s) := by
  unfold endpointOf
  refine (parametersOf_steps S (node_get S ho "parameters")).bind fun ps hps => ?_
  refine Keeps.ite_bind (P := fun b : Option RequestBody => ∀ r, b = some r → S.stored r.schema)
    (requestBodyOf_steps S (node_get S ho "requestBody")) (.pure fun r h => by cases h) fun b hb => ?_
  refine (Steps.any S _).bind fun _ _ => (responsesOf_steps S (node_get S ho "responses")).bind fun rs hrs =>
    (Steps.any S _).bind fun _ _ => .pure fun s hs => ?_
  rcases List.mem_append.mp hs with hs | hs
  · rcases List.mem_append.mp hs with hs | hs
    · obtain ⟨p, hp, rfl⟩ := List.mem_map.mp hs
      exact (mem_mergeParameters hp).elim (hpath p) (hps p)
    · obtain ⟨r, hr, rfl⟩ := Option.map_eq_some_iff.mp (Option.mem_toList.mp hs)
      exact hb r hr
  · obtain ⟨r, hr, hs⟩ := List.mem_filterMap.mp hs
    exact hrs r hr s hs

theorem pathEndpoints_steps {e : Scalar × Value} (he : S.node e.2) :
    Steps S (pathEndpoints doc e) (fun es => ∀ e ∈ es, ∀ s ∈ e.schemas, S.stored s) := by
  unfold pathEndpoints
  refine (resolved_steps S he).bind fun w hw => ?_
  split
  · rename_i item
    have hitem : S.node (.map item) := S.again hw
    refine (parametersOf_steps S (node_get S hitem "parameters")).bind fun ps hps => .collect fun method _ => ?_
    split
    · rename_i o ho
      have h : S.node (Entries.get item method) := node_get S hitem method
      rw [ho] at h
      refine (endpointOf_steps S e.1.display method hps h).bind fun e he => .pure fun e' h => ?_
      cases h
      exact he
    · exact .pure fun e h => by cases h
  · exact .pure fun e h => by cases h

theorem schemeOf_held {d : Entries} (hd : S.node (.map d)) (name : String) :
    Gives (schemeOf name d) (fun s => ∀ fs, s.flows = some fs → S.held fs) := by
  unfold schemeOf
  simp only
  split
  · exact .ok fun fs h => by cases h
  · split
    · exact .ok fun fs h => by cases h
    · split
      · have hflows : S.node (Entries.get d "flows") := node_get S hd "flows"
        split
        · rename_i flows heq
          rw [heq] at hflows
          refine (checked_gives _ _).bind fun fs hfs => .ok fun fs' h => ?_
          cases h
          exact S.hold hflows hfs
        · exact .ok fun fs h => by cases h
      · split
        · exact .ok fun fs h => by cases h
        · exact .ok fun fs h => by cases h

theorem schemesOf_steps {raw : Entries} (hraw : S.node (.map raw)) : Steps S (schemesOf (.map doc) raw)
    (fun ss => ∀ s ∈ ss, ∀ fs, s.flows = some fs → S.held fs) := by
  refine Keeps.collect fun e he => (resolved_steps S (S.part hraw (.of_entry he))).bind fun w hw => ?_
  split
  · refine (Keeps.plainly (schemeOf_held S (S.again hw) _)).bind fun s hs => .pure fun s' h => ?_
    cases h
    exact hs
  · exact .pure fun s h => by cases h

theorem namedSchemas_steps {raw : Entries} (hraw : S.node (.map raw)) :
    Steps S (collect (namedSchema (.map doc)) raw) (fun ss => ∀ s ∈ ss, S.flat s.2) :=
  .collect fun e he => (schemaOf_steps S (S.part hraw (.of_entry he))).bind fun s hs => .pure fun t h => by
    cases h
    exact hs

theorem descriptionOf_steps (hdoc : S.node (.map doc)) {paths : Entries} (hpaths : S.node (.map paths)) :
    Steps S (descriptionOf doc paths) S.Stocks := by
  unfold descriptionOf
  have hall : Steps S (collect (fun entry => some <$> pathEndpoints doc entry) paths)
      (fun ess => ∀ es ∈ ess, ∀ e ∈ es, ∀ s ∈ e.schemas, S.stored s) :=
    .collect fun e he => (pathEndpoints_steps S (S.part hpaths (.of_entry he))).map_some
  refine (Steps.any S _).bind fun servers _ =>
    (Keeps.plainly (node_membersOr S (node_get S hdoc "components"))).bind fun components hc =>
    (Keeps.plainly (node_membersOr S (node_get S hc "securitySchemes"))).bind fun rawSchemes hraw =>
    (schemesOf_steps S hraw).bind fun schemes hschemes =>
    (Keeps.plainly (node_membersOr S (node_get S hc "schemas"))).bind fun rawSchemas hraw =>
    (namedSchemas_steps S hraw).bind fun schemas hschemas =>
    hall.bind fun endpoints hendpoints => (Steps.any S _).bind fun info _ =>
    (Keeps.plainly (checked_gives _ _)).bind fun stored hstored => .pure ⟨fun s h => ?_, hschemes⟩
  rcases List.mem_append.mp h with h | h
  · obtain ⟨t, ht, rfl⟩ := List.mem_map.mp h
    obtain ⟨s, hs, h⟩ := mem_of_mapM hstored t ht
    obtain ⟨es, hes, rfl⟩ := Option.map_eq_some_iff.mp h
    exact S.store (hschemas s (Ordered.mem_of_ofPairs hs)) hes
  · obtain ⟨e, he, hs⟩ := List.mem_flatMap.mp h
    obtain ⟨es, hes, he⟩ := List.mem_flatten.mp he
    exact hendpoints es hes e he s hs

end

/-! ## Documents -/

theorem checkDocument_node {root : Value} (S : Stages root) {doc : Entries} (h : S.node (.map doc)) :
    Gives (checkDocument doc) (fun paths => S.node (.map paths)) := by
  unfold checkDocument
  simp only
  split
  · exact .error _
  · split
    · rename_i paths hp
      exact .ok (S.part h (.of_entry (Entries.mem_of_get? hp)))
    · exact .ok S.nothing
    · exact .error _

/-- **Every schema of a description is at the last stage.** -/
theorem parseDocument_stocks {doc : Value} (S : Stages doc) (hdoc : S.node doc) {d : Description}
    {ws : List String} (h : (parseDocument doc).1 = .ok (.parsed d ws)) : S.Stocks d := by
  unfold parseDocument at h
  split at h
  · rename_i doc
    split at h
    · cases h
    · rename_i paths hpaths
      have hnode : S.node (.map paths) := checkDocument_node S hdoc paths hpaths
      obtain ⟨-, hd⟩ := descriptionOf_steps S hdoc hnode .empty Reference.remembers_empty
      split at h
      · rename_i d' m hrun
        cases h
        exact hd d (by rw [hrun])
      · cases h
  · cases h

end ToolServer.Api
