import ToolServer.Emit.Python
import ToolServer.Emit.TypeScript
import ToolServer.Proofs.Emit.Identifier
import ToolServer.Proofs.Tool.Gather

/-!
# Rebuilt bodies

Where the fields of a body are inputs of their own, both programs put the body together again from the
inputs that go nowhere else. So a field is sent in the body unless a parameter has its name.
-/

namespace ToolServer.Emit

open Document Api
open Inputs (inputName)

/-- The inputs are what has an identifier. -/
theorem isSome_lookup_inputIdentifiers (functionName : String) (s : InputSchema) (name : String) :
    ((Python.inputIdentifiers functionName s).lookup name).isSome = (s.properties.map (·.1)).contains name := by
  unfold Python.inputIdentifiers
  rw [Bool.eq_iff_iff, Ordered.lookup_eq_get?, Option.isSome_iff_exists, ← Ordered.contains_iff,
    Ordered.contains_ofPairs, names_identifiersFrom, List.contains_iff_mem]

theorem lookup_inputIdentifiers {s : InputSchema} {name : String} (h : name ∈ s.properties.map (·.1))
    (functionName : String) : ∃ ident, (Python.inputIdentifiers functionName s).lookup name = some ident :=
  Option.isSome_iff_exists.mp
    ((isSome_lookup_inputIdentifiers functionName s name).trans (List.contains_iff_mem.mpr h))

def bodyInputs (t : Tool) : List String :=
  (t.inputSchema.properties.map (·.1)).filter (!t.handler.claimed.contains ·)

theorem mem_bodyInputs {t : Tool} {name : String} : name ∈ bodyInputs t ↔
    name ∈ t.inputSchema.properties.map (·.1) ∧ name ∉ t.handler.claimed := by
  rw [bodyInputs, List.mem_filter]
  simp

def Python.rebuilding (idents : List (String × String)) (names : List String) : String :=
  "body=_compact(" ++ braced (inputEntries idents id names) ++ ")"

/-- The lines that send what some names leave of the inputs as the body. -/
def TypeScript.rebuilding (method : String) (excluded : List String) : List String := [
  "      const excluded: string[] = [" ++ ", ".intercalate (excluded.map scriptString) ++ "];",
  "      const body = Object.fromEntries(",
  "        Object.entries(params).filter(([k, v]) => !excluded.includes(k) && v !== undefined)",
  "      );",
  "      const result = await apiRequest(\x7b",
  "        method: " ++ scriptString method ++ ",",
  "        url: fullUrl,",
  "        body: body,"]

section
variable {t : Tool} (h : t.handler.bodyParam = some bodyObject)
include h

theorem python_rebuilds (idents : List (String × String)) :
    Python.rebuilding idents (bodyInputs t) ∈ Python.arguments idents t := by
  have hbody : Python.bodyArgument idents t.inputSchema t.handler = [Python.rebuilding idents (bodyInputs t)] := by
    unfold Python.bodyArgument
    rw [h]
    rfl
  unfold Python.arguments
  simp [hbody]

theorem script_rebuilds :
    TypeScript.rebuilding (Text.upper t.handler.method) t.handler.claimed <:+: TypeScript.handlerLines t.handler := by
  have hbody : TypeScript.bodyParts t.handler =
      ((TypeScript.rebuilding (Text.upper t.handler.method) t.handler.claimed).take 4, some "body") := by
    unfold TypeScript.bodyParts
    rw [h]
    rfl
  unfold TypeScript.handlerLines
  rw [hbody]
  simp only [List.append_assoc]
  -- before these lines stand the address and the query, behind them the headers
  refine .trans ?_ (List.suffix_append ..).isInfix
  refine .trans ?_ (List.suffix_append ..).isInfix
  exact ⟨[], _, rfl⟩

end

structure SentInBody (t : Tool) (name : String) : Prop where
  taken : name ∈ t.inputSchema.properties.map (·.1)
  python : ∀ functionName, ∃ ident names,
    (Python.inputIdentifiers functionName t.inputSchema).lookup name = some ident ∧
    Python.entry name ident ∈ Python.inputEntries (Python.inputIdentifiers functionName t.inputSchema) id names ∧
    Python.rebuilding (Python.inputIdentifiers functionName t.inputSchema) names ∈
      Python.arguments (Python.inputIdentifiers functionName t.inputSchema) t
  script : ∃ excluded, name ∉ excluded ∧
    TypeScript.rebuilding (Text.upper t.handler.method) excluded <:+: TypeScript.handlerLines t.handler

theorem sentInBody_of_mem {t : Tool} (h : t.handler.bodyParam = some bodyObject) {name : String}
    (hname : name ∈ bodyInputs t) : SentInBody t name := by
  obtain ⟨htaken, hfree⟩ := mem_bodyInputs.mp hname
  refine ⟨htaken, fun functionName => ?_, t.handler.claimed, hfree, script_rebuilds h⟩
  obtain ⟨ident, hident⟩ := lookup_inputIdentifiers htaken functionName
  refine ⟨ident, bodyInputs t, hident, List.mem_filterMap.mpr ⟨name, hname, ?_⟩, python_rebuilds h _⟩
  rw [hident]
  rfl

/-- **The fields of a body are sent in it, but for those with the name of a parameter.** -/
theorem body_fields_sent {d : Description} {e : Endpoint} {t : Tool} {body : RequestBody}
    (h : MappedFrom d e t) (hbody : e.requestBody = some body)
    (hhoisted : t.handler.bodyParam = some bodyObject) : ∀ name ∈ body.fields,
      (name ∈ t.handler.claimed ↔
        ∃ p ∈ e.parameters, p.location ∈ ["path", "query", "header"] ∧ inputName p = name) ∧
      (name ∉ t.handler.claimed → SentInBody t name) := by
  intro name hname
  have hfrom : TakesFrom e t := h.takesFrom
  refine ⟨hfrom.mem_claimed name, fun hfree => sentInBody_of_mem hhoisted (mem_bodyInputs.mpr ⟨?_, hfree⟩)⟩
  have hwhole : body.hoisted = true := by
    rw [hfrom.body, hbody] at hhoisted
    by_contra hwhole
    simp [hwhole, bodyObject] at hhoisted
  rw [hfrom.keys name, Endpoint.inputNames, hbody]
  refine List.mem_append_right _ ?_
  simpa [RequestBody.inputNames, hwhole] using hname

def updateBody : RequestBody where
  description := none
  required := false
  contentType := "application/json"
  schema := [(.text "properties", .map [(.text "id", .map []), (.text "name", .map [])])]

def updatePet : Endpoint where
  path := "/pets/\x7bid\x7d"
  method := "put"
  operationId := none
  summary := none
  description := none
  tags := []
  parameters := [⟨"id", "path", none, true, [(.text "type", .text "string")], .null⟩]
  requestBody := some updateBody
  responses := []
  security := []
  deprecated := false

def updateServer : Description where
  title := "Pets"
  description := ""
  version := "1"
  baseUrl := "https://pets.example"
  servers := []
  endpoints := [updatePet]
  schemes := []
  schemas := []

def updateTool : Tool where
  name := "update_pets_by_id"
  description := "Update pets"
  inputSchema := { properties := [("id", { type := "string" }), ("name", { type := "string" })], required := ["id"] }
  handler := {
    method := "PUT"
    path := "/pets/\x7bid\x7d"
    baseUrl := "https://pets.example"
    baseUrlEnvVar := none
    contentType := "application/json"
    pathParams := ["id"]
    queryParams := []
    headerParams := []
    bodyParam := some bodyObject
    auth := [] }
  source := ⟨"/pets/\x7bid\x7d", "put", none⟩
  enabled := true

theorem toolOf_updatePet : toolOf updateServer updatePet = .ok updateTool := rfl

theorem body_fields_sent_update : MappedFrom updateServer updatePet updateTool ∧
    updatePet.requestBody = some updateBody ∧ updateTool.handler.bodyParam = some bodyObject ∧
    "name" ∈ updateBody.fields ∧ SentInBody updateTool "name" := by
  have hmapped : MappedFrom updateServer updatePet updateTool := ⟨updateTool, toolOf_updatePet, rfl⟩
  have hname : "name" ∈ updateBody.fields := by decide +kernel
  have hsent := (body_fields_sent hmapped rfl rfl "name" hname).2
  exact ⟨hmapped, rfl, rfl, hname, hsent (by decide)⟩

/-- A field with the name of a parameter is left out of the body. -/
theorem shared_field_left_out : toolOf updateServer updatePet = .ok updateTool ∧
    updatePet.requestBody = some updateBody ∧ updateTool.handler.bodyParam = some bodyObject ∧
    "id" ∈ updateBody.fields ∧ "id" ∈ updateTool.handler.claimed ∧
    Python.bodyArgument (Python.inputIdentifiers "update_pets_by_id" updateTool.inputSchema) updateTool.inputSchema
      updateTool.handler = ["body=_compact(\x7b\"name\": name\x7d)"] ∧
    (TypeScript.bodyParts updateTool.handler).1.head? = some "      const excluded: string[] = ['id'];" := by
  refine ⟨toolOf_updatePet, rfl, rfl, ?_, ?_, ?_, ?_⟩
  · decide +kernel
  · decide
  · decide +kernel
  · decide +kernel

end ToolServer.Emit
