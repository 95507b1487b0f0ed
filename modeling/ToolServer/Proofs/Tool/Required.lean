import ToolServer.Proofs.Tool.Routes

/-!
# Required inputs

A tool takes over the required names of a hoisted body as they are, whether or not the body has a field of that
name. `required_undeclared_iff`: a tool has an input for every other name that it requires.
-/

namespace ToolServer

open Document Api
open Inputs (inputName)

def Api.Endpoint.Undeclared (e : Endpoint) (name : String) : Prop :=
  ∃ body, e.requestBody = some body ∧ body.hoisted = true ∧ (∃ v ∈ body.requiredNames, textOf? v = some name) ∧
    name ∉ body.fields ∧ ∀ p ∈ e.taken, inputName p ≠ name

section
variable {e : Endpoint} {body : RequestBody} {name : String} {v : Value}

theorem taken_of_required (hv : v ∈ (e.taken.filter (·.required)).map (.text <| inputName ·))
    (hname : textOf? v = some name) : name ∈ e.taken.map inputName := by
  obtain ⟨p, hp, rfl⟩ := List.mem_map.mp hv
  have hp' : p ∈ e.taken := List.mem_of_mem_filter hp
  have hsame : inputName p = name := Option.some.inj hname
  exact hsame ▸ List.mem_map_of_mem hp'

theorem inputNames_of_whole (hwhole : ¬ body.hoisted = true) (hv : v ∈ body.requiredNames)
    (hname : textOf? v = some name) : name ∈ body.inputNames := by
  rw [RequestBody.requiredNames, if_neg hwhole] at hv
  rw [RequestBody.inputNames, if_neg hwhole]
  split at hv
  · have hv : v = .text "body" := List.mem_singleton.mp hv
    subst hv
    have hsame : "body" = name := Option.some.inj hname
    exact hsame ▸ List.mem_singleton_self _
  · cases hv

theorem undeclared_iff : e.Undeclared name ↔
    (∃ v ∈ e.requiredNames, textOf? v = some name) ∧ name ∉ e.inputNames := by
  unfold Endpoint.requiredNames Endpoint.inputNames
  constructor
  · intro h
    obtain ⟨body, hbody, hhoisted, ⟨v, hv, hname⟩, hfield, hparameter⟩ := h
    have hfields : body.inputNames = body.fields := by rw [RequestBody.inputNames, if_pos hhoisted]
    constructor
    · refine ⟨v, List.mem_append_right _ ?_, hname⟩
      rw [hbody]
      exact hv
    · intro hmem
      rw [hbody] at hmem
      rcases List.mem_append.mp hmem with hmem | hmem
      · obtain ⟨p, hp, hsame⟩ := List.mem_map.mp hmem
        exact hparameter p hp hsame
      · have hmem : name ∈ body.inputNames := hmem
        rw [hfields] at hmem
        exact hfield hmem
  · intro h
    obtain ⟨⟨v, hv, hname⟩, hnone⟩ := h
    have hparameter : ∀ p ∈ e.taken, inputName p ≠ name := by
      intro p hp hsame
      exact hnone (List.mem_append_left _ (hsame ▸ List.mem_map_of_mem hp))
    rcases List.mem_append.mp hv with hv | hv
    · exact absurd (List.mem_append_left _ (taken_of_required hv hname)) hnone
    · cases hbody : e.requestBody with
      | none =>
        rw [hbody] at hv
        cases hv
      | some body =>
        rw [hbody] at hv hnone
        have hv : v ∈ body.requiredNames := hv
        have hnone : name ∉ body.inputNames := fun hmem => hnone (List.mem_append_right _ hmem)
        by_cases hhoisted : body.hoisted = true
        · rw [RequestBody.inputNames, if_pos hhoisted] at hnone
          exact ⟨body, hbody, hhoisted, ⟨v, hv, hname⟩, hnone, hparameter⟩
        · exact absurd (inputNames_of_whole hhoisted hv hname) hnone

end

theorem TakesFrom.undeclared_iff {e : Endpoint} {t : Tool} (h : TakesFrom e t) (name : String) :
    (name ∈ t.inputSchema.required ∧ name ∉ t.inputSchema.properties.map (·.1)) ↔ e.Undeclared name := by
  obtain ⟨vs, hlists, hts⟩ := h.required
  rw [ToolServer.undeclared_iff, mem_texts_iff hlists hts, h.keys]

/-- **A tool requires what it has no input for just where a hoisted body does.** -/
theorem required_undeclared_iff {d : Description} {c : Config} (h : Config.ofDescription d = .ok c) :
    List.Forall₂ (fun (e : Endpoint) t => ∀ name,
      (name ∈ t.inputSchema.required ∧ name ∉ t.inputSchema.properties.map (·.1)) ↔ e.Undeclared name)
      (d.endpoints.filter (!·.deprecated)) c.tools := by
  have hmapped : List.Forall₂ (MappedFrom d) (d.endpoints.filter (!·.deprecated)) c.tools :=
    mapped_ofDescription d c h
  exact hmapped.imp fun e t he => he.takesFrom.undeclared_iff

/-! ## Texts -/

def serverOf (text : String) : Option (Description × Config) :=
  match parse text with
  | .ok (.parsed d _) =>
    match Config.ofDescription d with
    | .ok c => some (d, c)
    | .error _ => none
  | _ => none

theorem serverOf_some {text : String} {d : Description} {c : Config} (h : serverOf text = some (d, c)) :
    ∃ ws, parse text = .ok (.parsed d ws) ∧ Config.ofDescription d = .ok c := by
  unfold serverOf at h
  split at h
  · rename_i hparse
    split at h
    · rename_i hmap
      cases h
      exact ⟨_, hparse, hmap⟩
    · cases h
  · cases h

def createText : String :=
  "\x7b\"openapi\":\"3.\",\"paths\":\x7b\"/a\":\x7b\"post\":\x7b\"requestBody\":\x7b\"content\":\x7b" ++
    "\"application/json\":\x7b\"schema\":\x7b\"properties\":\x7b\"a\":\x7b\x7d\x7d,\"required\":[\"a\",\"b\"]" ++
    "\x7d\x7d\x7d\x7d\x7d\x7d\x7d\x7d"

theorem required_undeclared_iff_create : ∃ d ws c, parse createText = .ok (.parsed d ws) ∧
    Config.ofDescription d = .ok c ∧
    c.tools.map (fun t => (t.inputSchema.required, t.inputSchema.properties.map (·.1))) = [(["a", "b"], ["a"])] ∧
    List.Forall₂ (fun (e : Endpoint) t => ∀ name,
      (name ∈ t.inputSchema.required ∧ name ∉ t.inputSchema.properties.map (·.1)) ↔ e.Undeclared name)
      (d.endpoints.filter (!·.deprecated)) c.tools := by
  have hinputs : (serverOf createText).map (fun s => s.2.tools.map fun t =>
      (t.inputSchema.required, t.inputSchema.properties.map (·.1))) = some [(["a", "b"], ["a"])] := by
    decide +kernel
  obtain ⟨⟨d, c⟩, hserver, hinputs⟩ := Option.map_eq_some_iff.mp hinputs
  obtain ⟨ws, hparse, hmap⟩ := serverOf_some hserver
  exact ⟨d, ws, c, hparse, hmap, hinputs, required_undeclared_iff hmap⟩

end ToolServer
