import ToolServer.Proofs.Api.Sequence
import ToolServer.Proofs.Tool.Mapped

/-!
# Operations and their tools

Each operation of a document is read once, and each that is still in use has one tool, in the order of the document.
The tools are renamed to make their names distinct, and the new names come to the tools that asked for them.
-/

namespace ToolServer

open Document Api

/-! ## Operations as they are read -/

structure Api.Operation.ReadAs (op : Operation) (e : Endpoint) : Prop where
  path : e.path = op.path
  method : e.method = op.method
  operationId : e.operationId = shown? (Entries.get op.node "operationId")
  summary : e.summary = shown? (Entries.get op.node "summary")
  description : e.description = shown? (Entries.get op.node "description")
  deprecated : e.deprecated = (Entries.get op.node "deprecated").isTruthy
  parameters : ∃ ofPath ofOperation, e.parameters = mergeParameters ofPath ofOperation

theorem endpointOf_readAs (doc : Entries) (path method : String) (ofPath : List Parameter) (o : Entries) :
    Keeps (fun _ => True) (endpointOf doc path method ofPath o) (Operation.ReadAs ⟨path, method, o⟩) := by
  unfold endpointOf
  refine (Keeps.any _).bind fun ofOperation _ => Keeps.ite_bind (Keeps.any _) (Keeps.any _) fun body _ => ?_
  refine (Keeps.any _).bind fun tags _ => (Keeps.any _).bind fun responses _ => ?_
  exact (Keeps.any _).bind fun security _ => .pure ⟨rfl, rfl, rfl, rfl, rfl, rfl, ofPath, ofOperation, rfl⟩

/-! ## Tools -/

structure Tool.Calls (t : Tool) (e : Endpoint) : Prop where
  source : t.source = ⟨e.path, e.method, e.operationId⟩
  path : t.handler.path = e.path
  method : t.handler.method = Text.upper e.method

theorem toolOf_calls (d : Description) (e : Endpoint) : Gives (toolOf d e) (fun t => t.Calls e) := by
  unfold toolOf
  exact Gives.any fun i => Gives.any fun required => .ok ⟨rfl, rfl, rfl⟩

theorem MappedFrom.calls {d : Description} {e : Endpoint} {t : Tool} (h : MappedFrom d e t) : t.Calls e := by
  obtain ⟨u, hu, heq⟩ := h
  have hcalls : u.Calls e := toolOf_calls d e u hu
  rw [heq]
  exact ⟨hcalls.source, hcalls.path, hcalls.method⟩

/-- **No operation is lost, repeated or moved on its way to a tool.** -/
theorem operations_called {text : String} {d : Description} {ws : List String}
    (h : parse text = .ok (.parsed d ws)) :
    (∃ doc paths, Describes text doc paths ∧ List.Forall₂ Operation.ReadAs (operationsIn doc paths) d.endpoints) ∧
    ∀ c, Config.ofDescription d = .ok c →
      List.Forall₂ (fun e t => t.Calls e) (d.endpoints.filter (!·.deprecated)) c.tools ∧
      c.tools.map (·.name) = Naming.distinct d.askedNames := by
  refine ⟨parse_sequence endpointOf_readAs h, ?_⟩
  intro c hc
  have hmapped := mapped_ofDescription d c hc
  exact ⟨hmapped.imp fun e t => MappedFrom.calls, names_ofDescription d c hc⟩

/-! ## Texts with tools -/

def Api.ParseResult.operations : ParseResult → List (String × String)
  | .parsed d _ => d.endpoints.map fun e => (e.path, e.method)
  | .refused .. => []

def Api.ParseResult.tools : ParseResult → List Tool
  | .parsed d _ =>
    match Config.ofDescription d with
    | .ok c => c.tools
    | .error _ => []
  | .refused .. => []

theorem Api.ParseResult.exists_of_tools {r : ParseResult} (h : r.tools ≠ []) :
    ∃ d ws c, r = .parsed d ws ∧ Config.ofDescription d = .ok c ∧ r.tools = c.tools := by
  cases r with
  | refused path message => exact absurd rfl h
  | parsed d ws =>
    unfold ParseResult.tools at h ⊢
    cases hc : Config.ofDescription d with
    | error f => simp [hc] at h
    | ok c => exact ⟨d, ws, c, rfl, hc, by simp [hc]⟩

/-- A document with a path that stands for another node, and with an operation that is out of use. -/
def orderedText : String :=
  "\x7b\"openapi\":\"3.\",\"paths\":\x7b\"/b\":\x7b\"$ref\":\"#/x\"\x7d," ++
    "\"/a\":\x7b\"post\":\x7b\"deprecated\":1\x7d,\"get\":\x7b\"operationId\":\"p\"\x7d\x7d\x7d," ++
    "\"x\":\x7b\"put\":\x7b\x7d,\"get\":\x7b\"operationId\":\"p\"\x7d\x7d\x7d"

theorem operations_called_ordered : ∃ d ws c, parse orderedText = .ok (.parsed d ws) ∧
    Config.ofDescription d = .ok c ∧
    (∃ doc paths, Describes orderedText doc paths ∧
      List.Forall₂ Operation.ReadAs (operationsIn doc paths) d.endpoints) ∧
    d.endpoints.map (fun e => (e.path, e.method)) = [("/b", "get"), ("/b", "put"), ("/a", "get"), ("/a", "post")] ∧
    List.Forall₂ (fun e t => t.Calls e) (d.endpoints.filter (!·.deprecated)) c.tools ∧
    c.tools.map (·.name) = ["p", "update_b", "p_2"] := by
  have houtline : (parse orderedText).map (fun r => (r.operations, r.tools.map (·.name))) =
      .ok ([("/b", "get"), ("/b", "put"), ("/a", "get"), ("/a", "post")], ["p", "update_b", "p_2"]) := by
    decide +kernel
  obtain ⟨r, hr, houtline⟩ := exists_of_map_ok houtline
  obtain ⟨hoperations, hnames⟩ := Prod.mk.inj houtline
  have hne : r.tools ≠ [] := fun h => by simp [h] at hnames
  obtain ⟨d, ws, c, rfl, hc, htools⟩ := ParseResult.exists_of_tools hne
  obtain ⟨hread, hcalled⟩ := operations_called hr
  exact ⟨d, ws, c, hr, hc, hread, hoperations, (hcalled c hc).1, htools ▸ hnames⟩

end ToolServer
