import ToolServer.Proofs.Naming.Distinct
import ToolServer.Proofs.Outcome
import ToolServer.Tool.Mapping

/-!
# Names of mapped tools
-/

namespace ToolServer

open Api Naming

def Api.Endpoint.toolName (e : Endpoint) : String := operationName e.method e.path e.operationId

def Api.Description.askedNames (d : Description) : List String :=
  (d.endpoints.filter (!·.deprecated)).map Endpoint.toolName

theorem toolOf_name (d : Description) (e : Endpoint) : Gives (toolOf d e) (fun t => t.name = e.toolName) := by
  unfold toolOf
  exact Gives.any fun i =>
    Gives.any fun required => .ok rfl

theorem names_withDistinctNames (tools : List Tool) :
    (withDistinctNames tools).map (·.name) = distinct (tools.map (·.name)) := by
  have hlength : (distinct (tools.map (·.name))).length = tools.length :=
    length_distinctFrom.trans (List.length_map ..)
  unfold withDistinctNames
  generalize distinct (tools.map (·.name)) = names at hlength ⊢
  rw [List.map_zipWith]
  conv_rhs => rw [← List.map_snd_zip (Nat.le_of_eq hlength), List.zip_eq_zipWith, List.map_zipWith]

theorem names_ofDescription (d : Description) :
    Gives (Config.ofDescription d) (fun c => c.tools.map (·.name) = distinct d.askedNames) := by
  unfold Config.ofDescription
  refine (Gives.mapM_map fun e _ => toolOf_name d e).bind fun tools htools => .ok ?_
  rw [Description.askedNames, ← htools]
  exact names_withDistinctNames tools

/-- **The tools of a server have valid and distinct names.** -/
theorem tool_names_valid_nodup {d : Description} {c : Config} (hmany : d.endpoints.length < 10 ^ 60)
    (hmethods : ∀ e ∈ d.endpoints, e.method ∈ methods) (h : Config.ofDescription d = .ok c) :
    (c.tools.map (·.name)).Nodup ∧ ∀ t ∈ c.tools, ValidToolName t.name := by
  have hnames : c.tools.map (·.name) = distinct d.askedNames := names_ofDescription d c h
  have hfew : d.askedNames.length < 10 ^ 60 := by
    unfold Description.askedNames
    rw [List.length_map]
    exact Nat.lt_of_le_of_lt (List.length_filter_le ..) hmany
  have hvalid : ∀ name ∈ d.askedNames, ValidToolName name := by
    intro name hname
    obtain ⟨e, he, rfl⟩ := List.mem_map.mp hname
    exact operationName_valid (hmethods e (List.mem_of_mem_filter he)) e.path e.operationId
  constructor
  · rw [hnames]
    exact distinct_nodup _
  · intro t ht
    refine distinct_valid hfew hvalid _ ?_
    rw [← hnames]
    exact List.mem_map_of_mem ht

def listPets (operationId : String) : Endpoint where
  path := "/pets"
  method := "get"
  operationId := some operationId
  summary := none
  description := none
  tags := []
  parameters := []
  requestBody := none
  responses := []
  security := []
  deprecated := false

def samePets : Description where
  title := "Pets"
  description := ""
  version := "1"
  baseUrl := ""
  servers := []
  endpoints := [listPets "list pets", listPets "List.Pets", listPets "_list__pets"]
  schemes := []
  schemas := []

theorem tool_names_valid_nodup_samePets : ∃ c, samePets.endpoints.length < 10 ^ 60 ∧
    (∀ e ∈ samePets.endpoints, e.method ∈ methods) ∧ Config.ofDescription samePets = .ok c ∧
    (c.tools.map (·.name)).Nodup ∧ ∀ t ∈ c.tools, ValidToolName t.name := by
  have hmapped : (Config.ofDescription samePets).isOk = true := by decide +kernel
  cases h : Config.ofDescription samePets with
  | error e => rw [h] at hmapped; cases hmapped
  | ok c =>
    have hmany : samePets.endpoints.length < 10 ^ 60 := by decide
    have hmethods : ∀ e ∈ samePets.endpoints, e.method ∈ methods := by decide
    exact ⟨c, hmany, hmethods, rfl, tool_names_valid_nodup hmany hmethods h⟩

end ToolServer
