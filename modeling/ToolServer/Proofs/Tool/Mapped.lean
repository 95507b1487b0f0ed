import ToolServer.Proofs.Api.Operations
import ToolServer.Proofs.Tool.Names

/-!
# Mapped tools

What the tools of a server have in common, however many operations its description has: the characters of
their names, and the variables that they read.
-/

namespace ToolServer

open Api Naming

def Tool.reads (t : Tool) : List String := t.handler.baseUrlName :: t.handler.auth.map (·.envVar)

/-- A handler that reads the plain base address, and credentials by the names of their schemes. -/
structure PlainHandler (h : Handler) : Prop where
  base : h.baseUrlEnvVar = none
  auth : ∀ a ∈ h.auth, a.envVar = credentialVariable a.scheme

theorem authFor_envVar {schemes : List Scheme} : ∀ {requirements : List Requirement} {seen : List String},
    ∀ a ∈ authFor schemes seen requirements, a.envVar = credentialVariable a.scheme
  | [], _, a, ha => by cases ha
  | r :: rest, seen, a, ha => by
    unfold authFor at ha
    split at ha
    · split at ha
      · exact authFor_envVar a ha
      · rcases List.mem_cons.mp ha with rfl | ha
        · rfl
        · exact authFor_envVar a ha
    · exact authFor_envVar a ha

theorem toolOf_handler (d : Description) (e : Endpoint) : Gives (toolOf d e) (fun t => PlainHandler t.handler) := by
  unfold toolOf
  exact Gives.any fun i =>
    Gives.any fun required => .ok ⟨rfl, authFor_envVar⟩

theorem mem_withDistinctNames {tools : List Tool} {t : Tool} (h : t ∈ withDistinctNames tools) :
    ∃ t' ∈ tools, t.handler = t'.handler := by
  rw [withDistinctNames, ← List.map_uncurry_zip_eq_zipWith] at h
  obtain ⟨⟨t', name⟩, hmem, rfl⟩ := List.mem_map.mp h
  exact ⟨t', (List.of_mem_zip hmem).1, rfl⟩

theorem handlers_ofDescription (d : Description) :
    Gives (Config.ofDescription d) (fun c => ∀ t ∈ c.tools, PlainHandler t.handler) := by
  unfold Config.ofDescription
  refine (Gives.mapM fun e _ => toolOf_handler d e).bind fun tools htools => .ok fun t ht => ?_
  obtain ⟨t', ht', he⟩ := mem_withDistinctNames ht
  exact he ▸ htools t' ht'

def MappedFrom (d : Description) (e : Endpoint) (t : Tool) : Prop :=
  ∃ u, toolOf d e = .ok u ∧ t = { u with name := t.name }

theorem forall₂_withDistinctNames (tools : List Tool) :
    List.Forall₂ (fun u t => t = { u with name := t.name }) tools (withDistinctNames tools) := by
  have hlength : tools.length = (distinct (tools.map (·.name))).length := by
    rw [distinct, length_distinctFrom, List.length_map]
  unfold withDistinctNames
  generalize distinct (tools.map (·.name)) = names at hlength
  induction tools generalizing names with
  | nil => exact .nil
  | cons u tools ih =>
    cases names with
    | nil => cases hlength
    | cons name names => exact .cons rfl (ih names (Nat.succ.inj hlength))

theorem mapped_ofDescription (d : Description) : Gives (Config.ofDescription d)
    (fun c => List.Forall₂ (MappedFrom d) (d.endpoints.filter (!·.deprecated)) c.tools) := by
  have htools : Gives ((d.endpoints.filter (!·.deprecated)).mapM (toolOf d))
      (List.Forall₂ (fun e u => toolOf d e = .ok u) (d.endpoints.filter (!·.deprecated))) :=
    .mapM_forall₂ fun e _ u hu => hu
  unfold Config.ofDescription
  exact htools.bind fun tools htools => .ok (forall₂_comp htools (forall₂_withDistinctNames tools))

theorem envVarsOf_withDistinctNames (d : Description) (tools : List Tool) :
    envVarsOf d (withDistinctNames tools) = envVarsOf d tools := by
  have hhandlers : (withDistinctNames tools).map (·.handler) = tools.map (·.handler) := by
    refine map_eq_of_forall₂ ((forall₂_withDistinctNames tools).imp fun u t h => ?_)
    rw [h]
  have hauth : ∀ ts : List Tool, ts.flatMap (·.handler.auth) = (ts.map (·.handler)).flatMap (·.auth) := by
    intro ts
    rw [List.flatMap_map]
  rw [envVarsOf, envVarsOf, hauth, hhandlers, ← hauth]

theorem envVars_ofDescription (d : Description) :
    Gives (Config.ofDescription d) (fun c => c.envVars = envVarsOf d c.tools) := by
  unfold Config.ofDescription
  refine Gives.any fun tools => .ok ?_
  exact (envVarsOf_withDistinctNames d tools).symm

theorem nodup_ofDescription (d : Description) :
    Gives (Config.ofDescription d) (fun c => (c.tools.map (·.name)).Nodup) :=
  (names_ofDescription d).mono fun _ h => h ▸ distinct_nodup _

/-- However many tools there are, and however long their numbers, their names keep to the characters. -/
theorem chars_ofDescription {d : Description} (h : ∀ e ∈ d.endpoints, e.method ∈ methods) :
    Gives (Config.ofDescription d) (fun c => ∀ t ∈ c.tools, ∀ ch ∈ t.name.toList, isNameChar ch = true) := by
  refine (names_ofDescription d).mono fun c hc t ht => ?_
  have hasked : ∀ name ∈ d.askedNames, ∀ ch ∈ name.toList, isNameChar ch = true := by
    intro name hname
    obtain ⟨e, he, rfl⟩ := List.mem_map.mp hname
    exact (operationName_valid (h e (List.mem_of_mem_filter he)) e.path e.operationId).chars
  have hmem : t.name ∈ distinct d.askedNames := hc ▸ List.mem_map_of_mem ht
  obtain ⟨name, hname, he | ⟨n, -, he⟩⟩ := mem_distinctFrom hmem
  · exact he ▸ hasked name hname
  · exact he ▸ numbered_chars n (hasked name hname)

end ToolServer
