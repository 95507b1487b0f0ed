import ToolServer.Emit.Project
import ToolServer.Proofs.Emit.Body

/-!
# What a project is made of

Every file of a project is made of what the server offers: its name, version and description, its variables, and the
tools that are turned on, in order. So a tool that is turned off leaves no trace, wherever it stands.
-/

namespace ToolServer

structure Config.OffersAs (c d : Config) : Prop where
  name : c.name = d.name
  version : c.version = d.version
  description : c.description = d.description
  envVars : c.envVars = d.envVars
  tools : c.enabledTools = d.enabledTools

theorem Config.offersAs_of_tools (c : Config) {tools : List Tool}
    (h : tools.filter (·.enabled) = c.tools.filter (·.enabled)) : Config.OffersAs { c with tools } c :=
  ⟨rfl, rfl, rfl, rfl, h⟩

namespace Emit

section
variable {c d : Config} (h : c.OffersAs d)
include h

theorem envExample_congr : envExample c = envExample d := by
  unfold envExample
  rw [h.name, h.envVars]

theorem guide_congr (parts : GuideParts) : guide parts c = guide parts d := by
  unfold guide toolList variableList variableMembers
  rw [h.name, h.description, h.envVars, h.tools]

theorem Python.files_congr : Python.files c = Python.files d := by
  have hmanifest : Python.manifest c = Python.manifest d := by
    unfold Python.manifest
    rw [h.name, h.version, h.description]
  have hserver : Python.server c = Python.server d := by
    unfold Python.server
    rw [h.name, h.tools]
  unfold Python.files
  rw [hmanifest, hserver, envExample_congr h, guide_congr h, h.tools]

theorem TypeScript.files_congr : TypeScript.files c = TypeScript.files d := by
  have hmanifest : TypeScript.manifest c = TypeScript.manifest d := by
    unfold TypeScript.manifest
    rw [h.name, h.version, h.description]
  have hindex : TypeScript.index c = TypeScript.index d := by
    unfold TypeScript.index
    rw [h.name, h.version]
  have htools : TypeScript.tools c = TypeScript.tools d := by
    unfold TypeScript.tools
    rw [h.tools]
  unfold TypeScript.files
  rw [hmanifest, hindex, htools, envExample_congr h, guide_congr h]

/-- Servers that offer the same have the same project, or none for the same fault. -/
theorem project_congr (l : Language) : project l c = project l d := by
  cases l with
  | python => exact Python.files_congr h
  | typescript => exact TypeScript.files_congr h

end

/-- **A tool that is turned off leaves no trace.** The project is that of the server without such tools, and it stays
when one of them is changed or moved. -/
theorem disabled_without_trace (c : Config) (l : Language) :
    project l c = project l { c with tools := c.tools.filter (·.enabled) } ∧
    ∀ before t after before' t' after', c.tools = before ++ t :: after → before' ++ after' = before ++ after →
      t.enabled = false → t'.enabled = false →
        project l { c with tools := before' ++ t' :: after' } = project l c := by
  constructor
  · refine (project_congr (c.offersAs_of_tools ?_) l).symm
    rw [List.filter_filter]
    simp only [Bool.and_self]
  · intro before t after before' t' after' htools hothers ht ht'
    refine project_congr (c.offersAs_of_tools ?_) l
    -- what is left of either list is what is left of the tools around the one that is turned off
    calc (before' ++ t' :: after').filter (·.enabled)
        = (before' ++ after').filter (·.enabled) := by
          rw [List.filter_append, List.filter_cons_of_neg (by simp [ht']), ← List.filter_append]
      _ = (before ++ after).filter (·.enabled) := by rw [hothers]
      _ = c.tools.filter (·.enabled) := by
          rw [htools, List.filter_append, List.filter_append, List.filter_cons_of_neg (by simp [ht])]

def spareTool : Tool := { updateTool with description := "Update pets at once", enabled := false }

def spareServer : Config where
  name := "pets"
  version := "1"
  description := ""
  baseUrl := "https://pets.example"
  tools := [spareTool, updateTool]
  envVars := []

theorem disabled_without_trace_spare :
    project .python spareServer = project .python { spareServer with tools := [updateTool] } ∧
    spareServer.tools = [] ++ spareTool :: [updateTool] ∧ [updateTool] ++ [] = [] ++ [updateTool] ∧
    spareTool.enabled = false ∧ { spareTool with name := "drop" }.enabled = false ∧
    project .python { spareServer with tools := [updateTool] ++ { spareTool with name := "drop" } :: [] } =
      project .python spareServer := by
  obtain ⟨hwithout, hchanged⟩ := disabled_without_trace spareServer .python
  exact ⟨hwithout, rfl, rfl, rfl, rfl, hchanged [] spareTool [updateTool] [updateTool] _ [] rfl rfl rfl rfl⟩

end Emit

end ToolServer
