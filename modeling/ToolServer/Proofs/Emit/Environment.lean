import Mathlib.Data.List.TakeWhile
import ToolServer.Emit.Guide
import ToolServer.Proofs.Outcome
import ToolServer.Proofs.Text.Piece

/-!
# Settings of environment files

Whoever reads an environment file passes over its empty lines and its comments. What is left sets the variables, one
line each: a description stands in a comment, on one line whatever ends lines in it.
-/

namespace ToolServer.Text

theorem isBlank_of_mem_words {s piece : List Char} (h : piece ∈ words s) : ∀ c ∈ piece, isBlank c = false := by
  fun_induction words s with
  | case1 => simp at h
  | case2 c cs hc ih => exact ih h
  | case3 c cs hc ih =>
    intro d hd
    rcases List.mem_cons.mp h with rfl | h
    · rcases List.mem_cons.mp hd with rfl | hd
      · simpa using hc
      · simpa using List.mem_takeWhile_imp hd
    · exact ih h d hd

end ToolServer.Text

namespace ToolServer.Emit

open Text

/-! ## Lines -/

/-- The lines of a text, each ended by a line feed or by the end of the text. -/
def linesOf (text : String) : List String := (cut '\n' text.toList).map String.ofList

/-- A line that is neither empty nor a comment. -/
def isSetting (line : String) : Bool := line != "" && line.toList.head? != some '#'

def settings (text : String) : List String := (linesOf text).filter isSetting

theorem linesOf_joinLines {lines : List String} (hne : lines ≠ []) (h : ∀ line ∈ lines, '\n' ∉ line.toList) :
    linesOf (joinLines lines) = lines := by
  have hsep : "\n".toList = ['\n'] := by simp
  have hcut : cut '\n' (joinLines lines).toList = lines.map (·.toList) := by
    rw [joinLines, toList_intercalate hsep]
    apply cut_joinWith (by simpa using hne)
    simpa using h
  rw [linesOf, hcut, List.map_map]
  simp [Function.comp_def]

theorem oneLine_unbroken (s : String) : '\n' ∉ (oneLine s).toList := by
  intro h
  have hsep : " ".toList = [' '] := by simp
  rw [oneLine, toList_intercalate hsep, List.map_map] at h
  rcases mem_joinWith h with h | ⟨piece, hpiece, h⟩
  · simp at h
  · obtain ⟨word, hword, rfl⟩ := List.mem_map.mp hpiece
    have hblank : isBlank '\n' = false := isBlank_of_mem_words hword '\n' (by simpa using h)
    revert hblank
    decide

end ToolServer.Emit

namespace ToolServer

def EnvVar.setting (v : EnvVar) : String := v.name ++ "=" ++ v.example_.getD ""

structure EnvVar.Settable (v : EnvVar) : Prop where
  named : v.name ≠ ""
  apart : v.name.toList.head? ≠ some '#'
  name : '\n' ∉ v.name.toList
  example_ : '\n' ∉ (v.example_.getD "").toList

end ToolServer

namespace ToolServer.Emit

section
variable {v : EnvVar} (h : v.Settable)
include h

theorem setting_unbroken : '\n' ∉ v.setting.toList := by
  simp [EnvVar.setting, h.name, h.example_]

theorem isSetting_setting : isSetting v.setting = true := by
  have hne : v.name.toList ≠ [] := by simpa using h.named
  obtain ⟨c, cs, hname⟩ := List.exists_cons_of_ne_nil hne
  have happart : c ≠ '#' := by simpa [hname] using h.apart
  simp [isSetting, EnvVar.setting, hname, happart, ← String.toList_eq_nil_iff]

theorem envLines_unbroken : ∀ line ∈ envLines v, '\n' ∉ line.toList := by
  have hsetting := setting_unbroken h
  intro line hline
  simp only [envLines, List.mem_cons, List.not_mem_nil, or_false] at hline
  rcases hline with rfl | rfl | rfl
  · simp [oneLine_unbroken]
  · exact hsetting
  · simp

/-- Of the lines of a variable one is a setting. -/
theorem filter_envLines : (envLines v).filter isSetting = [v.setting] := by
  have hlines : envLines v = ["# " ++ oneLine v.description, v.setting, ""] := rfl
  have hcomment : ¬ isSetting ("# " ++ oneLine v.description) = true := by simp [isSetting]
  have hempty : ¬ isSetting "" = true := by simp [isSetting]
  rw [hlines, List.filter_cons_of_neg hcomment, List.filter_cons_of_pos (isSetting_setting h),
    List.filter_cons_of_neg hempty, List.filter_nil]

end

section
variable {c : Config} (hname : '\n' ∉ c.name.toList) (h : ∀ v ∈ c.envVars, v.Settable)
include hname h

theorem linesOf_envExample : linesOf (envExample c) = ["# " ++ c.name ++ " MCP Server - Environment Variables",
    "# Copy this to .env and fill in your values", ""] ++ c.envVars.flatMap envLines := by
  apply linesOf_joinLines (by simp)
  intro line hline
  rcases List.mem_append.mp hline with hline | hline
  · simp only [List.mem_cons, List.not_mem_nil, or_false] at hline
    rcases hline with rfl | rfl | rfl
    · simp [hname]
    · simp
    · simp
  · obtain ⟨v, hv, hline⟩ := List.mem_flatMap.mp hline
    exact envLines_unbroken (h v hv) line hline

theorem settings_eq : settings (envExample c) = c.envVars.map EnvVar.setting := by
  have hheader : ["# " ++ c.name ++ " MCP Server - Environment Variables",
      "# Copy this to .env and fill in your values", ""].filter isSetting = [] := by
    simp [isSetting]
  rw [settings, linesOf_envExample hname h, List.filter_append, hheader, List.nil_append, List.filter_flatMap,
    List.flatMap_congr fun v hv => filter_envLines (h v hv), ← List.map_eq_flatMap]

/-- **An environment file sets its variables, in order and one line each, whatever their descriptions are.** -/
theorem settings_envExample : settings (envExample c) = c.envVars.map EnvVar.setting ∧
    ∀ c' : Config, '\n' ∉ c'.name.toList →
      List.Forall₂ (fun v w => w.name = v.name ∧ w.example_ = v.example_) c.envVars c'.envVars →
        settings (envExample c') = settings (envExample c) := by
  refine ⟨settings_eq hname h, ?_⟩
  intro c' hname' hsame
  have h' : ∀ w ∈ c'.envVars, w.Settable := by
    intro w hw
    obtain ⟨v, hv, hvname, hexample⟩ := exists_of_forall₂ hsame w hw
    have hv := h v hv
    exact ⟨hvname ▸ hv.named, hvname ▸ hv.apart, hvname ▸ hv.name, hexample ▸ hv.example_⟩
  rw [settings_eq hname h, settings_eq hname' h']
  apply map_eq_of_forall₂
  apply hsame.imp
  intro v w ⟨hvname, hexample⟩
  rw [EnvVar.setting, EnvVar.setting, hvname, hexample]

end

def crowded : Config where
  name := "pets"
  version := "1"
  description := ""
  baseUrl := ""
  tools := []
  envVars := [⟨"API_BASE_URL", "Base\nAPI_KEY=1\r\nX=2\u2028Y=3\n", true, some "https://pets.example"⟩,
    ⟨"API_KEY", "\n# key", true, none⟩, ⟨"API KEY", "", false, some "#1"⟩]

theorem settings_envExample_crowded : '\n' ∉ crowded.name.toList ∧ (∀ v ∈ crowded.envVars, v.Settable) ∧
    settings (envExample crowded) = ["API_BASE_URL=https://pets.example", "API_KEY=", "API KEY=#1"] := by
  have hname : '\n' ∉ crowded.name.toList := by decide
  have hvars : ∀ v ∈ crowded.envVars, v.Settable := by
    simp only [crowded, List.forall_mem_cons]
    exact ⟨⟨by decide, by decide, by decide, by decide⟩, ⟨by decide, by decide, by decide, by decide⟩,
      ⟨by decide, by decide, by decide, by decide⟩, List.forall_mem_nil _⟩
  exact ⟨hname, hvars, (settings_envExample hname hvars).1⟩

end ToolServer.Emit
