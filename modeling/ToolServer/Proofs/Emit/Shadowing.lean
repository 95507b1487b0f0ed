import ToolServer.Proofs.Emit.Body

/-!
# Names that functions hide

A module relies on the names that it imports and defines, and on builtin types and functions. No function takes one of
the former. A builtin is hidden just when one tool, and no other, has its name: `shadowed_iff`.
-/

namespace ToolServer.Emit.Python

open Document

/-- What a module imports, and what it defines for all its functions. -/
def moduleNames : List String := [
  "json", "os", "Any", "Literal", "quote", "httpx", "FastMCP",
  "REQUEST_TIMEOUT", "mcp", "_env", "_build_url", "_compact", "_request", "main"]

/-- The builtin types, functions and exceptions that a module uses. -/
def builtinNames : List String := ["str", "float", "bool", "list", "dict", "isinstance", "RuntimeError"]

/-! ## Names of functions -/

def functionName (c : Config) (t : Tool) : String := ((functionNames c.enabledTools).lookup t.name).getD t.name

structure DefinesFunctions (c : Config) (name : Tool → String) : Prop where
  text : ∃ before after, server c =
    joinLines (before ++ ["\n\n".intercalate (c.enabledTools.map fun t => function t (name t))] ++ after)
  line : ∀ t, ∃ decorator parameters body, function t (name t) =
    joinLines (decorator :: ("async def " ++ name t ++ "(" ++ parameters ++ ") -> str:") :: body)

theorem definesFunctions (c : Config) : DefinesFunctions c (functionName c) where
  text := ⟨_, _, rfl⟩
  line _ := ⟨_, _, _, rfl⟩

section
variable {c : Config} {t : Tool} (ht : t ∈ c.enabledTools)
include ht

theorem exists_functionName : ∃ e,
    (identifiersFrom reservedNames (c.enabledTools.map (·.name))).findRev? (·.1 == t.name) = some e ∧
    functionName c t = e.2 := by
  have hname : t.name ∈ c.enabledTools.map (·.name) := List.mem_map_of_mem ht
  unfold functionName functionNames
  rw [Ordered.lookup_eq_get?, Ordered.get?_ofPairs]
  cases hlast : (identifiersFrom reservedNames (c.enabledTools.map (·.name))).findRev? (·.1 == t.name) with
  | none => exact absurd hname (identifierOf_eq_none_iff.mp hlast)
  | some e => exact ⟨e, rfl, rfl⟩

theorem functionName_free : functionName c t ∉ reservedNames := by
  obtain ⟨e, hlast, heq⟩ := exists_functionName ht
  rw [heq]
  exact identifiersFrom_free e (mem_of_identifierOf hlast).1

/-- A word that is not reserved becomes the name of a function just when it is the name of one tool. -/
theorem functionName_eq_word_iff {word : String} (hword : '_' ∉ word.toList) (hself : identifier word = word)
    (hfree : word ∉ reservedNames) :
    functionName c t = word ↔ t.name = word ∧ (c.enabledTools.map (·.name)).count word = 1 := by
  obtain ⟨e, hlast, heq⟩ := exists_functionName ht
  rw [heq, ← identifierOf_eq_word_iff hword hself hfree]
  constructor
  · intro hchosen
    obtain ⟨hmem, hkey⟩ := mem_of_identifierOf hlast
    have hword' : (e.1, word) ∈ identifiersFrom reservedNames (c.enabledTools.map (·.name)) := by rwa [← hchosen]
    have hname : t.name = word := hkey ▸ eq_word_of_mem_identifiersFrom hword hself hword'
    rw [← hname, hlast, hname, ← hchosen]
    exact ⟨rfl, rfl⟩
  · rintro ⟨rfl, hchosen⟩
    rw [hlast] at hchosen
    exact Option.some.inj hchosen

end

/-! ## Hidden names -/

theorem moduleNames_reserved : ∀ w ∈ moduleNames, w ∈ reservedNames := by decide

theorem builtinNames_words :
    ∀ w ∈ builtinNames, '_' ∉ w.toList ∧ identifier w = w ∧ w ∉ reservedNames ∧ w ∉ moduleNames := by
  decide +kernel

theorem annotation_builtin (p : Property) :
    annotation p ∈ builtinNames ∨ ∃ values, annotation p = "Literal[" ++ values ++ "]" := by
  have htype : (typeNames.lookup p.type).getD "str" ∈ builtinNames := by
    have hall : ∀ e ∈ typeNames, e.2 ∈ builtinNames := by decide
    cases h : typeNames.lookup p.type with
    | none => decide
    | some w =>
      rw [Ordered.lookup_eq_get?] at h
      exact hall _ (Ordered.pair_mem_of_get? h)
  unfold annotation
  split
  · split
    · exact .inr ⟨_, rfl⟩
    · exact .inl htype
  · exact .inl htype

/-- **A function hides a name that its module relies on just when the name is a builtin that one tool is called.** What
the module imports and defines is never hidden. -/
theorem shadowed_iff (c : Config) :
    DefinesFunctions c (functionName c) ∧
    (∀ p, annotation p ∈ builtinNames ∨ ∃ values, annotation p = "Literal[" ++ values ++ "]") ∧
    (∀ t ∈ c.enabledTools, ∀ w ∈ moduleNames ++ builtinNames, functionName c t = w ↔
      w ∈ builtinNames ∧ t.name = w ∧ (c.enabledTools.map (·.name)).count w = 1) ∧
    ((∀ t ∈ c.enabledTools, functionName c t ∉ moduleNames ++ builtinNames) ↔
      ∀ w ∈ builtinNames, (c.enabledTools.map (·.name)).count w ≠ 1) := by
  have hhidden : ∀ t ∈ c.enabledTools, ∀ w ∈ moduleNames ++ builtinNames, functionName c t = w ↔
      w ∈ builtinNames ∧ t.name = w ∧ (c.enabledTools.map (·.name)).count w = 1 := by
    intro t ht w hw
    rcases List.mem_append.mp hw with hw | hw
    · have hclear : functionName c t ≠ w := fun h => functionName_free ht (h ▸ moduleNames_reserved w hw)
      exact ⟨fun h => absurd h hclear, fun h => absurd hw (builtinNames_words w h.1).2.2.2⟩
    · obtain ⟨hword, hself, hfree, -⟩ := builtinNames_words w hw
      rw [functionName_eq_word_iff ht hword hself hfree]
      exact (and_iff_right hw).symm
  refine ⟨definesFunctions c, annotation_builtin, hhidden, ?_⟩
  constructor
  · intro hclear w hw hcount
    have hmem : w ∈ c.enabledTools.map (·.name) := List.count_pos_iff.mp (by omega)
    obtain ⟨t, ht, rfl⟩ := List.mem_map.mp hmem
    have hw' : t.name ∈ moduleNames ++ builtinNames := List.mem_append_right _ hw
    exact hclear t ht ((hhidden t ht _ hw').mpr ⟨hw, rfl, hcount⟩ ▸ hw')
  · intro hcounts t ht hmem
    obtain ⟨hw, -, hcount⟩ := (hhidden t ht _ hmem).mp rfl
    exact hcounts _ hw hcount

def listTool : Tool := { updateTool with name := "list" }

def listServer : Config where
  name := "pets"
  version := "1"
  description := ""
  baseUrl := "https://pets.example"
  tools := [listTool, updateTool]
  envVars := []

theorem shadowed_iff_list : listTool ∈ listServer.enabledTools ∧ "list" ∈ moduleNames ++ builtinNames ∧
    functionName listServer listTool = "list" ∧
    ¬ ∀ t ∈ listServer.enabledTools, functionName listServer t ∉ moduleNames ++ builtinNames := by
  obtain ⟨-, -, hhidden, hclear⟩ := shadowed_iff listServer
  have hmem : listTool ∈ listServer.enabledTools := List.mem_cons_self ..
  have hrelied : "list" ∈ moduleNames ++ builtinNames := by decide
  have hcount : (listServer.enabledTools.map (·.name)).count "list" = 1 := by decide
  refine ⟨hmem, hrelied, (hhidden listTool hmem "list" hrelied).mpr ⟨by decide, rfl, hcount⟩, fun h => ?_⟩
  exact hclear.mp h "list" (by decide) hcount

end ToolServer.Emit.Python
