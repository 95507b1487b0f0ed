import ToolServer.Proofs.Emit.Body
import ToolServer.Proofs.Emit.Credentials
import ToolServer.Proofs.Naming.Prefix

/-!
# Recovered headers

The input of a header keeps the letters and digits of its name, in small letters, and has underscores for the rest.
Both programs read the header from that name, with hyphens for the underscores. So of the characters that a header may
have besides letters and digits they recover the hyphen alone.
-/

namespace ToolServer.Naming

open Text

def isTokenChar (c : Char) : Bool := isAsciiLetter c || isAsciiDigit c || "!#$%&'*+-.^_`|~".toList.contains c

structure IsToken (h : String) : Prop where
  nonempty : h ≠ ""
  chars : ∀ c ∈ h.toList, isTokenChar c = true

def IsHyphenated (h : String) : Prop := ∀ c ∈ h.toList, isAsciiLetter c = true ∨ isAsciiDigit c = true ∨ c = '-'

def hyphened (c : Char) : Char := if isSlugChar c then c else '-'

theorem hyphened_eq_self_iff {c : Char} : hyphened c = c ↔ isSlugChar c = true ∨ c = '-' := by
  unfold hyphened
  by_cases hc : isSlugChar c = true
  · simp [hc]
  · simp [hc, eq_comm]

theorem hyphened_hyphened (c : Char) : hyphened (hyphened c) = hyphened c := by
  unfold hyphened
  by_cases hc : isSlugChar c = true
  · simp [hc]
  · simp [hc]

theorem hyphened_eq (c : Char) :
    (if (if isSlugChar c then c else '_') = '_' then '-' else if isSlugChar c then c else '_') = hyphened c := by
  unfold hyphened
  by_cases hc : isSlugChar c = true
  · have hne : c ≠ '_' := fun h => by rw [h] at hc; exact absurd hc (by decide)
    simp [hc, hne]
  · simp [hc]

/-- The recovered header is the small form of the header with hyphens for all but letters and digits. -/
theorem toList_headerOfInput (h : String) :
    (headerOfInput (headerInput h)).toList = (lower h).toList.map hyphened := by
  unfold headerOfInput headerInput
  simp only [String.toList_append, String.toList_ofList]
  rw [if_pos (List.isPrefixOf_iff_prefix.mpr (List.prefix_append ..)), List.drop_left, List.map_map]
  exact List.map_congr_left fun c _ => hyphened_eq c

/-! ## Tokens -/

theorem IsToken.ascii {h : String} (ht : IsToken h) : ∀ c ∈ h.toList, c.toNat < 0x80 := by
  intro c hc
  have hchar := ht.chars c hc
  simp only [isTokenChar, isAsciiLetter, Bool.or_eq_true, isAsciiLower_iff, isAsciiUpper_iff, isAsciiDigit_iff,
    List.contains_iff_mem] at hchar
  rcases hchar with ((hchar | hchar) | hchar) | hchar
  · omega
  · omega
  · omega
  · exact (by simp : ∀ d ∈ "!#$%&'*+-.^_`|~".toList, d.toNat < 0x80) c hchar

theorem IsToken.toList_lower {h : String} (ht : IsToken h) : (lower h).toList = h.toList.map small := by
  rw [lower, String.toList_ofList, lowerAfter_ascii _ _ ht.ascii]

/-- The small form of a letter, digit or hyphen is recovered, and no other. -/
theorem hyphened_small_iff {c : Char} :
    hyphened (small c) = small c ↔ isAsciiLetter c = true ∨ isAsciiDigit c = true ∨ c = '-' := by
  have hmark : ∀ d : Char, d = '-' ↔ d.toNat = 45 := fun d => ⟨fun h => h ▸ rfl, fun h => Char.toNat_inj.mp h⟩
  simp only [hyphened_eq_self_iff, isSlugChar, isAsciiLetter, Bool.or_eq_true, isAsciiLower_iff, isAsciiUpper_iff,
    isAsciiDigit_iff, hmark]
  unfold small
  by_cases hu : isAsciiUpper c = true
  · have hc := isAsciiUpper_iff.mp hu
    rw [if_pos hu, toNat_ofNat_of_lt (by omega)]
    omega
  · rw [if_neg hu]
    rw [isAsciiUpper_iff] at hu
    omega

/-- Only a header of letters, digits and hyphens is ever recovered. -/
theorem IsToken.hyphenated {h g : String} (ht : IsToken h) (heq : headerOfInput (headerInput g) = lower h) :
    IsHyphenated h := by
  intro c hc
  have hmem : small c ∈ (headerOfInput (headerInput g)).toList := by
    rw [heq, ht.toList_lower]
    exact List.mem_map_of_mem hc
  rw [toList_headerOfInput] at hmem
  obtain ⟨d, -, hd⟩ := List.mem_map.mp hmem
  exact hyphened_small_iff.mp (hd ▸ hyphened_hyphened d)

theorem IsToken.recovered {h : String} (ht : IsToken h) (hh : IsHyphenated h) :
    headerOfInput (headerInput h) = lower h := by
  apply String.toList_inj.mp
  rw [toList_headerOfInput, ht.toList_lower, List.map_map]
  exact List.map_congr_left fun c hc => hyphened_small_iff.mpr (hh c hc)

end ToolServer.Naming

namespace ToolServer.Emit

open Document Api Naming
open Inputs (inputName)

/-! ## Requests -/

def sentHeaders (t : Tool) : List String := t.handler.headerParams.map headerOfInput

structure SentInHeader (t : Tool) (name header : String) : Prop where
  python : ∀ functionName, ∃ ident members,
    (Python.inputIdentifiers functionName t.inputSchema).lookup name = some ident ∧
    Python.entry header ident ∈ members ∧
    "headers=" ++ Python.braced members ∈ Python.arguments (Python.inputIdentifiers functionName t.inputSchema) t
  script : ∃ lines, TypeScript.sendingLine name header ∈ lines ∧
    ("        headers: \x7b" :: TypeScript.commaSeparated lines ++ ["        \x7d,"]) <:+:
      TypeScript.handlerLines t.handler

theorem sentInHeader_of_mem {t : Tool} {name : String} (hname : name ∈ t.handler.headerParams)
    (htaken : name ∈ t.inputSchema.properties.map (·.1)) : SentInHeader t name (headerOfInput name) where
  python functionName := by
    obtain ⟨ident, hident⟩ := lookup_inputIdentifiers htaken functionName
    have hentry : Python.entry (headerOfInput name) ident ∈ (Python.headerFields t).map
        (Python.fieldText (Python.inputIdentifiers functionName t.inputSchema)) := by
      rw [Python.headerFields_eq]
      exact List.mem_append_left _ (List.mem_filterMap.mpr ⟨name, hname, by rw [hident]; rfl⟩)
    refine ⟨ident, _, hident, hentry, List.mem_of_mem_filter (p := Python.isKeyword "headers") ?_⟩
    rw [(Python.sends functionName t).headers, Python.mapping, if_neg (by simpa using List.ne_nil_of_mem hentry)]
    exact List.mem_singleton_self _
  script := by
    have hline : TypeScript.sendingLine name (headerOfInput name) ∈
        (TypeScript.headerFields t.handler).map TypeScript.fieldLine :=
      List.mem_map_of_mem (f := TypeScript.fieldLine) (List.mem_append_right _ (List.mem_map_of_mem hname))
    have hlines := (TypeScript.sends t.handler).headers
    have hsome : ¬ (TypeScript.headerFields t.handler).isEmpty := fun h => by
      simp [List.isEmpty_iff.mp h] at hline
    rw [TypeScript.headerBlock, if_neg hsome] at hlines
    exact ⟨_, hline, hlines⟩

/-- **A header is sent under its own name exactly if it has letters, digits and hyphens only.** -/
theorem header_recovered_iff {h : String} (htoken : IsToken h) :
    (headerOfInput (headerInput h) = Text.lower h ↔ IsHyphenated h) ∧
    ∀ {d : Description} {e : Endpoint} {t : Tool}, MappedFrom d e t →
      ∀ p ∈ e.parameters, p.location = "header" → p.name = h →
        SentInHeader t (inputName p) (headerOfInput (headerInput h)) ∧
        (Text.lower h ∈ sentHeaders t ↔ IsHyphenated h) := by
  refine ⟨⟨htoken.hyphenated, htoken.recovered⟩, fun {d e t} hmapped p hp hheader hname => ?_⟩
  have hfrom : TakesFrom e t := hmapped.takesFrom
  have hinput : inputName p = headerInput h := by rw [inputName, if_pos hheader, hname]
  have hparam : inputName p ∈ t.handler.headerParams := by
    rw [hfrom.headers]
    exact List.mem_map_of_mem (List.mem_filter.mpr ⟨hp, by simpa using hheader⟩)
  have htaken : inputName p ∈ t.inputSchema.properties.map (·.1) := by
    refine (hfrom.keys _).mpr (List.mem_append_left _ (List.mem_map_of_mem (List.mem_filter.mpr ⟨hp, ?_⟩)))
    simp [hheader]
  refine ⟨hinput ▸ sentInHeader_of_mem hparam htaken, fun hsent => ?_, fun hh => ?_⟩
  · obtain ⟨name, hmem, heq⟩ := List.mem_map.mp hsent
    rw [hfrom.headers] at hmem
    obtain ⟨q, hq, rfl⟩ := List.mem_map.mp hmem
    have hqheader : q.location = "header" := by simpa using (List.mem_filter.mp hq).2
    rw [inputName, if_pos hqheader] at heq
    exact htoken.hyphenated heq
  · rw [← htoken.recovered hh, ← hinput]
    exact List.mem_map_of_mem hparam

def headedList : Endpoint where
  path := "/pets"
  method := "get"
  operationId := some "list"
  summary := none
  description := none
  tags := []
  parameters := [⟨"X_Custom", "header", none, false, [(.text "type", .text "string")], .null⟩]
  requestBody := none
  responses := []
  security := []
  deprecated := false

def headedServer : Description where
  title := "Pets"
  description := ""
  version := "1"
  baseUrl := "https://pets.example"
  servers := []
  endpoints := [headedList]
  schemes := []
  schemas := []

def headedTool : Tool where
  name := "list"
  description := "Retrieve pets"
  inputSchema := { properties := [("header_x_custom", { type := "string" })], required := [] }
  handler := {
    method := "GET"
    path := "/pets"
    baseUrl := "https://pets.example"
    baseUrlEnvVar := none
    contentType := "application/json"
    pathParams := []
    queryParams := []
    headerParams := ["header_x_custom"]
    bodyParam := none
    auth := [] }
  source := ⟨"/pets", "get", some "list"⟩
  enabled := true

theorem toolOf_headedList : toolOf headedServer headedList = .ok headedTool := rfl

theorem isToken_underscored : IsToken "X_Custom" where
  nonempty := by decide
  chars := List.all_eq_true.mp (by decide +kernel)

/-- The header with an underscore is sent with a hyphen in its place. -/
theorem header_recovered_iff_underscored : IsToken "X_Custom" ∧ MappedFrom headedServer headedList headedTool ∧
    SentInHeader headedTool "header_x_custom" "x-custom" ∧ Text.lower "X_Custom" = "x_custom" ∧
    "x_custom" ∉ sentHeaders headedTool := by
  have hmapped : MappedFrom headedServer headedList headedTool := ⟨headedTool, toolOf_headedList, rfl⟩
  obtain ⟨-, hsent⟩ := header_recovered_iff isToken_underscored
  obtain ⟨hline, hiff⟩ := hsent hmapped _ (List.mem_singleton_self _) rfl rfl
  have hheader : headerOfInput (headerInput "X_Custom") = "x-custom" := by decide +kernel
  have hname : inputName ⟨"X_Custom", "header", none, false, [(.text "type", .text "string")], .null⟩ =
      "header_x_custom" := by decide +kernel
  have hlower : Text.lower "X_Custom" = "x_custom" := by decide +kernel
  have hnot : ¬ IsHyphenated "X_Custom" := fun h => absurd (h '_' (by decide)) (by decide)
  rw [hheader, hname] at hline
  exact ⟨isToken_underscored, hmapped, hline, hlower, fun hmem => hnot (hiff.mp (hlower.symm ▸ hmem))⟩

end ToolServer.Emit
