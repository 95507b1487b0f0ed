import ToolServer.Proofs.Emit.Body
import ToolServer.Proofs.Emit.Fragments
import ToolServer.Proofs.Program.Literal

/-!
# Texts in functions

The function of a tool is code and texts of the server, written as literals. Read where they stand, the literals denote
these texts, but for characters that two units of UTF-16 write: `literals_denote_iff`.
-/

namespace ToolServer.Emit.Python

open Text Fragment
open Program (ReadsAs units)
open Toml (InOneUnit)

/-! ## The fragments of a function -/

def AuthEntry.valueFragments (e : AuthEntry) : List Fragment :=
  let env := [code "_env(", literal e.envVar, code ")"]
  match e.lead with
  | .bearer => code "\"Bearer \" + " :: env
  | .basic => code "\"Basic \" + " :: env
  | .none => env
  | .cookie name => [literal (name ++ "="), code " + "] ++ env

def entryFragments (key : String) (value : List Fragment) : List Fragment := [literal key, code ": "] ++ value

def AuthEntry.fragments (e : AuthEntry) : List Fragment := entryFragments e.key e.valueFragments

def inputFragments (idents : List (String × String)) (key : String → String) (names : List String) :
    List (List Fragment) :=
  names.filterMap fun n => (idents.lookup n).map fun ident => entryFragments (key n) [code ident]

def bracedFragments (members : List (List Fragment)) : List Fragment :=
  [code "\x7b"] ++ [code ", "].intercalate members ++ [code "\x7d"]

def addressFragments (idents : List (String × String)) (h : Handler) : List Fragment :=
  [code "_build_url(", literal h.baseUrlName, code ", ", literal h.baseUrl, code ", ", literal h.path, code ", "] ++
    bracedFragments (inputFragments idents id h.pathParams) ++ [code ")"]

def queryFragments (idents : List (String × String)) (h : Handler) : List (List Fragment) :=
  inputFragments idents id h.queryParams ++ ((authEntries h.auth).filter (·.placement = .query)).map (·.fragments)

def headerFragments (idents : List (String × String)) (h : Handler) : List (List Fragment) :=
  inputFragments idents Naming.headerOfInput h.headerParams ++
    ((authEntries h.auth).filter (·.placement = .header)).map (·.fragments)

def bodyFragments (idents : List (String × String)) (t : Tool) : List (List Fragment) :=
  match nonempty t.handler.bodyParam with
  | none => []
  | some name =>
    if name = bodyObject then
      [[code "body=_compact("] ++ bracedFragments (inputFragments idents id (bodyInputs t)) ++ [code ")"]]
    else match idents.lookup name with
      | some ident => [[code ("body=" ++ ident)]]
      | none => []

def argumentFragments (idents : List (String × String)) (t : Tool) : List (List Fragment) :=
  let query := queryFragments idents t.handler
  let headers := headerFragments idents t.handler
  [addressFragments idents t.handler] ++
  (if query.isEmpty then [] else [[code "params="] ++ bracedFragments query]) ++
  (if headers.isEmpty then [] else [[code "headers="] ++ bracedFragments headers]) ++
  bodyFragments idents t ++ (formArgument t.handler).map ([code ·])

def functionFragments (t : Tool) (functionName : String) : List Fragment :=
  let idents := inputIdentifiers functionName t.inputSchema
  [code "\n"].intercalate [
    if functionName = t.name then [code "@mcp.tool()"] else [code "@mcp.tool(name=", literal t.name, code ")"],
    [code ("async def " ++ functionName ++ "(" ++ ", ".intercalate (signature idents t.inputSchema) ++ ") -> str:")],
    [code ("    \"\"\"" ++ docText t.description ++ "\"\"\"")],
    [code "    return await _request("],
    [code "        ", literal (upper t.handler.method)] ++
      (argumentFragments idents t).flatMap (code ",\n        " :: ·) ++ [code ","],
    [code "    )"]]

/-! ## The text of a function -/

theorem written_valueFragments (e : AuthEntry) : written e.valueFragments = e.value := by
  unfold AuthEntry.valueFragments AuthEntry.value
  cases e.lead <;> simp [String.append_assoc]

theorem written_fragments (e : AuthEntry) : written e.fragments = e.text := by
  simp [AuthEntry.fragments, AuthEntry.text, entryFragments, entry, written_valueFragments, String.append_assoc]

theorem written_inputFragments (idents : List (String × String)) (key : String → String) (names : List String) :
    (inputFragments idents key names).map written = inputEntries idents key names := by
  unfold inputFragments inputEntries
  rw [List.map_filterMap]
  refine congrArg (List.filterMap · names) (funext fun n => ?_)
  rw [Option.map_map]
  refine congrArg (Option.map · (idents.lookup n)) (funext fun ident => ?_)
  simp [entryFragments, entry, String.append_assoc]

theorem written_bracedFragments (members : List (List Fragment)) :
    written (bracedFragments members) = braced (members.map written) := by
  simp [bracedFragments, braced, String.append_assoc]

theorem written_entries (idents : List (String × String)) (key : String → String) (names : List String)
    (entries : List AuthEntry) : (inputFragments idents key names ++ entries.map (·.fragments)).map written =
      inputEntries idents key names ++ entries.map AuthEntry.text := by
  rw [List.map_append, List.map_map, written_inputFragments]
  exact congrArg _ (List.map_congr_left fun e _ => written_fragments e)

theorem written_bodyFragments (idents : List (String × String)) (t : Tool) :
    (bodyFragments idents t).map written = bodyArgument idents t.inputSchema t.handler := by
  unfold bodyFragments bodyArgument
  cases nonempty t.handler.bodyParam with
  | none => rfl
  | some name =>
    by_cases hname : name = bodyObject
    · simp only [if_pos hname, List.map_cons, List.map_nil, written_append, written_bracedFragments,
        written_inputFragments]
      simp [bodyInputs, Handler.claimed, String.append_assoc]
    · simp only [if_neg hname]
      cases idents.lookup name with
      | none => rfl
      | some ident => simp

theorem written_addressFragments (idents : List (String × String)) (h : Handler) :
    written (addressFragments idents h) = "_build_url(" ++ Json.quoted h.baseUrlName ++ ", " ++
      Json.quoted h.baseUrl ++ ", " ++ Json.quoted h.path ++ ", " ++
      braced (inputEntries idents id h.pathParams) ++ ")" := by
  simp [addressFragments, written_bracedFragments, written_inputFragments, String.append_assoc]

theorem arguments_eq (idents : List (String × String)) (t : Tool) :
    arguments idents t = Json.quoted (upper t.handler.method) :: (argumentFragments idents t).map written := by
  have hform : (formArgument t.handler).map (written ∘ ([code ·])) = formArgument t.handler := by
    refine (List.map_congr_left fun s _ => ?_).trans (List.map_id _)
    simp
  unfold arguments argumentFragments queryFragments headerFragments
  simp only [List.map_append, List.map_map, List.map_cons, List.map_nil, apply_ite (List.map written), hform,
    written_addressFragments, written_bodyFragments, written_append, written_bracedFragments,
    ← written_entries]
  simp

theorem intercalate_written (sep first : String) (groups : List (List Fragment)) :
    sep.intercalate (first :: groups.map written) = first ++ written (groups.flatMap (code sep :: ·)) := by
  induction groups generalizing first with
  | nil => simp
  | cons g groups ih =>
    rw [List.map_cons, String.intercalate_cons_cons, ih]
    simp [String.append_assoc]

theorem function_eq_written (t : Tool) (functionName : String) :
    function t functionName = written (functionFragments t functionName) := by
  unfold functionFragments function
  simp only [arguments_eq, intercalate_written, written_intercalate, List.map_cons, List.map_nil, joinLines]
  split <;> simp [String.append_assoc]

/-! ## Code behind literals -/

theorem spaced_entryFragments (key : String) {value : List Fragment} (h : spaced value = true) :
    spaced (entryFragments key value) = true := by
  simpa [entryFragments, spaced] using h

theorem spaced_fragments (e : AuthEntry) : spaced e.fragments = true := by
  refine spaced_entryFragments e.key ?_
  unfold AuthEntry.valueFragments
  cases e.lead <;> simp [spaced]

theorem spaced_inputFragments (idents : List (String × String)) (key : String → String) (names : List String) :
    ∀ g ∈ inputFragments idents key names, spaced g = true := by
  intro g hg
  obtain ⟨n, -, hg⟩ := List.mem_filterMap.mp hg
  obtain ⟨ident, -, rfl⟩ := Option.map_eq_some_iff.mp hg
  exact spaced_entryFragments (key n) rfl

theorem spaced_entries (idents : List (String × String)) (key : String → String) (names : List String)
    (entries : List AuthEntry) :
    ∀ g ∈ inputFragments idents key names ++ entries.map (·.fragments), spaced g = true := by
  refine List.forall_mem_append.mpr ⟨spaced_inputFragments idents key names, ?_⟩
  exact List.forall_mem_map.mpr fun e _ => spaced_fragments e

theorem spaced_bracedFragments {members : List (List Fragment)} (h : ∀ g ∈ members, spaced g = true) :
    spaced (bracedFragments members) = true :=
  spaced_append (a := [code "\x7b"] ++ [code ", "].intercalate members)
    (spaced_append (a := [code "\x7b"]) rfl (spaced_intercalate ", " h)) rfl

theorem spaced_named (name : String) {members : List (List Fragment)} (h : ∀ g ∈ members, spaced g = true) :
    ∀ g ∈ if members.isEmpty then [] else [[code name] ++ bracedFragments members], spaced g = true := by
  intro g hg
  split at hg
  · cases hg
  · obtain rfl := List.mem_singleton.mp hg
    exact spaced_append (a := [code name]) rfl (spaced_bracedFragments h)

theorem spaced_bodyFragments (idents : List (String × String)) (t : Tool) :
    ∀ g ∈ bodyFragments idents t, spaced g = true := by
  unfold bodyFragments
  cases nonempty t.handler.bodyParam with
  | none => exact List.forall_mem_nil _
  | some name =>
    by_cases hname : name = bodyObject
    · have hbraced := spaced_bracedFragments (spaced_inputFragments idents id (bodyInputs t))
      simp only [if_pos hname]
      exact List.forall_mem_singleton.mpr (spaced_append (a := [code "body=_compact("] ++ _)
        (spaced_append (a := [code "body=_compact("]) rfl hbraced) rfl)
    · simp only [if_neg hname]
      cases idents.lookup name with
      | none => exact List.forall_mem_nil _
      | some ident => exact List.forall_mem_singleton.mpr rfl

theorem spaced_argumentFragments (idents : List (String × String)) (t : Tool) :
    ∀ g ∈ argumentFragments idents t, spaced g = true := by
  have haddress : spaced (addressFragments idents t.handler) = true :=
    spaced_append (a := [code "_build_url(", literal _, code ", ", literal _, code ", ", literal _, code ", "] ++ _)
      (spaced_append (by simp [spaced]) (spaced_bracedFragments (spaced_inputFragments idents id _))) rfl
  unfold argumentFragments
  simp only [List.forall_mem_append]
  refine ⟨⟨⟨⟨List.forall_mem_singleton.mpr haddress, ?_⟩, ?_⟩, spaced_bodyFragments idents t⟩, ?_⟩
  · exact spaced_named "params=" (spaced_entries idents id _ _)
  · exact spaced_named "headers=" (spaced_entries idents Naming.headerOfInput _ _)
  · exact List.forall_mem_map.mpr fun _ _ => rfl

theorem spaced_functionFragments (t : Tool) (functionName : String) :
    spaced (functionFragments t functionName) = true := by
  unfold functionFragments
  refine spaced_intercalate "\n" ?_
  simp only [List.forall_mem_cons]
  refine ⟨?_, rfl, rfl, rfl, ?_, rfl, List.forall_mem_nil _⟩
  · split <;> simp [spaced]
  · -- behind the method there always is an address
    obtain ⟨groups, hgroups⟩ : ∃ groups, argumentFragments (inputIdentifiers functionName t.inputSchema) t =
        addressFragments (inputIdentifiers functionName t.inputSchema) t.handler :: groups := ⟨_, rfl⟩
    have hall := spaced_argumentFragments (inputIdentifiers functionName t.inputSchema) t
    rw [hgroups] at hall ⊢
    obtain ⟨haddress, hall⟩ := List.forall_mem_cons.mp hall
    refine spaced_append ?_ rfl
    have hrest := spaced_append haddress (spaced_flatMap (f := (code ",\n        " :: ·)) hall)
    simpa [spaced] using hrest

/-! ## The texts of a function -/

def AuthEntry.texts (e : AuthEntry) : List String :=
  match e.lead with
  | .cookie name => [e.key, name ++ "=", e.envVar]
  | _ => [e.key, e.envVar]

def inputsAmong (t : Tool) (names : List String) : List String :=
  names.filter (t.inputSchema.properties.map (·.1)).contains

/-- The texts of a server that the function of a tool holds, in order. -/
def embeddedTexts (t : Tool) (functionName : String) : List String :=
  let h := t.handler
  let entries := authEntries h.auth
  (if functionName = t.name then [] else [t.name]) ++
  [upper h.method, h.baseUrlName, h.baseUrl, h.path] ++ inputsAmong t h.pathParams ++
  inputsAmong t h.queryParams ++ (entries.filter (·.placement = .query)).flatMap (·.texts) ++
  (inputsAmong t h.headerParams).map Naming.headerOfInput ++
  (entries.filter (·.placement = .header)).flatMap (·.texts) ++
  (if h.bodyParam = some bodyObject then bodyInputs t else [])

theorem embedded_fragments (e : AuthEntry) : embedded e.fragments = e.texts := by
  unfold AuthEntry.fragments AuthEntry.valueFragments AuthEntry.texts entryFragments
  cases e.lead <;> rfl

theorem embedded_entries (entries : List AuthEntry) :
    (entries.map (·.fragments)).flatMap embedded = entries.flatMap (·.texts) := by
  rw [List.flatMap_map]
  exact List.flatMap_congr fun e _ => embedded_fragments e

theorem embedded_inputFragments (t : Tool) (functionName : String) (key : String → String) (names : List String) :
    (inputFragments (inputIdentifiers functionName t.inputSchema) key names).flatMap embedded =
      (inputsAmong t names).map key := by
  induction names with
  | nil => rfl
  | cons n names ih =>
    have hinput := isSome_lookup_inputIdentifiers functionName t.inputSchema n
    unfold inputFragments inputsAmong at ih ⊢
    rw [List.filterMap_cons, List.filter_cons, ← hinput]
    cases (inputIdentifiers functionName t.inputSchema).lookup n with
    | none => exact ih
    | some ident => exact congrArg (key n :: ·) ih

theorem embedded_bracedFragments (members : List (List Fragment)) :
    embedded (bracedFragments members) = members.flatMap embedded := by
  simp [bracedFragments]

theorem embedded_named (name : String) (members : List (List Fragment)) :
    (if members.isEmpty then [] else [[code name] ++ bracedFragments members]).flatMap embedded =
      members.flatMap embedded := by
  cases members with
  | nil => rfl
  | cons g members => simp [embedded_bracedFragments]

theorem inputsAmong_bodyInputs (t : Tool) : inputsAmong t (bodyInputs t) = bodyInputs t := by
  refine List.filter_eq_self.mpr fun name hname => ?_
  exact List.contains_iff_mem.mpr (mem_bodyInputs.mp hname).1

theorem embedded_bodyFragments (t : Tool) (functionName : String) :
    (bodyFragments (inputIdentifiers functionName t.inputSchema) t).flatMap embedded =
      if t.handler.bodyParam = some bodyObject then bodyInputs t else [] := by
  unfold bodyFragments
  cases t.handler.bodyParam with
  | none => rfl
  | some param =>
    by_cases hempty : param = ""
    · subst hempty
      rfl
    · have hsome : nonempty (some param) = some param := by simp [nonempty, hempty]
      rw [hsome]
      by_cases hparam : param = bodyObject
      · simp [hparam, embedded_bracedFragments, embedded_inputFragments, inputsAmong_bodyInputs]
      · simp only [if_neg hparam, Option.some.injEq]
        cases (inputIdentifiers functionName t.inputSchema).lookup param <;> rfl

theorem embedded_argumentFragments (t : Tool) (functionName : String) :
    (argumentFragments (inputIdentifiers functionName t.inputSchema) t).flatMap embedded =
      [t.handler.baseUrlName, t.handler.baseUrl, t.handler.path] ++ inputsAmong t t.handler.pathParams ++
      inputsAmong t t.handler.queryParams ++
      ((authEntries t.handler.auth).filter (·.placement = .query)).flatMap (·.texts) ++
      (inputsAmong t t.handler.headerParams).map Naming.headerOfInput ++
      ((authEntries t.handler.auth).filter (·.placement = .header)).flatMap (·.texts) ++
      (if t.handler.bodyParam = some bodyObject then bodyInputs t else []) := by
  have hform : ((formArgument t.handler).map ([code ·])).flatMap embedded = [] := by
    rw [List.flatMap_map]
    exact List.flatMap_eq_nil_iff.mpr fun _ _ => rfl
  unfold argumentFragments queryFragments headerFragments
  simp only [List.flatMap_append, embedded_named, embedded_bodyFragments, embedded_inputFragments, embedded_entries,
    hform, List.flatMap_singleton, List.append_nil, addressFragments, embedded_append, embedded_bracedFragments]
  simp

theorem embedded_functionFragments (t : Tool) (functionName : String) :
    embedded (functionFragments t functionName) = embeddedTexts t functionName := by
  have hcode : ∀ groups : List (List Fragment),
      embedded (groups.flatMap (code ",\n        " :: ·)) = groups.flatMap embedded := by
    intro groups
    induction groups with
    | nil => rfl
    | cons g groups ih => simp [ih]
  unfold functionFragments embeddedTexts
  simp only [embedded_intercalate, List.flatMap_cons, List.flatMap_nil, embedded_append, hcode,
    embedded_argumentFragments]
  split <;> simp

/-- **The literals of a function denote the texts that they were made of, but for characters beyond one unit.** They are
the literals of these texts, one by one, and denote the units of UTF-16 that write each; that is the text just when one
unit writes each character. -/
theorem literals_denote_iff (t : Tool) (functionName : String) :
    function t functionName = written (functionFragments t functionName) ∧
    embedded (functionFragments t functionName) = embeddedTexts t functionName ∧
    ∀ before s after, functionFragments t functionName = before ++ literal s :: after →
      ReadsAs ((Json.quoted s).toList ++ (written after).toList) (s.toList.flatMap units) (written after).toList ∧
      (ReadsAs ((Json.quoted s).toList ++ (written after).toList) (s.toList.map Char.toNat) (written after).toList ↔
        InOneUnit s.toList) := by
  refine ⟨function_eq_written t functionName, embedded_functionFragments t functionName, ?_⟩
  intro before s after h
  have hnext : (written after).toList.head? ≠ some '"' :=
    head_written_of_spaced (h ▸ spaced_functionFragments t functionName)
  exact ⟨Program.readsAs_quoted s hnext, Program.readsAs_text_iff s hnext⟩

def smileTool : Tool := { updateTool with handler := { updateTool.handler with path := "/😀" } }

/-- The path of the tool is read back as three units, of which two are surrogates. -/
theorem literals_denote_iff_smile : ∃ before after,
    functionFragments smileTool "smile" = before ++ literal "/😀" :: after ∧
    ReadsAs ((Json.quoted "/😀").toList ++ (written after).toList) [0x2f, 0xd83d, 0xde00] (written after).toList ∧
    ¬ ReadsAs ((Json.quoted "/😀").toList ++ (written after).toList) [0x2f, 0x1f600] (written after).toList := by
  obtain ⟨-, -, hread⟩ := literals_denote_iff smileTool "smile"
  have hmem : literal "/😀" ∈ functionFragments smileTool "smile" := by decide +kernel
  obtain ⟨before, after, h⟩ := List.append_of_mem hmem
  obtain ⟨hunits, htext⟩ := hread before "/😀" after h
  exact ⟨before, after, h, hunits, fun hcodes => absurd (htext.mp hcodes) (by simp [InOneUnit])⟩

end ToolServer.Emit.Python
