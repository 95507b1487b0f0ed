import ToolServer.Proofs.Emit.Body
import ToolServer.Proofs.Json.Spelling
import ToolServer.Proofs.Ordered

/-!
# Credentials in requests

Both programs choose where credentials go by the type of their scheme, and of several headers of one name both keep
the first. A script gives credentials before the inputs that go into headers, a Python program gives them behind. What
goes into the query a script sets again and again, while a Python program keeps the first.
-/

namespace ToolServer.Emit

open Text

/-- Credentials in a header: its name, what stands in front of them, and the variable that holds them. -/
structure Credential where
  header : String
  lead : String
  variable_ : String

/-- What a header is given: an input, or the content of a variable with what stands in front of it. -/
inductive HeaderValue
  | input (name : String)
  | credential (lead variable_ : String)
deriving DecidableEq

def Credential.field (c : Credential) : String × HeaderValue := (c.header, .credential c.lead c.variable_)

def Credential.ofField? : String × HeaderValue → Option Credential
  | (header, .credential lead variable_) => some ⟨header, lead, variable_⟩
  | (_, .input _) => none

def inputFields (names : List String) : List (String × HeaderValue) :=
  names.map fun name => (Naming.headerOfInput name, .input name)

inductive QueryValue
  | input (name : String)
  | variable_ (name : String)

def QueryValue.envVar? : QueryValue → Option String
  | .input _ => none
  | .variable_ name => some name

def queryKey (a : Auth) : String := (nonempty a.scheme.paramName).getD "api_key"

/-! ## Scripts -/

namespace TypeScript

def Lead.text : Lead → String
  | .bearer => "Bearer "
  | .basic => "Basic "
  | .none => ""
  | .cookie name => name ++ "="

def AuthHeader.credential (h : AuthHeader) : Credential := ⟨h.key, h.lead.text, h.envVar⟩

def credentialLine (c : Credential) : String :=
  let env := envAccess c.variable_ ++ " || ''"
  "        " ++ scriptString c.header ++ ": " ++
    (if c.lead = "" then env else "`" ++ scriptText c.lead ++ "$\x7b" ++ env ++ "\x7d`")

def sendingLine (name header : String) : String :=
  "        ...(" ++ memberAccess "params" name ++ " !== undefined ? \x7b " ++ scriptString header ++
    ": String(" ++ memberAccess "params" name ++ ") \x7d : \x7b\x7d)"

def fieldLine : String × HeaderValue → String
  | (header, .input name) => sendingLine name header
  | (header, .credential lead variable_) => credentialLine ⟨header, lead, variable_⟩

theorem scriptText_append (s t : String) : scriptText (s ++ t) = scriptText s ++ scriptText t := by
  rw [scriptText, String.toList_append, List.flatMap_append, String.ofList_append]
  rfl

theorem line_eq (h : AuthHeader) : h.line = credentialLine h.credential := by
  have hbearer : "`Bearer $\x7b" = "`" ++ scriptText "Bearer " ++ "$\x7b" := by decide
  have hbasic : "`Basic $\x7b" = "`" ++ scriptText "Basic " ++ "$\x7b" := by decide
  have hcookie : scriptText "=" = "=" := by decide
  unfold AuthHeader.line credentialLine AuthHeader.credential
  cases h.lead with
  | bearer => simp [Lead.text, hbearer]
  | basic => simp [Lead.text, hbasic]
  | none => simp [Lead.text]
  | cookie name => simp [Lead.text, scriptText_append, hcookie, String.append_assoc]

/-- The headers that a handler gives, in order. -/
def headerFields (h : Handler) : List (String × HeaderValue) :=
  (authHeaders h.auth).map (·.credential.field) ++ inputFields h.headerParams

def querySets (h : Handler) : List (String × QueryValue) :=
  h.queryParams.map (fun name => (name, .input name)) ++
    (h.auth.filter isQueryKey).map fun a => (queryKey a, .variable_ a.envVar)

def variableLine (key name : String) : String :=
  "      queryParams.set(" ++ scriptString key ++ ", " ++ envAccess name ++ " || '');"

def setLine : String × QueryValue → String
  | (_, .input name) => queryLine name
  | (key, .variable_ name) => variableLine key name

def headerStart : String := "        headers: \x7b"

def headerBlock (fields : List (String × HeaderValue)) : List String :=
  if fields.isEmpty then [] else headerStart :: commaSeparated (fields.map fieldLine) ++ ["        \x7d,"]

def queryBlock (sets : List (String × QueryValue)) : List String :=
  if sets.isEmpty then ["      const fullUrl = url;"]
  else "      const queryParams = new URLSearchParams();" :: sets.map setLine ++
    ["      const fullUrl = queryParams.toString() ? `$\x7burl\x7d?$\x7bqueryParams\x7d` : url;"]

/-- The lines of a handler give these headers and no others, and set this for the query. -/
structure Sends (h : Handler) (fields : List (String × HeaderValue)) (sets : List (String × QueryValue)) : Prop where
  headers : headerBlock fields <:+: handlerLines h
  once : (handlerLines h).count headerStart = if fields.isEmpty then 0 else 1
  query : queryBlock sets <:+: handlerLines h

theorem script_headers (h : Handler) : headerLines h <:+: handlerLines h := by
  unfold handlerLines
  exact List.infix_append _ (headerLines h) _

theorem script_query (h : Handler) : queryLines h <:+: handlerLines h := by
  unfold handlerLines
  simp only [List.append_assoc]
  exact List.infix_append' _ (queryLines h) _

theorem headerBlock_eq (h : Handler) : headerBlock (headerFields h) = headerLines h := by
  have hlines : (headerFields h).map fieldLine =
      (authHeaders h.auth).map AuthHeader.line ++ h.headerParams.map headerLine := by
    rw [headerFields, inputFields, List.map_append, List.map_map, List.map_map]
    exact congrArg (· ++ _) (List.map_congr_left fun a _ => (line_eq a).symm)
  have hempty : (headerFields h).isEmpty =
      ((authHeaders h.auth).map AuthHeader.line ++ h.headerParams.map headerLine).isEmpty := by
    rw [← hlines, List.isEmpty_map]
  unfold headerBlock headerLines
  rw [hempty, hlines]
  rfl

theorem queryBlock_eq (h : Handler) : queryBlock (querySets h) = queryLines h := by
  have hempty : (querySets h).isEmpty = (h.queryParams.isEmpty && (h.auth.filter isQueryKey).isEmpty) := by
    unfold querySets
    cases h.queryParams <;> cases h.auth.filter isQueryKey <;> rfl
  have hlines : (querySets h).map setLine =
      h.queryParams.map queryLine ++ (h.auth.filter isQueryKey).map queryKeyLine := by
    rw [querySets, List.map_append, List.map_map, List.map_map]
    rfl
  unfold queryBlock queryLines
  simp only [hempty, hlines]
  split
  · rfl
  · simp

/-! ### The lines of headers -/

/-- A line that has another character where the start of the headers has its first letter is another line. -/
theorem count_headerStart {lines : List String} (h : ∀ line ∈ lines, line.toList[8]? ≠ some 'h') :
    lines.count headerStart = 0 :=
  List.count_eq_zero.mpr fun hmem => h headerStart hmem rfl

theorem eighth_append {s : String} {c : Char} (h : s.toList[8]? = some c) (t : String) :
    (s ++ t).toList[8]? = some c := by
  obtain ⟨hlength, -⟩ := List.getElem?_eq_some_iff.mp h
  rw [String.toList_append, List.getElem?_append_left hlength, h]

theorem mem_commaSeparated : ∀ {lines : List String} {line : String}, line ∈ commaSeparated lines →
    ∃ l ∈ lines, ∃ mark, line = l ++ mark
  | [l], line, h => ⟨l, List.mem_singleton_self l, "", by rw [String.append_empty]; exact List.mem_singleton.mp h⟩
  | l :: l' :: lines, line, h => by
    rcases List.mem_cons.mp h with rfl | h
    · exact ⟨l, List.mem_cons_self .., ",", rfl⟩
    · obtain ⟨l'', hmem, hline⟩ := mem_commaSeparated h
      exact ⟨l'', List.mem_cons_of_mem l hmem, hline⟩

theorem eighth_fieldLine (e : String × HeaderValue) : ∃ c, (fieldLine e).toList[8]? = some c ∧ c ≠ 'h' := by
  obtain ⟨header, value⟩ := e
  cases value with
  | input name =>
    have hstart : "        ...(".toList[8]? = some '.' := by decide
    refine ⟨'.', ?_, by decide⟩
    unfold fieldLine sendingLine
    exact eighth_append (eighth_append (eighth_append (eighth_append (eighth_append (eighth_append hstart _) _) _) _) _) _
  | credential lead variable_ =>
    have hstart : ("        " ++ scriptString header).toList[8]? = some '\'' := by
      rw [scriptString, String.toList_append, String.toList_append, String.toList_append]
      rfl
    refine ⟨'\'', ?_, by decide⟩
    unfold fieldLine credentialLine
    exact eighth_append (eighth_append hstart _) _

theorem count_headerBlock (fields : List (String × HeaderValue)) :
    (headerBlock fields).count headerStart = if fields.isEmpty then 0 else 1 := by
  have hfields : (commaSeparated (fields.map fieldLine)).count headerStart = 0 := by
    refine count_headerStart fun line hline => ?_
    obtain ⟨l, hl, mark, rfl⟩ := mem_commaSeparated hline
    obtain ⟨e, -, rfl⟩ := List.mem_map.mp hl
    obtain ⟨c, hc, hne⟩ := eighth_fieldLine e
    rw [eighth_append hc]
    exact fun h => hne (Option.some_inj.mp h)
  have hlast : ["        \x7d,"].count headerStart = 0 := by decide
  unfold headerBlock
  split
  · rfl
  · rw [List.cons_append, List.count_cons_self, List.count_append, hfields, hlast]

theorem eighth_setLine (e : String × QueryValue) : ∃ c, (setLine e).toList[8]? = some c ∧ c ≠ 'h' := by
  obtain ⟨key, value⟩ := e
  cases value with
  | input name =>
    have hstart : "      if (".toList[8]? = some ' ' := by decide
    refine ⟨' ', ?_, by decide⟩
    unfold setLine queryLine
    exact eighth_append (eighth_append (eighth_append (eighth_append (eighth_append (eighth_append hstart _) _) _) _) _) _
  | variable_ name =>
    have hstart : "      queryParams.set(".toList[8]? = some 'e' := by decide
    refine ⟨'e', ?_, by decide⟩
    unfold setLine variableLine
    exact eighth_append (eighth_append (eighth_append (eighth_append hstart _) _) _) _

theorem queryBlock_ne (sets : List (String × QueryValue)) : ∀ line ∈ queryBlock sets, line.toList[8]? ≠ some 'h' := by
  intro line hline
  unfold queryBlock at hline
  split at hline
  · rw [List.mem_singleton.mp hline]
    decide
  · rcases List.mem_append.mp hline with hline | hline
    · rcases List.mem_cons.mp hline with rfl | hline
      · decide
      · obtain ⟨e, -, rfl⟩ := List.mem_map.mp hline
        obtain ⟨c, hc, hne⟩ := eighth_setLine e
        rw [hc]
        exact fun h => hne (Option.some_inj.mp h)
    · rw [List.mem_singleton.mp hline]
      decide

theorem making_ne (h : Handler) : ∀ line ∈ (bodyParts h).1, line.toList[8]? ≠ some 'h' := by
  unfold bodyParts
  split
  · exact List.forall_mem_nil _
  · split
    · simp
    · exact List.forall_mem_nil _

theorem count_handlerLines (h : Handler) : (handlerLines h).count headerStart = (headerLines h).count headerStart := by
  unfold handlerLines
  rw [← queryBlock_eq]
  simp only [List.count_append, count_headerStart (queryBlock_ne (querySets h)), count_headerStart (making_ne h)]
  have haddress : ∀ env base path : String, ["      const baseUrl = " ++ env ++ " || " ++ base ++ ";",
      "      const url = `$\x7bbaseUrl\x7d" ++ path ++ "`;"].count headerStart = 0 := fun env base path =>
    count_headerStart (by simp)
  have hcall : ∀ method : String, ["      const result = await apiRequest(\x7b",
      "        method: " ++ method ++ ",", "        url: fullUrl,"].count headerStart = 0 := fun method =>
    count_headerStart (by simp)
  have hbody : ∀ value : String, ["        body: " ++ value ++ ","].count headerStart = 0 := fun value =>
    count_headerStart (by simp)
  have hend : [
    "      \x7d);",
    "",
    "      return \x7b",
    "        content: [\x7b",
    "          type: 'text' as const,",
    "          text: typeof result === 'string' ? result : JSON.stringify(result, null, 2),",
    "        \x7d],",
    "      \x7d;"].count headerStart = 0 := by decide
  rw [haddress, hcall, hend]
  cases (bodyParts h).2 with
  | none => simp
  | some value => simp only [hbody]; omega

theorem sends (h : Handler) : Sends h (headerFields h) (querySets h) where
  headers := headerBlock_eq h ▸ script_headers h
  once := by rw [count_handlerLines, ← headerBlock_eq, count_headerBlock]
  query := queryBlock_eq h ▸ script_query h

end TypeScript

/-! ## Python -/

namespace Python

def Lead.text : Lead → String
  | .bearer => "Bearer "
  | .basic => "Basic "
  | .none => ""
  | .cookie name => name ++ "="

def AuthEntry.credential (e : AuthEntry) : Credential := ⟨e.key, e.lead.text, e.envVar⟩

def credentialText (c : Credential) : String :=
  let env := "_env(" ++ Json.quoted c.variable_ ++ ")"
  entry c.header (if c.lead = "" then env else Json.quoted c.lead ++ " + " ++ env)

theorem text_eq (e : AuthEntry) : e.text = credentialText e.credential := by
  have hbearer : "\"Bearer \" + " = Json.quoted "Bearer " ++ " + " := by decide
  have hbasic : "\"Basic \" + " = Json.quoted "Basic " ++ " + " := by decide
  unfold AuthEntry.text credentialText AuthEntry.credential AuthEntry.value
  cases e.lead with
  | bearer => simp [Lead.text, hbearer]
  | basic => simp [Lead.text, hbasic]
  | none => simp [Lead.text]
  | cookie name => simp [Lead.text]

def fieldText (idents : List (String × String)) : String × HeaderValue → String
  | (header, .input name) => entry header ((idents.lookup name).getD name)
  | (header, .credential lead variable_) => credentialText ⟨header, lead, variable_⟩

def memberText (idents : List (String × String)) : String × QueryValue → String
  | (key, .input name) => entry key ((idents.lookup name).getD name)
  | (key, .variable_ name) => credentialText ⟨key, "", name⟩

def taken (s : InputSchema) (names : List String) : List String := names.filter (s.properties.map (·.1)).contains

/-- The headers that a function gives, in order. -/
def headerFields (t : Tool) : List (String × HeaderValue) :=
  inputFields (taken t.inputSchema t.handler.headerParams) ++
    ((authEntries t.handler.auth).filter (·.placement = .header)).map (·.credential.field)

def queryMembers (t : Tool) : List (String × QueryValue) :=
  (taken t.inputSchema t.handler.queryParams).map (fun name => (name, .input name)) ++
    ((authEntries t.handler.auth).filter (·.placement = .query)).map fun e => (e.key, .variable_ e.envVar)

def isKeyword (keyword argument : String) : Bool := (keyword ++ "=").toList.isPrefixOf argument.toList

def mapping (keyword : String) (members : List String) : List String :=
  if members.isEmpty then [] else [keyword ++ "=" ++ braced members]

/-- The call of a function gives these headers and no others, and these members of the query. -/
structure Sends (functionName : String) (t : Tool) (fields : List (String × HeaderValue))
    (members : List (String × QueryValue)) : Prop where
  headers : (arguments (inputIdentifiers functionName t.inputSchema) t).filter (isKeyword "headers") =
    mapping "headers" (fields.map (fieldText (inputIdentifiers functionName t.inputSchema)))
  query : (arguments (inputIdentifiers functionName t.inputSchema) t).filter (isKeyword "params") =
    mapping "params" (members.map (memberText (inputIdentifiers functionName t.inputSchema)))

def headerEntry (h : TypeScript.AuthHeader) : AuthEntry where
  placement := .header
  key := h.key
  lead := match h.lead with
    | .bearer => .bearer
    | .basic => .basic
    | .none => .none
    | .cookie name => .cookie name
  envVar := h.envVar

def queryEntry (a : Auth) : AuthEntry := ⟨.query, queryKey a, .none, a.envVar⟩

theorem authEntry?_eq (a : Auth) : authEntry? a =
    if TypeScript.isQueryKey a then some (queryEntry a) else (TypeScript.authHeader? a).map headerEntry := by
  unfold authEntry? TypeScript.authHeader? TypeScript.isQueryKey queryEntry headerEntry queryKey
  by_cases hkey : a.scheme.type = "apiKey"
  · by_cases hquery : a.scheme.location = some "query"
    · simp [hkey, hquery]
    · by_cases hcookie : a.scheme.location = some "cookie" <;> simp [hkey, hquery, hcookie]
  · by_cases hhttp : a.scheme.type = "http"
    · by_cases hbearer : a.scheme.scheme = some "bearer"
      · simp [hhttp, hbearer]
      · by_cases hbasic : a.scheme.scheme = some "basic" <;> simp [hhttp, hbearer, hbasic]
    · simp [hkey, hhttp]

theorem authHeader?_of_queryKey {a : Auth} (h : TypeScript.isQueryKey a = true) :
    TypeScript.authHeader? a = none := by
  unfold TypeScript.isQueryKey at h
  simp only [Bool.and_eq_true, beq_iff_eq] at h
  simp [TypeScript.authHeader?, h]

theorem authEntries_eq (auth : List Auth) :
    authEntries auth = Ordered.firsts AuthEntry.identity (auth.filterMap authEntry?) := rfl

theorem filter_header (auth : List Auth) :
    (authEntries auth).filter (·.placement = .header) = (TypeScript.authHeaders auth).map headerEntry := by
  have hplace : ∀ e f : AuthEntry, e.identity = f.identity →
      decide (e.placement = .header) = decide (f.placement = .header) := fun e f h => by
    rw [show e.placement = f.placement from congrArg Prod.fst h]
  have hentries : (auth.filterMap authEntry?).filter (·.placement = .header) =
      (auth.filterMap TypeScript.authHeader?).map headerEntry := by
    rw [List.filter_filterMap, List.map_filterMap]
    refine congrArg (List.filterMap · auth) (funext fun a => ?_)
    rw [authEntry?_eq]
    split
    · rw [authHeader?_of_queryKey ‹_›]
      rfl
    · cases TypeScript.authHeader? a <;> rfl
  rw [authEntries_eq, Ordered.filter_firsts hplace, hentries]
  refine (Ordered.map_firsts _ fun g _ h _ => ?_).symm
  simp [AuthEntry.identity, headerEntry]

theorem filter_query (auth : List Auth) : (authEntries auth).filter (·.placement = .query) =
    (Ordered.firsts queryKey (auth.filter TypeScript.isQueryKey)).map queryEntry := by
  have hplace : ∀ e f : AuthEntry, e.identity = f.identity →
      decide (e.placement = .query) = decide (f.placement = .query) := fun e f h => by
    rw [show e.placement = f.placement from congrArg Prod.fst h]
  have hentries : (auth.filterMap authEntry?).filter (·.placement = .query) =
      (auth.filter TypeScript.isQueryKey).map queryEntry := by
    rw [List.filter_filterMap, ← List.filterMap_eq_filter, List.map_filterMap]
    refine congrArg (List.filterMap · auth) (funext fun a => ?_)
    rw [authEntry?_eq]
    by_cases hkey : TypeScript.isQueryKey a
    · simp [hkey, queryEntry]
    · cases h : TypeScript.authHeader? a <;> simp [hkey, headerEntry, Option.guard, Option.filter]
  rw [authEntries_eq, Ordered.filter_firsts hplace, hentries]
  refine (Ordered.map_firsts _ fun a _ b _ => ?_).symm
  simp [AuthEntry.identity, queryEntry]

theorem inputEntries_eq (functionName : String) (s : InputSchema) (key : String → String) (names : List String) :
    inputEntries (inputIdentifiers functionName s) key names = (taken s names).map
      fun name => entry (key name) (((inputIdentifiers functionName s).lookup name).getD name) := by
  induction names with
  | nil => rfl
  | cons name names ih =>
    rw [inputEntries] at ih ⊢
    rw [taken] at ih ⊢
    rw [List.filterMap_cons, List.filter_cons, ← isSome_lookup_inputIdentifiers functionName]
    cases h : (inputIdentifiers functionName s).lookup name with
    | none => simpa using ih
    | some ident => simp [ih, h]

theorem headerFields_eq (functionName : String) (t : Tool) :
    (headerFields t).map (fieldText (inputIdentifiers functionName t.inputSchema)) =
      inputEntries (inputIdentifiers functionName t.inputSchema) Naming.headerOfInput t.handler.headerParams ++
        ((authEntries t.handler.auth).filter (·.placement = .header)).map AuthEntry.text := by
  rw [headerFields, inputFields, List.map_append, List.map_map, List.map_map, inputEntries_eq]
  exact congrArg _ (List.map_congr_left fun e _ => (text_eq e).symm)

theorem queryMembers_eq (functionName : String) (t : Tool) :
    (queryMembers t).map (memberText (inputIdentifiers functionName t.inputSchema)) =
      inputEntries (inputIdentifiers functionName t.inputSchema) id t.handler.queryParams ++
        ((authEntries t.handler.auth).filter (·.placement = .query)).map AuthEntry.text := by
  rw [queryMembers, List.map_append, List.map_map, List.map_map, inputEntries_eq, filter_query, List.map_map,
    List.map_map]
  refine congrArg _ (List.map_congr_left fun a _ => ?_)
  exact (text_eq (queryEntry a)).symm

/-! ### Arguments under a keyword -/

theorem first_append {s : String} {c : Char} (h : s.toList.head? = some c) (t : String) :
    (s ++ t).toList.head? = some c := by
  rw [String.toList_append, List.head?_append, h]
  rfl

theorem isKeyword_self (keyword value : String) : isKeyword keyword (keyword ++ "=" ++ value) = true := by
  rw [isKeyword, List.isPrefixOf_iff_prefix, String.toList_append (s := keyword ++ "=")]
  exact List.prefix_append ..

/-- An argument that begins with another character is not given under the keyword. -/
theorem not_isKeyword {keyword argument : String} {c d : Char} (h : argument.toList.head? = some d)
    (hkeyword : keyword.toList.head? = some c) (hne : d ≠ c) : ¬ isKeyword keyword argument = true := by
  rw [isKeyword, List.isPrefixOf_iff_prefix]
  rintro ⟨rest, hrest⟩
  rw [← hrest, List.head?_append, first_append hkeyword] at h
  exact hne (Option.some_inj.mp h).symm

theorem first_bodyArgument {idents : List (String × String)} {s : InputSchema} {h : Handler} :
    ∀ a ∈ bodyArgument idents s h, a.toList.head? = some 'b' := by
  unfold bodyArgument
  split
  · exact List.forall_mem_nil _
  · split
    · exact List.forall_mem_singleton.mpr (first_append (first_append (by decide) _) _)
    · split
      · exact List.forall_mem_singleton.mpr (first_append (by decide) _)
      · exact List.forall_mem_nil _

theorem first_formArgument {h : Handler} : ∀ a ∈ formArgument h, a.toList.head? = some 'f' := by
  unfold formArgument
  split
  · exact List.forall_mem_singleton.mpr (by decide)
  · exact List.forall_mem_nil _

theorem filter_mapping (keyword : String) (members : List String) :
    (mapping keyword members).filter (isKeyword keyword) = mapping keyword members := by
  unfold mapping
  split
  · rfl
  · rw [List.filter_cons_of_pos (isKeyword_self ..), List.filter_nil]

theorem filter_mapping_of_ne {keyword other : String} {c d : Char} (hkeyword : keyword.toList.head? = some c)
    (hother : other.toList.head? = some d) (hne : d ≠ c) (members : List String) :
    (mapping other members).filter (isKeyword keyword) = [] := by
  unfold mapping
  split
  · rfl
  · rw [List.filter_cons_of_neg (not_isKeyword (first_append (first_append hother _) _) hkeyword hne), List.filter_nil]

/-- Before the two mappings stand the method and the address, behind them the body. -/
theorem arguments_parts (functionName : String) (t : Tool) : ∃ address,
    (∀ a ∈ address, a.toList.head? = some '"' ∨ a.toList.head? = some '_') ∧
    arguments (inputIdentifiers functionName t.inputSchema) t = address ++
      mapping "params" ((queryMembers t).map (memberText (inputIdentifiers functionName t.inputSchema))) ++
      mapping "headers" ((headerFields t).map (fieldText (inputIdentifiers functionName t.inputSchema))) ++
      bodyArgument (inputIdentifiers functionName t.inputSchema) t.inputSchema t.handler ++ formArgument t.handler := by
  refine ⟨(arguments (inputIdentifiers functionName t.inputSchema) t).take 2, ?_, ?_⟩
  · refine List.forall_mem_cons.mpr ⟨.inl ?_, List.forall_mem_singleton.mpr (.inr ?_)⟩
    · rw [Json.toList_quoted]
      rfl
    · have hstart : "_build_url(".toList.head? = some '_' := by decide
      exact first_append (first_append (first_append (first_append (first_append (first_append (first_append (first_append
        hstart _) _) _) _) _) _) _) _
  · rw [headerFields_eq, queryMembers_eq]
    rfl

theorem filter_arguments {keyword : String} {c : Char} (hkeyword : keyword.toList.head? = some c)
    (hc : c ∉ ['"', '_', 'b', 'f']) (functionName : String) (t : Tool) :
    (arguments (inputIdentifiers functionName t.inputSchema) t).filter (isKeyword keyword) =
      (mapping "params" ((queryMembers t).map (memberText (inputIdentifiers functionName t.inputSchema)))).filter
        (isKeyword keyword) ++
      (mapping "headers" ((headerFields t).map (fieldText (inputIdentifiers functionName t.inputSchema)))).filter
        (isKeyword keyword) := by
  have hnone : ∀ {as : List String}, (∀ a ∈ as, ∃ d ∈ ['"', '_', 'b', 'f'], a.toList.head? = some d) →
      as.filter (isKeyword keyword) = [] := fun has => List.filter_eq_nil_iff.mpr fun a ha => by
    obtain ⟨d, hd, hfirst⟩ := has a ha
    exact not_isKeyword hfirst hkeyword fun h => hc (h ▸ hd)
  obtain ⟨address, haddress, hall⟩ := arguments_parts functionName t
  rw [hall, List.filter_append, List.filter_append, List.filter_append, List.filter_append,
    hnone fun a ha => ⟨'f', by decide, first_formArgument a ha⟩,
    hnone fun a ha => ⟨'b', by decide, first_bodyArgument a ha⟩,
    hnone fun a ha => (haddress a ha).elim (fun h => ⟨'"', by decide, h⟩) fun h => ⟨'_', by decide, h⟩,
    List.nil_append, List.append_nil, List.append_nil]

theorem sends (functionName : String) (t : Tool) : Sends functionName t (headerFields t) (queryMembers t) where
  headers := by
    rw [filter_arguments (c := 'h') (by decide) (by decide), filter_mapping,
      filter_mapping_of_ne (c := 'h') (d := 'p') (by decide) (by decide) (by decide), List.nil_append]
  query := by
    rw [filter_arguments (c := 'p') (by decide) (by decide), filter_mapping,
      filter_mapping_of_ne (c := 'p') (d := 'h') (by decide) (by decide) (by decide), List.append_nil]

end Python

end ToolServer.Emit
