import ToolServer.Proofs.Emit.Credentials

/-!
# Authentication of requests

Scripts and Python programs attach the same credentials, in headers of the same names and in the same order. Whether a
request gets the same ones is another matter: an input that goes into a header of the name of credentials takes their
place in a script and is replaced by them in a Python program, and of several variables for one key of the query a
script sends the last and a Python program the first.
-/

namespace ToolServer.Emit

open Document Text
open Naming (headerOfInput)

/-! ## What a request gets -/

def HeaderValue.isGiven (given : List String) : HeaderValue → Bool
  | .input name => given.contains name
  | .credential _ _ => true

def QueryValue.isGiven (given : List String) : QueryValue → Bool
  | .input name => given.contains name
  | .variable_ _ => true

/-- The headers of an object literal, in which inputs that are not given have no member and `__proto__` is none. -/
def TypeScript.sent (given : List String) (fields : List (String × HeaderValue)) : List (String × HeaderValue) :=
  (Ordered.ofPairs (fields.filter (·.2.isGiven given))).filter (·.1 != "__proto__")

def TypeScript.asked (given : List String) (sets : List (String × QueryValue)) : List (String × QueryValue) :=
  Ordered.ofPairs (sets.filter (·.2.isGiven given))

/-- The headers of a mapping, which inputs that are not given are taken out of afterwards. -/
def Python.sent (given : List String) (fields : List (String × HeaderValue)) : List (String × HeaderValue) :=
  (Ordered.ofPairs fields).filter (·.2.isGiven given)

def Python.asked (given : List String) (members : List (String × QueryValue)) : List (String × QueryValue) :=
  (Ordered.ofPairs members).filter (·.2.isGiven given)

/-- What a request gets under the name of a header, whose case does not matter. -/
def valuesUnder (name : String) (fields : List (String × HeaderValue)) : List HeaderValue :=
  (fields.filter fun e => lower e.1 == lower name).map (·.2)

/-- The variable whose content a request gets under a key of the query. -/
def variableUnder (key : String) (query : List (String × QueryValue)) : Option String :=
  (Ordered.get? key query).bind QueryValue.envVar?

def credentials (fields : List (String × HeaderValue)) : List Credential := fields.filterMap Credential.ofField?

/-- The variables whose content is to be sent under a key of the query, in order. -/
def keyVariables (auth : List Auth) (key : String) : List String :=
  (auth.filter fun a => TypeScript.isQueryKey a && queryKey a == key).map (·.envVar)

def rivals (t : Tool) (c : Credential) : List String :=
  (Python.taken t.inputSchema t.handler.headerParams).filter fun name => lower (headerOfInput name) == lower c.header

/-- Whatever inputs are given, a request gets the same credentials of both programs. -/
structure SameCredentials (t : Tool) : Prop where
  headers : ∀ given ⊆ t.inputSchema.properties.map (·.1), ∀ c ∈ credentials (TypeScript.headerFields t.handler),
    valuesUnder c.header (TypeScript.sent given (TypeScript.headerFields t.handler)) =
      valuesUnder c.header (Python.sent given (Python.headerFields t))
  query : ∀ given ⊆ t.inputSchema.properties.map (·.1), ∀ key,
    variableUnder key (TypeScript.asked given (TypeScript.querySets t.handler)) =
      variableUnder key (Python.asked given (Python.queryMembers t))

/-! ## Queries -/

theorem variableUnder_append {inputs keys : List (String × QueryValue)} (key : String)
    (h : ∀ e ∈ inputs, e.2.envVar? = none) : variableUnder key (Ordered.ofPairs (inputs ++ keys)) =
      (keys.findRev? (·.1 == key)).bind (·.2.envVar?) := by
  rw [variableUnder, Ordered.get?_ofPairs_append, Ordered.get?_ofPairs key keys]
  cases keys.findRev? (·.1 == key) with
  | some e => rfl
  | none =>
    rw [Option.map_none, Option.none_or]
    cases hget : Ordered.get? key (Ordered.ofPairs inputs) with
    | none => rfl
    | some v => exact h _ (Ordered.mem_of_ofPairs (Ordered.pair_mem_of_get? hget))

theorem findRev?_keyed (as : List Auth) (key : String) :
    ((as.map fun a => (queryKey a, QueryValue.variable_ a.envVar)).findRev? (·.1 == key)).bind (·.2.envVar?) =
      (as.findRev? (queryKey · == key)).map (·.envVar) := by
  rw [List.findRev?_eq_find?_reverse, ← List.map_reverse, List.find?_map, List.findRev?_eq_find?_reverse]
  simp only [Function.comp_def]
  cases as.reverse.find? (queryKey · == key) <;> rfl

theorem keyVariables_eq (auth : List Auth) (key : String) : keyVariables auth key =
    ((auth.filter TypeScript.isQueryKey).filter (queryKey · == key)).map (·.envVar) := by
  rw [keyVariables, List.filter_filter]
  simp only [Bool.and_comm]

theorem script_asks (given : List String) (h : Handler) (key : String) :
    variableUnder key (TypeScript.asked given (TypeScript.querySets h)) = (keyVariables h.auth key).getLast? := by
  have hinputs : ∀ e ∈ (h.queryParams.map fun name => (name, QueryValue.input name)).filter (·.2.isGiven given),
      e.2.envVar? = none := fun e he => by
    obtain ⟨name, -, rfl⟩ := List.mem_map.mp (List.mem_of_mem_filter he)
    rfl
  have hkeys : ((h.auth.filter TypeScript.isQueryKey).map fun a => (queryKey a, QueryValue.variable_ a.envVar)).filter
      (·.2.isGiven given) = (h.auth.filter TypeScript.isQueryKey).map fun a => (queryKey a, .variable_ a.envVar) :=
    List.filter_eq_self.mpr (List.forall_mem_map.mpr fun _ _ => rfl)
  rw [TypeScript.asked, TypeScript.querySets, List.filter_append, hkeys, variableUnder_append key hinputs,
    findRev?_keyed, keyVariables_eq, List.getLast?_map, List.findRev?_eq_find?_reverse,
    List.getLast?_eq_head?_reverse, ← List.head?_filter, List.filter_reverse]

/-- Inputs that are taken out have no variable. -/
theorem variableUnder_filter (given : List String) (key : String) (members : List (String × QueryValue)) :
    variableUnder key ((Ordered.ofPairs members).filter (·.2.isGiven given)) =
      variableUnder key (Ordered.ofPairs members) := by
  unfold variableUnder
  rw [Ordered.get?_filter_of_distinct _ _ (Ordered.distinct_ofPairs members)]
  cases Ordered.get? key (Ordered.ofPairs members) with
  | none => rfl
  | some v =>
    cases v with
    | variable_ name => rfl
    | input name => cases h : (QueryValue.input name).isGiven given <;> simp [Option.filter, h, QueryValue.envVar?]

theorem python_asks (given : List String) (t : Tool) (key : String) :
    variableUnder key (Python.asked given (Python.queryMembers t)) = (keyVariables t.handler.auth key).head? := by
  have hinputs : ∀ e ∈ (Python.taken t.inputSchema t.handler.queryParams).map
      (fun name => (name, QueryValue.input name)), e.2.envVar? = none :=
    List.forall_mem_map.mpr fun _ _ => rfl
  rw [Python.asked, variableUnder_filter, Python.queryMembers, variableUnder_append key hinputs,
    Python.filter_query, List.map_map]
  refine (findRev?_keyed _ key).trans ?_
  rw [Ordered.findRev?_firsts, keyVariables_eq, List.head?_map, List.head?_filter]

/-! ## Headers -/

theorem headers_agree (auth : List Auth) :
    ((Python.authEntries auth).filter (·.placement = .header)).map Python.AuthEntry.credential =
      (TypeScript.authHeaders auth).map TypeScript.AuthHeader.credential := by
  rw [Python.filter_header, List.map_map]
  refine List.map_congr_left fun h _ => ?_
  cases h with
  | mk key lead envVar => cases lead <;> rfl

/-- The credentials that are sent in headers, of one name the first. -/
def headerCredentials (auth : List Auth) : List Credential :=
  (TypeScript.authHeaders auth).map TypeScript.AuthHeader.credential

theorem credentials_append (fields more : List (String × HeaderValue)) :
    credentials (fields ++ more) = credentials fields ++ credentials more := List.filterMap_append

theorem credentials_map (cs : List Credential) : credentials (cs.map Credential.field) = cs := by
  rw [credentials, List.filterMap_map]
  exact List.filterMap_some

theorem credentials_inputFields (names : List String) : credentials (inputFields names) = [] := by
  rw [credentials, inputFields, List.filterMap_map]
  exact List.filterMap_eq_nil_iff.mpr fun _ _ => rfl

theorem script_fields (h : Handler) : TypeScript.headerFields h =
    (headerCredentials h.auth).map Credential.field ++ inputFields h.headerParams := by
  rw [headerCredentials, List.map_map]
  rfl

theorem python_fields (t : Tool) : Python.headerFields t =
    inputFields (Python.taken t.inputSchema t.handler.headerParams) ++
      (headerCredentials t.handler.auth).map Credential.field := by
  rw [headerCredentials, ← headers_agree, List.map_map]
  rfl

theorem script_credentials (h : Handler) : credentials (TypeScript.headerFields h) = headerCredentials h.auth := by
  rw [script_fields, credentials_append, credentials_map, credentials_inputFields, List.append_nil]

theorem python_credentials (t : Tool) : credentials (Python.headerFields t) = headerCredentials t.handler.auth := by
  rw [python_fields, credentials_append, credentials_map, credentials_inputFields, List.nil_append]

/-! ## One name -/

def hasName (name : String) (e : String × HeaderValue) : Bool := lower e.1 == lower name

theorem valuesUnder_script (given : List String) (name : String) (fields : List (String × HeaderValue)) :
    valuesUnder name (TypeScript.sent given fields) = (TypeScript.sent given (fields.filter (hasName name))).map (·.2) := by
  have hkeys := Ordered.filter_ofPairs (fun key => lower key == lower name) (fields.filter (·.2.isGiven given))
  unfold valuesUnder TypeScript.sent
  rw [List.filter_comm, hkeys, List.filter_comm _ (hasName name)]
  rfl

theorem valuesUnder_python (given : List String) (name : String) (fields : List (String × HeaderValue)) :
    valuesUnder name (Python.sent given fields) = (Python.sent given (fields.filter (hasName name))).map (·.2) := by
  have hkeys := Ordered.filter_ofPairs (fun key => lower key == lower name) fields
  unfold valuesUnder Python.sent
  rw [List.filter_comm, hkeys]
  rfl

theorem filter_inputFields (name : String) (names : List String) : (inputFields names).filter (hasName name) =
    inputFields (names.filter fun input => lower (headerOfInput input) == lower name) := List.filter_map

theorem filter_given (given names : List String) :
    (inputFields names).filter (·.2.isGiven given) = inputFields (names.filter given.contains) := List.filter_map

/-- Credentials are the only ones of their name. -/
theorem filter_headerCredentials {auth : List Auth} {c : Credential} (h : c ∈ headerCredentials auth) :
    ((headerCredentials auth).map Credential.field).filter (hasName c.header) = [c.field] := by
  obtain ⟨a, ha, rfl⟩ := List.mem_map.mp h
  have hname : hasName a.credential.header ∘ Credential.field ∘ TypeScript.AuthHeader.credential =
      fun b : TypeScript.AuthHeader => lower b.key == lower a.key := rfl
  have hone : (TypeScript.authHeaders auth).filter (fun b => lower b.key == lower a.key) = [a] :=
    Ordered.filter_firsts_key ha
  rw [headerCredentials, List.map_map, List.filter_map, hname, hone]
  rfl

theorem get?_inputFields {names : List String} {key : String} {v : HeaderValue} {c : Credential}
    (h : Ordered.get? key (Ordered.ofPairs (inputFields names)) = some v) : v ≠ c.field.2 := by
  have hmem := Ordered.mem_of_ofPairs (Ordered.pair_mem_of_get? h)
  obtain ⟨name, -, hname⟩ := List.mem_map.mp hmem
  rw [← (Prod.mk.inj hname).2]
  exact HeaderValue.noConfusion

theorem get?_script (c : Credential) (names : List String) (key : String) :
    Ordered.get? key (Ordered.ofPairs (c.field :: inputFields names)) =
      (Ordered.get? key (Ordered.ofPairs (inputFields names))).or (if c.header == key then some c.field.2 else none) :=
  Ordered.get?_ofPairs_append key [c.field] _

theorem get?_python (c : Credential) (names : List String) (key : String) :
    Ordered.get? key (Ordered.ofPairs (inputFields names ++ [c.field])) =
      (if c.header == key then some c.field.2 else none).or (Ordered.get? key (Ordered.ofPairs (inputFields names))) :=
  Ordered.get?_ofPairs_append key _ [c.field]

/-- Credentials reach a member of an object literal only if no input has their very name. -/
theorem mem_script {c : Credential} {names : List String} {key : String}
    (h : (key, c.field.2) ∈ Ordered.ofPairs (c.field :: inputFields names)) :
    c.header = key ∧ Ordered.get? c.header (Ordered.ofPairs (inputFields names)) = none := by
  have hvalue := Ordered.get?_of_mem (Ordered.distinct_ofPairs _) h BEq.rfl
  rw [get?_script] at hvalue
  cases hget : Ordered.get? key (Ordered.ofPairs (inputFields names)) with
  | some v =>
    rw [hget, Option.some_or] at hvalue
    exact absurd (Option.some_inj.mp hvalue) (get?_inputFields hget)
  | none =>
    rw [hget, Option.none_or] at hvalue
    split at hvalue
    · rename_i hkey
      obtain rfl := eq_of_beq hkey
      exact ⟨rfl, hget⟩
    · cases hvalue

/-- Where both programs send the same, credentials come first in a script, so no input comes first in Python. -/
theorem no_rivals {c : Credential} {names : List String}
    (h : ((Ordered.ofPairs (c.field :: inputFields names)).filter (·.1 != "__proto__")).map (·.2) =
      (Ordered.ofPairs (inputFields names ++ [c.field])).map (·.2)) : c.header ≠ "__proto__" ∧ names = [] := by
  have hlast : Ordered.get? c.header (Ordered.ofPairs (inputFields names ++ [c.field])) = some c.field.2 := by
    rw [get?_python, if_pos BEq.rfl, Option.some_or]
  have hmem : c.field.2 ∈ ((Ordered.ofPairs (c.field :: inputFields names)).filter (·.1 != "__proto__")).map (·.2) :=
    h ▸ List.mem_map_of_mem (f := (·.2)) (Ordered.pair_mem_of_get? hlast)
  obtain ⟨⟨key, value⟩, he, rfl⟩ := List.mem_map.mp hmem
  obtain ⟨he, hproto⟩ := List.mem_filter.mp he
  obtain ⟨rfl, hfree⟩ := mem_script he
  refine ⟨by simpa using hproto, ?_⟩
  cases names with
  | nil => rfl
  | cons name names =>
    exfalso
    obtain ⟨w, n, hscript⟩ : ∃ w n, Ordered.ofPairs (c.field :: inputFields (name :: names)) = (c.header, w) :: n :=
      Ordered.putAll_cons _ c.header c.field.2 []
    obtain ⟨v, m, hpython⟩ : ∃ v m, Ordered.ofPairs (inputFields (name :: names) ++ [c.field]) =
      (headerOfInput name, v) :: m := Ordered.putAll_cons _ (headerOfInput name) (HeaderValue.input name) []
    have hw : w = c.field.2 := by
      have hget := get?_script c (name :: names) c.header
      rw [hscript, hfree, Option.none_or, if_pos BEq.rfl, Ordered.get?, if_pos BEq.rfl] at hget
      exact Option.some_inj.mp hget
    have hv : v = c.field.2 := by
      rw [hscript, hpython, List.filter_cons, if_pos hproto, List.map_cons, List.map_cons] at h
      exact (List.cons.inj h).1.symm.trans hw
    have hget := get?_python c (name :: names) (headerOfInput name)
    rw [hpython, Ordered.get?, if_pos BEq.rfl, hv] at hget
    split at hget
    · rename_i hname
      have hkey : headerOfInput name ∈ (inputFields (name :: names)).map (·.1) := List.mem_cons_self ..
      obtain ⟨u, hu⟩ := Ordered.contains_iff.mp (Ordered.contains_ofPairs.mpr hkey)
      rw [← eq_of_beq hname, hfree] at hu
      cases hu
    · rw [Option.none_or] at hget
      exact get?_inputFields hget.symm rfl

/-- Credentials before inputs of their name are what is sent, and alone, only if there are none of these. -/
theorem values_eq_iff (c : Credential) (names : List String) :
    ((Ordered.ofPairs (c.field :: inputFields names)).filter (·.1 != "__proto__")).map (·.2) =
      (Ordered.ofPairs (inputFields names ++ [c.field])).map (·.2) ↔ c.header ≠ "__proto__" ∧ names = [] := by
  refine ⟨no_rivals, ?_⟩
  rintro ⟨hproto, rfl⟩
  have hone : Ordered.ofPairs (c.field :: inputFields []) = [c.field] := rfl
  have hkept : (c.field.1 != "__proto__") = true := bne_iff_ne.mpr hproto
  rw [hone, List.filter_cons, if_pos hkept]
  rfl

/-! ## All requests -/

section
variable {t : Tool} {c : Credential} (h : c ∈ headerCredentials t.handler.auth)
include h

theorem script_values (given : List String) : valuesUnder c.header (TypeScript.sent given
    (TypeScript.headerFields t.handler)) = ((Ordered.ofPairs (c.field :: inputFields
      ((t.handler.headerParams.filter fun name => lower (headerOfInput name) == lower c.header).filter
        given.contains))).filter (·.1 != "__proto__")).map (·.2) := by
  rw [valuesUnder_script, script_fields, List.filter_append, filter_headerCredentials h, filter_inputFields,
    TypeScript.sent, List.filter_append, filter_given]
  rfl

theorem python_values (given : List String) : valuesUnder c.header (Python.sent given (Python.headerFields t)) =
    ((Ordered.ofPairs (inputFields (rivals t c) ++ [c.field])).filter (·.2.isGiven given)).map (·.2) := by
  rw [valuesUnder_python, python_fields, List.filter_append, filter_headerCredentials h, filter_inputFields]
  rfl

/-- A request gets the same under the name of credentials exactly if no input goes into a header of that name. -/
theorem valuesUnder_iff : (∀ given ⊆ t.inputSchema.properties.map (·.1),
    valuesUnder c.header (TypeScript.sent given (TypeScript.headerFields t.handler)) =
      valuesUnder c.header (Python.sent given (Python.headerFields t))) ↔ c.header ≠ "__proto__" ∧ rivals t c = [] := by
  constructor
  · intro hall
    have heq := hall _ (List.Subset.refl _)
    have hgiven : ∀ e ∈ Ordered.ofPairs (inputFields (rivals t c) ++ [c.field]),
        e.2.isGiven (t.inputSchema.properties.map (·.1)) = true := by
      intro e he
      rcases List.mem_append.mp (Ordered.mem_of_ofPairs he) with he | he
      · obtain ⟨name, hname, rfl⟩ := List.mem_map.mp he
        exact (List.mem_filter.mp (List.mem_of_mem_filter hname)).2
      · rw [List.mem_singleton.mp he]
        rfl
    rw [script_values h, python_values h, List.filter_eq_self.mpr hgiven, List.filter_comm] at heq
    exact (values_eq_iff c _).mp heq
  · rintro ⟨hproto, hrivals⟩ given hgiven
    have hnone : (t.handler.headerParams.filter fun name => lower (headerOfInput name) == lower c.header).filter
        given.contains = [] := List.filter_eq_nil_iff.mpr fun name hname hmem => by
      obtain ⟨hparam, hsame⟩ := List.mem_filter.mp hname
      have htaken := List.contains_iff_mem.mpr (hgiven (List.contains_iff_mem.mp hmem))
      have hrival : name ∈ rivals t c := List.mem_filter.mpr ⟨List.mem_filter.mpr ⟨hparam, htaken⟩, hsame⟩
      rw [hrivals] at hrival
      cases hrival
    rw [script_values h, python_values h, hnone, hrivals, (values_eq_iff c []).mpr ⟨hproto, rfl⟩]
    rfl

end

/-- An input of the name of a key takes its place in a script, and gives way to it in a Python program. -/
example : valuesUnder "x-key" (TypeScript.sent ["header_x_key"]
      [("x-key", .credential "" "API_KEY"), ("x-key", .input "header_x_key")]) = [.input "header_x_key"] ∧
    valuesUnder "x-key" (Python.sent ["header_x_key"]
      [("x-key", .input "header_x_key"), ("x-key", .credential "" "API_KEY")]) = [.credential "" "API_KEY"] := by
  decide +kernel

end ToolServer.Emit
