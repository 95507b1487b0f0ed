import ToolServer.Proofs.Api.Stages
import ToolServer.Proofs.Ordered
import ToolServer.Proofs.Tool.Mapped

/-!
# Gathered inputs

What is gathered for the tool of an operation: its parameters by place, the names of its inputs, and the
names that are required. The parameters come one at a time, and the body last.
-/

namespace ToolServer

open Document Schema Api
open Inputs (inputName)

/-! ## Required names -/

section
variable {asked vs : List Value}

/-- The values are those asked for, one of each that are equal. -/
structure Lists (asked vs : List Value) : Prop where
  sound : ∀ v ∈ vs, v ∈ asked
  complete : ∀ v ∈ asked, ∃ w ∈ vs, v = w ∨ (v == w) = true
  apart : vs.Pairwise fun v w => (w == v) = false

theorem Lists.nil : Lists [] [] := ⟨by simp, by simp, .nil⟩

theorem lists_require {i : Inputs} (h : Lists asked i.required) (name : Value) :
    Lists (asked ++ [name]) (i.require name).required := by
  have hsound : ∀ v ∈ i.required, v ∈ asked ++ [name] := fun v hv => List.mem_append_left _ (h.sound v hv)
  unfold Inputs.require
  by_cases hname : i.required.contains name = true
  · rw [if_pos hname]
    refine ⟨hsound, fun v hv => ?_, h.apart⟩
    rcases List.mem_append.mp hv with hv | hv
    · exact h.complete v hv
    · rw [List.contains_eq_any_beq] at hname
      obtain ⟨w, hw, heq⟩ := List.any_eq_true.mp hname
      exact ⟨w, hw, .inr (List.mem_singleton.mp hv ▸ heq)⟩
  · rw [if_neg hname]
    constructor
    · intro v hv
      rcases List.mem_append.mp hv with hv | hv
      · exact hsound v hv
      · exact List.mem_append_right _ hv
    · intro v hv
      rcases List.mem_append.mp hv with hv | hv
      · obtain ⟨w, hw, heq⟩ := h.complete v hv
        exact ⟨w, List.mem_append_left _ hw, heq⟩
      · exact ⟨v, List.mem_append_right _ hv, .inl rfl⟩
    · refine List.pairwise_append.mpr ⟨h.apart, List.pairwise_singleton .., fun v hv w hw => ?_⟩
      rw [List.contains_eq_any_beq, List.any_eq_true] at hname
      rw [List.mem_singleton.mp hw]
      exact Bool.eq_false_iff.mpr fun heq => hname ⟨v, hv, heq⟩

theorem lists_requireAll : ∀ (names : List Value) {asked : List Value} {i : Inputs}, Lists asked i.required →
    Lists (asked ++ names) (names.foldl Inputs.require i).required
  | [], _, _, h => by simpa using h
  | name :: names, _, _, h => by
    rw [List.append_cons]
    exact lists_requireAll names (lists_require h name)

theorem require_frame (i : Inputs) (name : Value) :
    i.require name = { i with required := (i.require name).required } := by
  unfold Inputs.require
  split <;> rfl

theorem requireAll_frame : ∀ (names : List Value) (i : Inputs),
    names.foldl Inputs.require i = { i with required := (names.foldl Inputs.require i).required }
  | [], _ => rfl
  | name :: names, i => by
    rw [List.foldl_cons, requireAll_frame names, require_frame i name]

end

/-! ## Parameters -/

structure Placed (ps : List Parameter) (i : Inputs) : Prop where
  paths : i.pathParams = (ps.filter (·.location = "path")).map (·.name)
  queries : i.queryParams = (ps.filter (·.location = "query")).map (·.name)
  headers : i.headerParams = (ps.filter (·.location = "header")).map inputName
  body : i.bodyParam = none
  keys : ∀ name, Ordered.contains name i.properties = true ↔
    name ∈ (ps.filter (·.location ≠ "cookie")).map inputName
  required : Lists (((ps.filter (·.location ≠ "cookie")).filter (·.required)).map (.text <| inputName ·)) i.required

theorem placed_nil : Placed [] {} := ⟨rfl, rfl, rfl, rfl, by simp [Ordered.contains], .nil⟩

theorem route_eq (i : Inputs) (p : Parameter) : i.route p = { i with
    pathParams := i.pathParams ++ ([p].filter (·.location = "path")).map (·.name)
    queryParams := i.queryParams ++ ([p].filter (·.location = "query")).map (·.name)
    headerParams := i.headerParams ++ ([p].filter (·.location = "header")).map inputName } := by
  unfold Inputs.route
  by_cases hpath : p.location = "path"
  · simp [hpath]
  · by_cases hquery : p.location = "query"
    · simp [hquery]
    · by_cases hheader : p.location = "header"
      · simp [hheader]
      · simp [hpath, hquery, hheader]

theorem addParameter_placed {ps : List Parameter} {i : Inputs} (h : Placed ps i) (p : Parameter) :
    Gives (i.addParameter p) (Placed (ps ++ [p])) := by
  unfold Inputs.addParameter
  by_cases hcookie : p.location = "cookie"
  · rw [if_pos hcookie]
    refine .ok ⟨?_, ?_, ?_, h.body, ?_, ?_⟩
    · simp [h.paths, hcookie]
    · simp [h.queries, hcookie]
    · simp [h.headers, hcookie]
    · intro name
      simpa [hcookie] using h.keys name
    · simpa [hcookie] using h.required
  · rw [if_neg hcookie]
    refine Gives.any fun schema => .ok ?_
    have hkeys : ∀ name, Ordered.contains name (Ordered.put (inputName p) schema i.properties) = true ↔
        name ∈ ((ps ++ [p]).filter (·.location ≠ "cookie")).map inputName := by
      intro name
      rw [Ordered.contains_put, h.keys name, List.filter_append, List.map_append, List.mem_append, or_comm]
      simp [hcookie]
    have hrequired : ∃ required, (if p.required then (i.put (inputName p) schema).require (.text (inputName p))
        else i.put (inputName p) schema) = { i.put (inputName p) schema with required } ∧
        Lists ((((ps ++ [p]).filter (·.location ≠ "cookie")).filter (·.required)).map
          (.text <| inputName ·)) required := by
      by_cases hrequired : p.required = true
      · rw [if_pos hrequired]
        refine ⟨_, require_frame .., ?_⟩
        simpa [hcookie, hrequired] using
          lists_require (i := i.put (inputName p) schema) h.required (.text (inputName p))
      · rw [if_neg hrequired]
        refine ⟨_, rfl, ?_⟩
        simpa [hcookie, hrequired] using h.required
    obtain ⟨required, heq, hrequired⟩ := hrequired
    rw [heq, route_eq]
    refine ⟨?_, ?_, ?_, h.body, hkeys, hrequired⟩
    · rw [List.filter_append, List.map_append, ← h.paths]
      rfl
    · rw [List.filter_append, List.map_append, ← h.queries]
      rfl
    · rw [List.filter_append, List.map_append, ← h.headers]
      rfl

/-! ## The body -/

def Api.RequestBody.hoisted (b : RequestBody) : Bool :=
  kind b.schema = .object && (Entries.get b.schema "properties").isTruthy

def Api.RequestBody.fields (b : RequestBody) : List String :=
  match Entries.get b.schema "properties" with
  | .map properties => properties.map (·.1.display)
  | _ => []

def Api.RequestBody.inputNames (b : RequestBody) : List String := if b.hoisted then b.fields else ["body"]

def Api.RequestBody.requiredNames (b : RequestBody) : List Value :=
  if b.hoisted then
    match ((Entries.get? b.schema "required").getD (.list [])).elements with
    | .ok names => names
    | .error _ => []
  else if b.required then [.text "body"]
  else []

def Api.Endpoint.taken (e : Endpoint) : List Parameter := e.parameters.filter (·.location ≠ "cookie")

/-- The inputs of an operation, as often as something asks for each. -/
def Api.Endpoint.inputNames (e : Endpoint) : List String :=
  e.taken.map inputName ++ (e.requestBody.map RequestBody.inputNames).getD []

def Api.Endpoint.requiredNames (e : Endpoint) : List Value :=
  (e.taken.filter (·.required)).map (.text <| inputName ·) ++ (e.requestBody.map RequestBody.requiredNames).getD []

structure Gathered (e : Endpoint) (i : Inputs) : Prop where
  paths : i.pathParams = (e.parameters.filter (·.location = "path")).map (·.name)
  queries : i.queryParams = (e.parameters.filter (·.location = "query")).map (·.name)
  headers : i.headerParams = (e.parameters.filter (·.location = "header")).map inputName
  body : i.bodyParam = e.requestBody.map fun b => if b.hoisted then bodyObject else "body"
  keys : ∀ name, Ordered.contains name i.properties = true ↔ name ∈ e.inputNames
  required : Lists e.requiredNames i.required

theorem addField_put (i : Inputs) (field : Scalar × Value) :
    Gives (i.addField field) (fun j => ∃ p, j = i.put field.1.display p) := by
  unfold Inputs.addField
  exact Gives.any fun p => .ok ⟨p, rfl⟩

theorem addFields_put (i : Inputs) (fields : Entries) : Gives (fields.foldlM Inputs.addField i) (fun j =>
    (∃ properties, j = { i with properties }) ∧ ∀ name, Ordered.contains name j.properties = true ↔
      Ordered.contains name i.properties = true ∨ name ∈ fields.map (·.1.display)) := by
  refine Gives.foldlM (I := fun (before : Entries) j => (∃ properties, j = { i with properties }) ∧
    ∀ name, Ordered.contains name j.properties = true ↔
      Ordered.contains name i.properties = true ∨ name ∈ before.map (·.1.display)) ?_
    ⟨⟨i.properties, rfl⟩, by simp⟩
  rintro before field - j ⟨⟨properties, rfl⟩, hkeys⟩
  refine (addField_put _ field).mono ?_
  rintro k ⟨p, rfl⟩
  refine ⟨⟨_, rfl⟩, fun name => ?_⟩
  rw [List.map_append, List.mem_append, ← or_assoc, ← hkeys name, or_comm]
  exact Ordered.contains_put.trans (by simp)

section
variable {e : Endpoint} {i : Inputs} {body : RequestBody} (h : Placed e.parameters i)
  (hbody : e.requestBody = some body)
include h hbody

theorem gathered_of_body (properties : List (String × Property))
    (hkeys : ∀ name, Ordered.contains name properties = true ↔
      Ordered.contains name i.properties = true ∨ name ∈ body.inputNames) :
    Gathered e { body.requiredNames.foldl Inputs.require { i with properties } with
      bodyParam := some (if body.hoisted then bodyObject else "body") } := by
  rw [requireAll_frame]
  refine ⟨h.paths, h.queries, h.headers, ?_, fun name => ?_, ?_⟩
  · rw [hbody]
    rfl
  · rw [hkeys name, h.keys name, Endpoint.inputNames, hbody]
    exact List.mem_append.symm
  · rw [Endpoint.requiredNames, hbody]
    exact lists_requireAll _ h.required

theorem addBody_fields (hhoisted : body.hoisted = true) : Gives (i.addBody body) (Gathered e) := by
  unfold Inputs.addBody
  refine (if_pos hhoisted).symm ▸ ?_
  have hmembers : Gives (Entries.get body.schema "properties").members
      (fun fields => body.fields = fields.map (·.1.display)) := by
    unfold RequestBody.fields
    cases Entries.get body.schema "properties" with
    | map fields => exact .ok rfl
    | _ => exact .error _
  have hnames : Gives ((Entries.get? body.schema "required").getD (.list [])).elements
      (fun names => body.requiredNames = names) := by
    intro names hnames
    rw [RequestBody.requiredNames, if_pos hhoisted, hnames]
  refine hmembers.bind fun fields hfields => (addFields_put i fields).bind ?_
  rintro j ⟨⟨properties, rfl⟩, hkeys⟩
  refine hnames.bind fun names hnames => .ok ?_
  rw [← hfields] at hkeys
  rw [← hnames]
  have hfinal := gathered_of_body h hbody properties (by simpa [RequestBody.inputNames, hhoisted] using hkeys)
  rwa [if_pos hhoisted] at hfinal

theorem addBody_whole (hhoisted : ¬ body.hoisted = true) : Gives (i.addBody body) (Gathered e) := by
  unfold Inputs.addBody
  refine (if_neg hhoisted).symm ▸ ?_
  refine Gives.any fun p => .ok ?_
  have hkeys : ∀ name, Ordered.contains name (Ordered.put "body" p i.properties) = true ↔
      Ordered.contains name i.properties = true ∨ name ∈ body.inputNames := by
    intro name
    rw [Ordered.contains_put, or_comm, RequestBody.inputNames, if_neg hhoisted, List.mem_singleton]
  have hrequired : (if body.required then (i.put "body" p).require (.text "body") else i.put "body" p) =
      body.requiredNames.foldl Inputs.require (i.put "body" p) := by
    rw [RequestBody.requiredNames, if_neg hhoisted]
    split <;> rfl
  have hfinal := gathered_of_body h hbody _ hkeys
  rw [if_neg hhoisted] at hfinal
  simp only [hrequired]
  exact hfinal

end

theorem gather_gathered (e : Endpoint) : Gives (gather e) (Gathered e) := by
  unfold gather
  have hrun : Gives (e.parameters.foldlM Inputs.addParameter {}) (Placed e.parameters) :=
    Gives.foldlM (I := Placed) (fun _ p _ _ h => addParameter_placed h p) placed_nil
  refine hrun.bind fun i h => ?_
  cases hbody : e.requestBody with
  | some body =>
    by_cases hhoisted : body.hoisted = true
    · exact addBody_fields h hbody hhoisted
    · exact addBody_whole h hbody hhoisted
  | none =>
    refine .ok ⟨h.paths, h.queries, h.headers, ?_, fun name => ?_, ?_⟩
    · rw [h.body, hbody]
      rfl
    · rw [h.keys name]
      simp [Endpoint.inputNames, Endpoint.taken, hbody]
    · simpa [Endpoint.requiredNames, Endpoint.taken, hbody] using h.required

/-! ## What holds of every input -/

def Api.RequestBody.inputSchemas (b : RequestBody) : List Value :=
  if b.hoisted then
    match Entries.get b.schema "properties" with
    | .map properties => properties.map (·.2)
    | _ => []
  else [.map b.schema]

def Api.Endpoint.inputSchemas (e : Endpoint) : List Value :=
  e.taken.map (.map ·.schema) ++ (e.requestBody.map RequestBody.inputSchemas).getD []

/-- Every input has a property, and no two inputs have one name. -/
structure Inputs.Each (P : Property → Prop) (i : Inputs) : Prop where
  properties : ∀ p ∈ i.properties, P p.2
  distinct : Ordered.Distinct i.properties

namespace Inputs.Each

variable {P : Property → Prop} {i : Inputs} (h : Each P i)
include h

theorem put (name : String) {p : Property} (hp : P p) : Each P (i.put name p) where
  properties q hq := by
    rcases Ordered.mem_put hq with hq | ⟨hv, -⟩
    · exact h.properties q hq
    · exact hv ▸ hp
  distinct := Ordered.distinct_put name p h.distinct

theorem of_properties {j : Inputs} (heq : j.properties = i.properties) : Each P j where
  properties := heq ▸ h.properties
  distinct := heq ▸ h.distinct

theorem addParameter {p : Parameter} (hp : p.location ≠ "cookie" →
    ∀ description, Gives (Property.ofValue description (.map p.schema)) P) : Gives (i.addParameter p) (Each P) := by
  unfold Inputs.addParameter
  by_cases hcookie : p.location = "cookie"
  · rw [if_pos hcookie]
    exact .ok h
  · rw [if_neg hcookie]
    refine (hp hcookie _).bind fun q hq => .ok ?_
    apply (h.put (inputName p) hq).of_properties
    rw [route_eq]
    split
    · rw [require_frame]
    · rfl

theorem addBody {body : RequestBody} (hbody : ∀ v ∈ body.inputSchemas,
    ∀ description, Gives (Property.ofValue description v) P) : Gives (i.addBody body) (Each P) := by
  unfold RequestBody.inputSchemas at hbody
  unfold Inputs.addBody
  by_cases hhoisted : body.hoisted = true
  · rw [if_pos hhoisted] at hbody
    refine (if_pos hhoisted).symm ▸ ?_
    cases hproperties : Entries.get body.schema "properties" with
    | map fields =>
      rw [hproperties] at hbody
      have hfields : Gives (fields.foldlM Inputs.addField i) (Each P) := by
        refine Gives.foldlM_const (fun field hfield j hj => ?_) h
        exact (hbody field.2 (List.mem_map_of_mem hfield) none).bind fun p hp => .ok (hj.put _ hp)
      refine hfields.bind fun j hj => ?_
      refine Gives.any fun names => .ok ?_
      exact hj.of_properties (by rw [requireAll_frame])
    | _ => exact .error _
  · rw [if_neg hhoisted] at hbody
    refine (if_neg hhoisted).symm ▸ ?_
    refine (hbody _ (List.mem_singleton_self _) _).bind fun q hq => .ok ?_
    apply (h.put "body" hq).of_properties
    dsimp only
    split
    · rw [require_frame]
    · rfl

end Inputs.Each

/-- **What every schema of an input gives, every gathered input has.** -/
theorem gather_each {P : Property → Prop} {e : Endpoint} (h : ∀ v ∈ e.inputSchemas, ∀ description,
    Gives (Property.ofValue description v) P) : Gives (gather e) (Inputs.Each P) := by
  have hempty : Inputs.Each P {} := ⟨List.forall_mem_nil _, .nil⟩
  have hparameters : Gives (e.parameters.foldlM Inputs.addParameter {}) (Inputs.Each P) := by
    refine Gives.foldlM_const (fun p hp i hi => hi.addParameter fun hcookie => ?_) hempty
    have htaken : p ∈ e.taken := List.mem_filter.mpr ⟨hp, by simpa using hcookie⟩
    exact h _ (List.mem_append_left _ (List.mem_map_of_mem htaken))
  unfold gather
  refine hparameters.bind fun i hi => ?_
  cases hbody : e.requestBody with
  | none => exact .ok hi
  | some body =>
    refine hi.addBody fun v hv => h v (List.mem_append_right _ ?_)
    rw [hbody]
    exact hv

/-- What holds of the schemas of an operation and goes down to properties holds of the schemas of inputs. -/
theorem inputSchemas_each {P : Value → Prop} {e : Endpoint} (hschemas : ∀ s ∈ e.schemas, P (.map s))
    (hfields : ∀ schema fields, P (.map schema) → Entries.get? schema "properties" = some (.map fields) →
      ∀ field ∈ fields, P field.2) : ∀ v ∈ e.inputSchemas, P v := by
  intro v hv
  rcases List.mem_append.mp hv with hv | hv
  · obtain ⟨p, hp, rfl⟩ := List.mem_map.mp hv
    have hp : p ∈ e.parameters := List.mem_of_mem_filter hp
    exact hschemas _ (List.mem_append_left _ (List.mem_append_left _ (List.mem_map_of_mem hp)))
  · cases hbody : e.requestBody with
    | none =>
      rw [hbody] at hv
      cases hv
    | some body =>
      rw [hbody] at hv
      have hv : v ∈ body.inputSchemas := hv
      have hschema : P (.map body.schema) := by
        refine hschemas _ (List.mem_append_left _ (List.mem_append_right _ ?_))
        simp [hbody]
      unfold RequestBody.inputSchemas at hv
      split at hv
      · split at hv
        · rename_i fields hget
          obtain ⟨field, hfield, rfl⟩ := List.mem_map.mp hv
          unfold Entries.get at hget
          cases hproperties : Entries.get? body.schema "properties" with
          | none =>
            rw [hproperties] at hget
            cases hget
          | some w =>
            rw [hproperties] at hget
            obtain rfl : w = .map fields := hget
            exact hfields body.schema fields hschema hproperties field hfield
        · cases hv
      · exact List.mem_singleton.mp hv ▸ hschema

/-! ## Tools -/

structure TakesFrom (e : Endpoint) (t : Tool) : Prop where
  paths : t.handler.pathParams = (e.parameters.filter (·.location = "path")).map (·.name)
  queries : t.handler.queryParams = (e.parameters.filter (·.location = "query")).map (·.name)
  headers : t.handler.headerParams = (e.parameters.filter (·.location = "header")).map inputName
  body : t.handler.bodyParam = e.requestBody.map fun b => if b.hoisted then bodyObject else "body"
  keys : ∀ name, name ∈ t.inputSchema.properties.map (·.1) ↔ name ∈ e.inputNames
  required : ∃ vs, Lists e.requiredNames vs ∧ texts? vs = some t.inputSchema.required

theorem toolOf_takesFrom (d : Description) (e : Endpoint) : Gives (toolOf d e) (TakesFrom e) := by
  unfold toolOf
  refine (gather_gathered e).bind fun i h => ?_
  have hrequired : Gives (requiredTexts i.required) (fun ts => texts? i.required = some ts) := checked_gives _ _
  refine hrequired.bind fun ts hts => .ok ?_
  refine ⟨h.paths, h.queries, h.headers, h.body, fun name => ?_, i.required, h.required, hts⟩
  exact Ordered.mem_keys_iff.trans (h.keys name)

theorem MappedFrom.takesFrom {d : Description} {e : Endpoint} {t : Tool} (h : MappedFrom d e t) :
    TakesFrom e t := by
  obtain ⟨u, hu, heq⟩ := h
  have hfrom : TakesFrom e u := toolOf_takesFrom d e u hu
  rw [heq]
  exact ⟨hfrom.paths, hfrom.queries, hfrom.headers, hfrom.body, hfrom.keys, hfrom.required⟩

/-! ## Claimed names -/

/-- The inputs that do not go to the body. -/
def Handler.claimed (h : Handler) : List String := h.pathParams ++ h.queryParams ++ h.headerParams

def places : List String := ["path", "query", "header", "cookie"]

theorem TakesFrom.mem_claimed {e : Endpoint} {t : Tool} (h : TakesFrom e t) (name : String) :
    name ∈ t.handler.claimed ↔
      ∃ p ∈ e.parameters, p.location ∈ ["path", "query", "header"] ∧ inputName p = name := by
  rw [Handler.claimed, h.paths, h.queries, h.headers, List.append_assoc, List.mem_append, List.mem_append]
  constructor
  · rintro (hname | hname | hname)
    all_goals
      obtain ⟨p, hp, rfl⟩ := List.mem_map.mp hname
      obtain ⟨hp, hplace⟩ := List.mem_filter.mp hp
      have hplace : p.location = _ := of_decide_eq_true hplace
      exact ⟨p, hp, by simp [hplace], by simp [inputName, hplace]⟩
  · rintro ⟨p, hp, hplace, rfl⟩
    simp only [List.mem_cons, List.not_mem_nil, or_false] at hplace
    rcases hplace with hplace | hplace | hplace
    · exact .inl (List.mem_map.mpr ⟨p, List.mem_filter.mpr ⟨hp, by simp [hplace]⟩, by simp [inputName, hplace]⟩)
    · exact .inr (.inl (List.mem_map.mpr
        ⟨p, List.mem_filter.mpr ⟨hp, by simp [hplace]⟩, by simp [inputName, hplace]⟩))
    · exact .inr (.inr (List.mem_map.mpr ⟨p, List.mem_filter.mpr ⟨hp, by simp [hplace]⟩, rfl⟩))

end ToolServer
