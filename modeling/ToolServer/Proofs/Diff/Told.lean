import ToolServer.Proofs.Diff.Emitted
import ToolServer.Proofs.Diff.Names

/-!
# What is told of a name

Where JSON represents all enumerations the comparison succeeds. Of a tool in one version only it tells that it is
new or gone, and of a tool in both at most that it differs; of variables, whether they are new or gone.
-/

namespace ToolServer

def Config.RepresentableEnums (c : Config) : Prop := ∀ t ∈ c.tools, Diff.RepresentableEnums t.inputSchema

theorem Config.toolNamed_mem {c : Config} {name : String} {t : Tool} (h : c.toolNamed name = some t) :
    t ∈ c.tools := by
  rw [Config.toolNamed, List.findRev?_eq_find?_reverse] at h
  exact List.mem_reverse.mp (List.mem_of_find?_eq_some h)

theorem Config.toolNamed_name {c : Config} {name : String} {t : Tool} (h : c.toolNamed name = some t) :
    t.name = name := by
  rw [toolNamed, List.findRev?_eq_find?_reverse] at h
  simpa using List.find?_some h

theorem Config.toolNamed_of_mem {c : Config} (hc : (c.tools.map (·.name)).Nodup) {t : Tool} (ht : t ∈ c.tools) :
    c.toolNamed t.name = some t := by
  obtain ⟨u, hu⟩ : ∃ u, c.toolNamed t.name = some u := by
    rw [← Option.isSome_iff_exists, toolNamed, List.findRev?_eq_find?_reverse, List.find?_isSome]
    exact ⟨t, List.mem_reverse.mpr ht, beq_self_eq_true t.name⟩
  have heq : u = t := List.inj_on_of_nodup_map hc (toolNamed_mem hu) ht (toolNamed_name hu)
  rw [hu, heq]

namespace Diff

open Ordered

/-! ## Tools of both versions -/

theorem toolDifferences_isOk {t u : Tool} : (∃ ds, toolDifferences t u = .ok ds) ↔
    EnumsTold t.inputSchema u.inputSchema.properties :=
  exists_map_ok_iff.trans schemaDifferences_isOk

def modification? (old : List (String × Tool)) (e : String × Tool) : Option Change :=
  match get? e.1 old with
  | some t =>
    match toolDifferences t e.2 with
    | .ok ds => if ds.isEmpty then none else some (.toolModified e.1 (ds.map (·.detail)))
    | .error _ => none
  | none => none

def Comparable (old new : List (String × Tool)) : Prop :=
  ∀ e ∈ new, ∀ t, get? e.1 old = some t → ∃ ds, toolDifferences t e.2 = .ok ds

section
variable {old rest : List (String × Tool)} {name : String} {t u : Tool}

theorem modifiedTools_absent (h : get? name old = none) :
    modifiedTools old ((name, u) :: rest) = modifiedTools old rest := by
  rw [modifiedTools, h]
  cases modifiedTools old rest <;> rfl

theorem modifiedTools_present (h : get? name old = some t) : modifiedTools old ((name, u) :: rest) = do
    let ds ← toolDifferences t u
    let more ← modifiedTools old rest
    return (if ds.isEmpty then [] else [.toolModified name (ds.map (·.detail))]) ++ more := by
  rw [modifiedTools, h]
  rfl

end

theorem modifiedTools_eq {old : List (String × Tool)} : ∀ {new : List (String × Tool)}, Comparable old new →
    modifiedTools old new = .ok (new.filterMap (modification? old))
  | [], _ => rfl
  | (name, u) :: rest, h => by
    obtain ⟨hhere, hrest⟩ := List.forall_mem_cons.mp h
    have ih := modifiedTools_eq hrest
    cases hget : get? name old with
    | none => simp [modifiedTools_absent hget, ih, modification?, hget]
    | some t =>
      obtain ⟨ds, hds⟩ := hhere t hget
      rw [modifiedTools_present hget, hds, ih]
      cases ds with
      | nil => simp [modification?, hget, hds, bind, Except.bind, pure, Except.pure]
      | cons x ds => simp [modification?, hget, hds, bind, Except.bind, pure, Except.pure]

theorem comparable_of_modifiedTools {old : List (String × Tool)} : ∀ {new : List (String × Tool)} {cs : List Change},
    modifiedTools old new = .ok cs → Comparable old new
  | [], _, _ => List.forall_mem_nil _
  | (name, u) :: new, cs, h => by
    cases hold : get? name old with
    | none =>
      rw [modifiedTools_absent hold] at h
      refine List.forall_mem_cons.mpr ⟨fun t ht => ?_, comparable_of_modifiedTools h⟩
      rw [hold] at ht
      cases ht
    | some t =>
      rw [modifiedTools_present hold] at h
      obtain ⟨ds, hds, h⟩ := bind_eq_ok_iff.mp h
      obtain ⟨rest, hrest, -⟩ := bind_eq_ok_iff.mp h
      refine List.forall_mem_cons.mpr ⟨fun t' ht => ?_, comparable_of_modifiedTools hrest⟩
      rw [hold] at ht
      cases ht
      exact ⟨ds, hds⟩

/-! ## The changes -/

def addition (e : String × Tool) : Change := .toolAdded e.1 e.2.description

def removal (e : String × Tool) : Change := .toolRemoved e.1 e.2.description

def newVariable (e : String × EnvVar) : Change := .envAdded e.1 e.2.description e.2.required

def goneVariable (e : String × EnvVar) : Change := .envRemoved e.1

def difference (old new : Config) : VersionDiff where
  changes := metadataChange old new ++ (missing (toolsByName old) (toolsByName new)).map addition ++
    (missing (toolsByName new) (toolsByName old)).map removal ++
    (toolsByName new).filterMap (modification? (toolsByName old)) ++
    (missing (envsByName old) (envsByName new)).map newVariable ++
    (missing (envsByName new) (envsByName old)).map goneVariable
  unchanged := ((toolsByName new).filter fun e => contains e.1 (toolsByName old)).length -
    ((toolsByName new).filterMap (modification? (toolsByName old))).length

theorem compareConfigs_eq {old new : Config} (h : Comparable (toolsByName old) (toolsByName new)) :
    compareConfigs old new = .ok (difference old new) := by
  rw [compareConfigs, modifiedTools_eq h]
  rfl

theorem compareConfigs_isOk {old new : Config} :
    (∃ d, compareConfigs old new = .ok d) ↔ Comparable (toolsByName old) (toolsByName new) := by
  constructor
  · rintro ⟨d, h⟩
    obtain ⟨modified, hmodified, -⟩ := bind_eq_ok_iff.mp h
    exact comparable_of_modifiedTools hmodified
  · intro h
    exact ⟨_, compareConfigs_eq h⟩

theorem comparable_iff {old new : Config} : Comparable (toolsByName old) (toolsByName new) ↔
    ∀ name t u, old.toolNamed name = some t → new.toolNamed name = some u →
      EnumsTold t.inputSchema u.inputSchema.properties := by
  constructor
  · intro h name t u ht hu
    rw [← get?_toolsByName] at ht hu
    exact toolDifferences_isOk.mp (h _ (pair_mem_of_get? hu) t ht)
  · intro h e he t ht
    have hu : get? e.1 (toolsByName new) = some e.2 :=
      get?_of_mem (distinct_toolsByName new) he (beq_self_eq_true _)
    rw [get?_toolsByName] at ht hu
    exact toolDifferences_isOk.mpr (h e.1 t e.2 ht hu)

theorem comparable_of_representable {old new : Config} (hold : old.RepresentableEnums)
    (hnew : new.RepresentableEnums) : Comparable (toolsByName old) (toolsByName new) :=
  comparable_iff.mpr fun _ t u ht hu =>
    enumsTold_of_representable (hold t (Config.toolNamed_mem ht)) (hnew u (Config.toolNamed_mem hu))

/-! ## What is told of one name -/

def Change.envName : Change → Option String
  | envAdded name _ _ | envRemoved name => some name
  | _ => none

inductive ToolTold (name : String) : Option Tool → Option Tool → List Change → Prop
  | absent : ToolTold name none none []
  | added (u) : ToolTold name none (some u) [.toolAdded name u.description]
  | removed (t) : ToolTold name (some t) none [.toolRemoved name t.description]
  | modified {t u ds} : toolDifferences t u = .ok ds → ds ≠ [] →
      ToolTold name (some t) (some u) [.toolModified name (ds.map (·.detail))]
  | unchanged {t u} : toolDifferences t u = .ok [] → ToolTold name (some t) (some u) []

inductive EnvTold (name : String) : Option EnvVar → Option EnvVar → List Change → Prop
  | absent : EnvTold name none none []
  | added (v) : EnvTold name none (some v) [.envAdded name v.description v.required]
  | removed (v) : EnvTold name (some v) none [.envRemoved name]
  | kept (v w) : EnvTold name (some v) (some w) []

theorem modification?_some {old : List (String × Tool)} {e : String × Tool} {c : Change}
    (h : modification? old e = some c) : ∃ details, c = .toolModified e.1 details := by
  unfold modification? at h
  split at h
  · split at h
    · split at h
      · cases h
      · exact ⟨_, (Option.some.inj h).symm⟩
    · cases h
  · cases h

theorem metadataChange_eq (old new : Config) :
    metadataChange old new = [] ∨ metadataChange old new = [.metadata (metadataDetails old new)] := by
  unfold metadataChange
  simp only
  split
  · exact .inl rfl
  · exact .inr rfl

section
variable {old new : Config}

theorem toolTold_difference (h : Comparable (toolsByName old) (toolsByName new)) (name : String) :
    ToolTold name (old.toolNamed name) (new.toolNamed name)
      ((difference old new).changes.filter (·.toolName == some name)) := by
  -- a kind of changes tells under the name only of its one entry there, and metadata and variables have none
  have hmeta : (metadataChange old new).filter (·.toolName == some name) = [] := by
    rcases metadataChange_eq old new with hm | hm <;> simp [hm, Change.toolName]
  have hadded := filter_map_keyed Change.toolName addition name
    (distinct_missing (toolsByName old) (distinct_toolsByName new)) fun e => rfl
  have hremoved := filter_map_keyed Change.toolName removal name
    (distinct_missing (toolsByName new) (distinct_toolsByName old)) fun e => rfl
  have hmodified := filter_filterMap_keyed Change.toolName (modification? (toolsByName old)) name
    (distinct_toolsByName new) fun e c hc => by obtain ⟨ds, rfl⟩ := modification?_some hc; rfl
  have hnew : ∀ m : List (String × EnvVar), (m.map newVariable).filter (·.toolName == some name) = [] := by
    simp [List.filter_map, Function.comp_def, newVariable, Change.toolName]
  have hgone : ∀ m : List (String × EnvVar), (m.map goneVariable).filter (·.toolName == some name) = [] := by
    simp [List.filter_map, Function.comp_def, goneVariable, Change.toolName]
  rw [get?_missing] at hadded hremoved
  simp only [difference, List.filter_append, hmeta, hadded, hremoved, hmodified, hnew, hgone]
  rw [← get?_toolsByName, ← get?_toolsByName]
  cases hold : get? name (toolsByName old) with
  | none =>
    cases hget : get? name (toolsByName new) with
    | none => exact .absent
    | some u => simpa [modification?, hold, addition] using ToolTold.added u
  | some t =>
    cases hget : get? name (toolsByName new) with
    | none => exact .removed t
    | some u =>
      obtain ⟨ds, hds⟩ := h _ (pair_mem_of_get? hget) t hold
      cases ds with
      | nil => simpa [modification?, hold, hds] using ToolTold.unchanged hds
      | cons x ds => simpa [modification?, hold, hds] using ToolTold.modified hds (List.cons_ne_nil x ds)

theorem envTold_difference (old new : Config) (name : String) :
    EnvTold name (old.envNamed name) (new.envNamed name)
      ((difference old new).changes.filter (·.envName == some name)) := by
  have hmeta : (metadataChange old new).filter (·.envName == some name) = [] := by
    rcases metadataChange_eq old new with hm | hm <;> simp [hm, Change.envName]
  have hadded : ∀ m : List (String × Tool), (m.map addition).filter (·.envName == some name) = [] := by
    simp [List.filter_map, Function.comp_def, addition, Change.envName]
  have hremoved : ∀ m : List (String × Tool), (m.map removal).filter (·.envName == some name) = [] := by
    simp [List.filter_map, Function.comp_def, removal, Change.envName]
  have hmodified : ((toolsByName new).filterMap (modification? (toolsByName old))).filter
      (·.envName == some name) = [] := by
    rw [List.filter_eq_nil_iff]
    intro c hc
    obtain ⟨e, -, hc⟩ := List.mem_filterMap.mp hc
    obtain ⟨ds, rfl⟩ := modification?_some hc
    simp [Change.envName]
  have hnew := filter_map_keyed Change.envName newVariable name
    (distinct_missing (envsByName old) (distinct_envsByName new)) fun e => rfl
  have hgone := filter_map_keyed Change.envName goneVariable name
    (distinct_missing (envsByName new) (distinct_envsByName old)) fun e => rfl
  rw [get?_missing] at hnew hgone
  simp only [difference, List.filter_append, hmeta, hadded, hremoved, hmodified, hnew, hgone]
  rw [← get?_envsByName, ← get?_envsByName]
  cases get? name (envsByName old) with
  | none =>
    cases get? name (envsByName new) with
    | none => exact .absent
    | some w => exact .added w
  | some v =>
    cases get? name (envsByName new) with
    | none => exact .removed v
    | some w => exact .kept v w

end

end Diff

end ToolServer
