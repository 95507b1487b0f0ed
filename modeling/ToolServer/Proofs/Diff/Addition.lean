import ToolServer.Proofs.Composition.Declared
import ToolServer.Proofs.Diff.Exact
import ToolServer.Proofs.Tool.Insertion

/-!
# Additions

`compare_insert`: a server with one operation more, under a name of its own, differs from the one without by that tool
and by variables that its credentials bring, and by nothing else.
-/

namespace ToolServer

open Api Document

/-- No parameter is given twice, and each choice of a parameter equals itself. -/
structure InputSchema.Steady (s : InputSchema) : Prop where
  distinct : Ordered.Distinct s.properties
  reflexive : ∀ e ∈ s.properties, ∀ v ∈ e.2.enum.getD [], (v == v) = true

namespace Diff

open Ordered

/-! ## A tool and itself -/

section
variable {s : InputSchema} (hs : s.Steady)
include hs

theorem changedIn_self {name : String} {q : Property} (hq : (name, q) ∈ s.properties) :
    changedIn s s name q q = .ok [] := by
  have hsame : ¬ EnumsDiffer q q := by
    rw [enumsDiffer_iff, values_beq_self (hs.reflexive _ hq)]
    simp
  unfold changedIn
  rw [enumDifference_eq, if_neg hsame]
  simp [bind, Except.bind, pure, Except.pure]

theorem changedBetween_self : ∀ {es : List (String × Property)}, (∀ e ∈ es, e ∈ s.properties) →
    changedBetween s s es = .ok []
  | [], _ => rfl
  | (name, q) :: es, h => by
    obtain ⟨hq, hes⟩ := List.forall_mem_cons.mp h
    have hget : get? name s.properties = some q := get?_of_mem hs.distinct hq (beq_self_eq_true name)
    rw [changedBetween_present hget, changedIn_self hs hq, changedBetween_self hes]
    rfl

theorem schemaDifferences_self : schemaDifferences s s = .ok [] := by
  have hnone : missing s.properties s.properties = [] := (missing_nil_iff hs.distinct).mpr Finset.Subset.rfl
  have hadded : addedTo s s = [] := List.map_eq_nil_iff.mpr hnone
  have hremoved : removedFrom s s = [] := List.map_eq_nil_iff.mpr hnone
  rw [schemaDifferences, hadded, hremoved, changedBetween_self hs fun e he => he]
  rfl

end

theorem toolDifferences_self {t : Tool} (ht : t.inputSchema.Steady) : toolDifferences t t = .ok [] := by
  have hhandler : handlerDifferences t t = [] := by simp [handlerDifferences]
  rw [toolDifferences, hhandler, schemaDifferences_self ht]
  rfl

/-! ## One more entry -/

section
variable {β : Type} {xs ys : List (String × β)} {e : String × β} (h : Distinct (xs ++ e :: ys))
include h

theorem distinct_without : Distinct (xs ++ ys) :=
  h.sublist (List.Sublist.append (List.Sublist.refl xs) (List.sublist_cons_self e ys))

theorem not_contains_without : contains e.1 (xs ++ ys) = false := by
  have hnodup := distinct_iff_nodup.mp h
  rw [List.map_append, List.map_cons, List.nodup_middle, List.nodup_cons, ← List.map_append, mem_keys_iff] at hnodup
  exact Bool.eq_false_iff.mpr hnodup.1

theorem missing_without : missing (xs ++ ys) (xs ++ e :: ys) = [e] := by
  have hkept : ∀ zs : List (String × β), zs ⊆ xs ++ ys → zs.filter (fun f => !contains f.1 (xs ++ ys)) = [] := by
    intro zs hzs
    rw [List.filter_eq_nil_iff]
    intro f hf
    simp [mem_keys_iff.mp (List.mem_map_of_mem (hzs hf))]
  rw [missing, List.filter_append, List.filter_cons, not_contains_without h,
    hkept xs (List.subset_append_left xs ys), hkept ys (List.subset_append_right xs ys)]
  rfl

theorem missing_with : missing (xs ++ e :: ys) (xs ++ ys) = [] := by
  rw [missing_nil_iff (distinct_without h)]
  intro k hk
  rw [keys, List.mem_toFinset] at hk ⊢
  simp only [List.map_append, List.map_cons, List.mem_append, List.mem_cons] at hk ⊢
  tauto

/-- Under the key of an entry the others hold that entry, and nothing under the key of the one that is left out. -/
theorem get?_without {f : String × β} (hf : f ∈ xs ++ e :: ys) {v : β} (hv : get? f.1 (xs ++ ys) = some v) :
    v = f.2 ∧ f ∈ xs ++ ys := by
  have hmem : f ∈ xs ++ ys := by
    rcases List.mem_append.mp hf with hf | hf
    · exact List.mem_append_left _ hf
    · rcases List.mem_cons.mp hf with hf | hf
      · subst hf
        have hnone := not_contains_without h
        rw [contains_iff.mpr ⟨v, hv⟩] at hnone
        cases hnone
      · exact List.mem_append_right _ hf
  have hget := get?_of_mem (distinct_without h) hmem (beq_self_eq_true f.1)
  rw [hget] at hv
  exact ⟨(Option.some.inj hv).symm, hmem⟩

end

/-! ## One more tool -/

structure Extends (old new : Config) (t : Tool) : Prop where
  name : old.name = new.name
  version : old.version = new.version
  description : old.description = new.description
  tools : ∃ as bs, old.tools = as ++ bs ∧ new.tools = as ++ t :: bs
  nodup : (new.tools.map (·.name)).Nodup
  envs : old.envNames ⊆ new.envNames

theorem toolsByName_eq {c : Config} (h : (c.tools.map (·.name)).Nodup) :
    toolsByName c = c.tools.map fun t => (t.name, t) := by
  apply ofPairs_of_distinct
  rw [distinct_iff_nodup, List.map_map]
  exact h

theorem compare_extends {old new : Config} {t : Tool} (h : Extends old new t)
    (hold : ∀ u ∈ old.tools, u.inputSchema.Steady) : ∃ d, compareConfigs old new = .ok d ∧
      d.changes = .toolAdded t.name t.description :: (missing (envsByName old) (envsByName new)).map newVariable := by
  obtain ⟨as, bs, htools, htools'⟩ := h.tools
  have hnodup : (old.tools.map (·.name)).Nodup := by
    have hsub : old.tools.Sublist new.tools := by
      rw [htools, htools']
      exact (List.Sublist.refl as).append (List.sublist_cons_self t bs)
    exact h.nodup.sublist (hsub.map _)
  have hmapOld := toolsByName_eq hnodup
  have hmapNew := toolsByName_eq h.nodup
  rw [htools, List.map_append] at hmapOld
  rw [htools', List.map_append, List.map_cons] at hmapNew
  have hdistinct := distinct_toolsByName new
  rw [hmapNew] at hdistinct
  -- a tool of both versions is the same in both, so nothing is told of it
  have hself : ∀ e ∈ toolsByName new, ∀ u, get? e.1 (toolsByName old) = some u →
      toolDifferences u e.2 = .ok [] := by
    intro e he u hu
    rw [hmapNew] at he
    rw [hmapOld] at hu
    obtain ⟨rfl, he⟩ := get?_without hdistinct he hu
    rw [← List.map_append, ← htools] at he
    obtain ⟨w, hw, rfl⟩ := List.mem_map.mp he
    exact toolDifferences_self (hold w hw)
  have hcomparable : Comparable (toolsByName old) (toolsByName new) := fun e he u hu => ⟨[], hself e he u hu⟩
  have hmodified : (toolsByName new).filterMap (modification? (toolsByName old)) = [] := by
    rw [List.filterMap_eq_nil_iff]
    intro e he
    unfold modification?
    cases hu : get? e.1 (toolsByName old) with
    | none => rfl
    | some u => simp [hself e he u hu]
  have hmeta : metadataChange old new = [] := metadataChange_nil_iff.mpr ⟨h.name, h.version, h.description⟩
  have hadded : missing (toolsByName old) (toolsByName new) = [(t.name, t)] := by
    rw [hmapOld, hmapNew]
    exact missing_without hdistinct
  have hremoved : missing (toolsByName new) (toolsByName old) = [] := by
    rw [hmapOld, hmapNew]
    exact missing_with hdistinct
  have hgone : missing (envsByName new) (envsByName old) = [] := by
    rw [missing_nil_iff (distinct_envsByName old), keys_envsByName, keys_envsByName]
    exact h.envs
  refine ⟨_, compareConfigs_eq hcomparable, ?_⟩
  rw [difference, hmeta, hadded, hremoved, hmodified, hgone]
  simp [addition]

end Diff

/-! ## Mapped tools -/

def enumIn : Value → Option (List Value)
  | .map schema => Schema.enumValues? schema
  | _ => none

theorem Property.ofValue_enum (description : Option String) (v : Value) :
    Gives (Property.ofValue description v) (fun p => p.enum = enumIn v) := by
  cases v with
  | map schema =>
    unfold Property.ofValue
    dsimp only
    split
    · exact Gives.any fun items => .ok rfl
    · refine Gives.any fun properties => ?_
      split
      · exact Gives.any fun required => .ok rfl
      · exact .ok rfl
    · exact .ok rfl
  | _ =>
    unfold Property.ofValue
    exact .ok rfl

/-- No choice of an input holds NaN, and no map in it has a key twice. -/
def Api.Endpoint.NanFreeEnums (e : Endpoint) : Prop :=
  ∀ s ∈ e.inputSchemas, ∀ vs, enumIn s = some vs → ∀ v ∈ vs, v.Keyed ∧ v.NanFree

theorem toolOf_steady (d : Description) {e : Endpoint} (h : e.NanFreeEnums) :
    Gives (toolOf d e) (fun t => t.inputSchema.Steady) := by
  have hinput : ∀ s ∈ e.inputSchemas, ∀ description, Gives (Property.ofValue description s)
      (fun p => ∀ v ∈ p.enum.getD [], (v == v) = true) := by
    intro s hs description
    refine (Property.ofValue_enum description s).mono fun p hp v hv => ?_
    rw [hp] at hv
    cases hvs : enumIn s with
    | none =>
      rw [hvs] at hv
      cases hv
    | some vs =>
      rw [hvs] at hv
      obtain ⟨hkeyed, hfree⟩ := h s hs vs hvs v hv
      exact (Value.same_self_iff hkeyed).mpr hfree
  unfold toolOf
  refine (gather_each hinput).bind fun i hi => ?_
  exact Gives.any fun required => .ok ⟨hi.distinct, hi.properties⟩

theorem ofDescription_steady {d : Description} (h : ∀ e ∈ d.endpoints, e.NanFreeEnums) :
    Gives (Config.ofDescription d) (fun c => ∀ t ∈ c.tools, t.inputSchema.Steady) := by
  refine (mapped_ofDescription d).mono fun c hc t ht => ?_
  obtain ⟨e, he, u, hu, heq⟩ := exists_of_forall₂ hc t ht
  have hsteady : u.inputSchema.Steady := toolOf_steady d (h e (List.mem_of_mem_filter he)) u hu
  rw [heq]
  exact hsteady

theorem toolOf_description (d : Description) (e : Endpoint) :
    Gives (toolOf d e) (fun t => t.description = toolDescription e) := by
  unfold toolOf
  exact Gives.any fun i =>
    Gives.any fun required => .ok rfl

/-! ## One more operation -/

namespace Diff

/-- The one change to tools is that of the operation, and all others are new variables. -/
structure Adds (e : Endpoint) (d : VersionDiff) : Prop where
  compatible : d.isCompatible = true
  changes : ∃ vs, d.changes = .toolAdded e.toolName (toolDescription e) :: vs ∧ ∀ c ∈ vs, c.isEnvAdded = true

theorem isCompatible_of_changes {d : VersionDiff} {name text : String} {vs : List Change}
    (h : d.changes = .toolAdded name text :: vs) (hvs : ∀ c ∈ vs, c.isEnvAdded = true) : d.isCompatible = true := by
  rw [VersionDiff.isCompatible, h, Bool.not_eq_true', List.any_eq_false]
  intro c hc
  rcases List.mem_cons.mp hc with rfl | hc
  · exact Bool.noConfusion
  · have hadded := hvs c hc
    cases c with
    | envAdded name text required => exact Bool.noConfusion
    | _ => cases hadded

section
variable {d : Description} {e : Endpoint} {before after : List Endpoint} {old : Config}

/-- **One more operation is one more tool.** -/
theorem compare_insert (hd : d.endpoints = before ++ after) (huse : e.deprecated = false)
    (henums : ∀ e ∈ d.endpoints, e.NanFreeEnums) (hold : Config.ofDescription d = .ok old)
    (hfree : e.toolName ∉ old.tools.map (·.name)) :
    ((∃ new, Config.ofDescription (d.insert before e after) = .ok new) ↔ ∃ t, toolOf d e = .ok t) ∧
    ∀ new, Config.ofDescription (d.insert before e after) = .ok new →
      ∃ diff, compareConfigs old new = .ok diff ∧ Adds e diff := by
  obtain ⟨as, bs, hkept, hinsert⟩ := ofDescription_insert hd huse hold hfree
  constructor
  · constructor
    · intro h
      obtain ⟨new, hnew⟩ := h
      obtain ⟨t, ht, -⟩ := (hinsert new).mp hnew
      exact ⟨t, ht⟩
    · intro h
      obtain ⟨t, ht⟩ := h
      exact ⟨_, (hinsert _).mpr ⟨t, ht, rfl⟩⟩
  · intro new hnew
    have hnodup : (new.tools.map (·.name)).Nodup := nodup_ofDescription _ new hnew
    obtain ⟨t, ht, rfl⟩ := (hinsert new).mp hnew
    have henvs : old.envNames ⊆ (Config.envNames { old with
        tools := as ++ t :: bs, envVars := envVarsOf d (as ++ t :: bs) }) := by
      intro name hname
      rw [Config.envNames, List.mem_toFinset] at hname ⊢
      rw [envVars_ofDescription d old hold, hkept, Composition.mem_envVarsOf] at hname
      refine Composition.mem_envVarsOf.mpr (hname.imp_right fun hread => ?_)
      obtain ⟨u, hu, hname⟩ := hread
      have hsub : as ++ bs ⊆ as ++ t :: bs := by simp
      exact ⟨u, hsub hu, hname⟩
    have hextends : Extends old { old with tools := as ++ t :: bs, envVars := envVarsOf d (as ++ t :: bs) } t :=
      ⟨rfl, rfl, rfl, ⟨as, bs, hkept, rfl⟩, hnodup, henvs⟩
    obtain ⟨diff, hdiff, hchanges⟩ := compare_extends hextends (ofDescription_steady henums old hold)
    rw [toolOf_name d e t ht, toolOf_description d e t ht] at hchanges
    have hvariables : ∀ m : List (String × EnvVar), ∀ c ∈ m.map newVariable, c.isEnvAdded = true := by
      intro m c hc
      obtain ⟨v, -, rfl⟩ := List.mem_map.mp hc
      rfl
    exact ⟨diff, hdiff, isCompatible_of_changes hchanges (hvariables _), _, hchanges, hvariables _⟩

end

def soldPets : Endpoint :=
  { listPets "sold pets" with
    parameters := [⟨"status", "query", none, true, [(.text "enum", .list [.text "sold"])], .null⟩] }

def choicePets : Description :=
  { samePets with
    endpoints := [soldPets, listPets "list pets", listPets "List.Pets"]
    schemes := [{ name := "k", type := "apiKey" }] }

def ownPets : Endpoint := { listPets "own pets" with security := [⟨"k", []⟩] }

theorem nanFreeEnums_choicePets : ∀ e ∈ choicePets.endpoints, e.NanFreeEnums := by
  intro e he s hs vs hvs v hv
  have hcases : e = soldPets ∨ e = listPets "list pets" ∨ e = listPets "List.Pets" := by
    simpa [choicePets] using he
  rcases hcases with rfl | rfl | rfl
  · have hs : s = .map [(.text "enum", .list [.text "sold"])] := by
      simpa [soldPets, listPets, Endpoint.inputSchemas, Endpoint.taken] using hs
    rw [hs] at hvs
    have hv : v = .text "sold" := by
      cases hvs
      exact List.mem_singleton.mp hv
    rw [hv]
    refine ⟨keyed_scalar _, fun a ha => ?_⟩
    cases ha
    rfl
  · cases hs
  · cases hs

theorem compare_insert_choicePets : ∃ old new diff,
    choicePets.endpoints = [soldPets] ++ [listPets "list pets", listPets "List.Pets"] ∧
    ownPets.deprecated = false ∧ (∀ e ∈ choicePets.endpoints, e.NanFreeEnums) ∧
    Config.ofDescription choicePets = .ok old ∧ ownPets.toolName ∉ old.tools.map (·.name) ∧
    Config.ofDescription (choicePets.insert [soldPets] ownPets [listPets "list pets", listPets "List.Pets"]) =
      .ok new ∧ compareConfigs old new = .ok diff ∧ Adds ownPets diff := by
  have hnames : (Config.ofDescription choicePets).map (fun c => c.tools.map (·.name)) =
      .ok ["sold_pets", "list_pets", "list_pets_2"] := by decide +kernel
  obtain ⟨old, hold, hnames⟩ := exists_of_map_ok hnames
  have hfree : ownPets.toolName ∉ old.tools.map (·.name) := by
    rw [hnames]
    decide +kernel
  have hsplit : choicePets.endpoints = [soldPets] ++ [listPets "list pets", listPets "List.Pets"] := rfl
  obtain ⟨hdefined, hadds⟩ := compare_insert hsplit rfl nanFreeEnums_choicePets hold hfree
  obtain ⟨new, hnew⟩ := hdefined.mpr (exists_ok (by decide +kernel))
  obtain ⟨diff, hdiff, hadds⟩ := hadds new hnew
  exact ⟨old, new, diff, hsplit, rfl, nanFreeEnums_choicePets, hold, hfree, hnew, hdiff, hadds⟩

end Diff

end ToolServer
