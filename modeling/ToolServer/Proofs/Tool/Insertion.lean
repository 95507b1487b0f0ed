import ToolServer.Proofs.Naming.Insertion
import ToolServer.Proofs.Tool.Gather

/-!
# One more operation

Where an operation comes in that asks for a name that no tool has, its tool comes in at the same place, and no other
tool changes.
-/

namespace ToolServer

open Document Schema Api Naming

/-! ## Lists of results -/

section
variable {ε α β : Type} {f : α → Except ε β} {xs ys : List α} {us vs : List β}

theorem mapM_append_split {ws : List β} (h : (xs ++ ys).mapM f = .ok ws) :
    ∃ us vs, xs.mapM f = .ok us ∧ ys.mapM f = .ok vs ∧ ws = us ++ vs := by
  rw [List.mapM_append] at h
  obtain ⟨us, hus, h⟩ := bind_eq_ok_iff.mp h
  obtain ⟨vs, hvs, h⟩ := bind_eq_ok_iff.mp h
  cases h
  exact ⟨us, vs, hus, hvs, rfl⟩

theorem mapM_insert_ok_iff {x : α} {ws : List β} (hx : xs.mapM f = .ok us) (hy : ys.mapM f = .ok vs) :
    (xs ++ x :: ys).mapM f = .ok ws ↔ ∃ w, f x = .ok w ∧ ws = us ++ w :: vs := by
  rw [List.mapM_append, List.mapM_cons, hx, hy]
  cases f x with
  | error e => simp [bind, Except.bind]
  | ok w => simp [bind, Except.bind, pure, Except.pure, eq_comm]

end

/-! ## Servers -/

def Api.Description.server (d : Description) (tools : List Tool) : Config where
  name := serverName d.title
  version := d.version
  description := if d.description = "" then "MCP server for " ++ d.title else d.description
  baseUrl := d.baseUrl
  tools := withDistinctNames tools
  envVars := envVarsOf d (withDistinctNames tools)

theorem ofDescription_eq (d : Description) :
    Config.ofDescription d = ((d.endpoints.filter (!·.deprecated)).mapM (toolOf d)).map d.server := by
  unfold Config.ofDescription
  cases (d.endpoints.filter (!·.deprecated)).mapM (toolOf d) with
  | error f => rfl
  | ok tools =>
    show Except.ok _ = Except.ok (d.server tools)
    rw [Description.server, envVarsOf_withDistinctNames]

theorem ofDescription_ok_iff {d : Description} {c : Config} : Config.ofDescription d = .ok c ↔
    ∃ tools, (d.endpoints.filter (!·.deprecated)).mapM (toolOf d) = .ok tools ∧ c = d.server tools := by
  rw [ofDescription_eq]
  cases (d.endpoints.filter (!·.deprecated)).mapM (toolOf d) with
  | error f => simp [Except.map]
  | ok tools => simp [Except.map, eq_comm]

theorem withDistinctNames_insert {us vs : List Tool} {name : String}
    (h : name ∉ distinct ((us ++ vs).map (·.name))) : ∃ as bs, withDistinctNames (us ++ vs) = as ++ bs ∧
      ∀ t : Tool, t.name = name → withDistinctNames (us ++ t :: vs) = as ++ t :: bs := by
  rw [List.map_append] at h
  obtain ⟨cs, ds, hnames, hlength, hinserted⟩ := distinct_insert h
  have hlength : us.length = cs.length := by rw [hlength, List.length_map]
  unfold withDistinctNames
  rw [List.map_append, hnames, List.zipWith_append hlength]
  refine ⟨_, _, rfl, fun t ht => ?_⟩
  rw [List.map_append, List.map_cons, ht, hinserted, List.zipWith_append hlength, List.zipWith_cons_cons, ← ht]

def Api.Description.insert (d : Description) (before : List Endpoint) (e : Endpoint) (after : List Endpoint) :
    Description :=
  { d with endpoints := before ++ e :: after }

/-- **The tool of one more operation comes in where the operation does.** -/
theorem ofDescription_insert {d : Description} {e : Endpoint} {before after : List Endpoint} {old : Config}
    (hd : d.endpoints = before ++ after) (huse : e.deprecated = false) (hold : Config.ofDescription d = .ok old)
    (hfree : e.toolName ∉ old.tools.map (·.name)) : ∃ as bs, old.tools = as ++ bs ∧
      ∀ new, Config.ofDescription (d.insert before e after) = .ok new ↔ ∃ t, toolOf d e = .ok t ∧
        new = { old with tools := as ++ t :: bs, envVars := envVarsOf d (as ++ t :: bs) } := by
  obtain ⟨tools, htools, rfl⟩ := ofDescription_ok_iff.mp hold
  rw [hd, List.filter_append] at htools
  obtain ⟨us, vs, hus, hvs, rfl⟩ := mapM_append_split htools
  have hnames : (d.server (us ++ vs)).tools.map (·.name) = distinct ((us ++ vs).map (·.name)) :=
    names_withDistinctNames (us ++ vs)
  rw [hnames] at hfree
  obtain ⟨as, bs, hkept, hinserted⟩ := withDistinctNames_insert hfree
  refine ⟨as, bs, hkept, fun new => ?_⟩
  have hfilter : (d.insert before e after).endpoints.filter (!·.deprecated) =
      before.filter (!·.deprecated) ++ e :: after.filter (!·.deprecated) := by
    simp [Description.insert, huse]
  have hmap : ∀ ws, ((d.insert before e after).endpoints.filter (!·.deprecated)).mapM
      (toolOf (d.insert before e after)) = .ok ws ↔ ∃ t, toolOf d e = .ok t ∧ ws = us ++ t :: vs := by
    intro ws
    rw [hfilter]
    exact mapM_insert_ok_iff hus hvs
  have hserver : ∀ t, toolOf d e = .ok t → (d.insert before e after).server (us ++ t :: vs) =
      { d.server (us ++ vs) with tools := as ++ t :: bs, envVars := envVarsOf d (as ++ t :: bs) } := by
    intro t ht
    have htools := hinserted t (toolOf_name d e t ht)
    have henvs : ∀ ts, envVarsOf (d.insert before e after) ts = envVarsOf d ts := fun _ => rfl
    rw [Description.server, Description.server, htools, henvs]
    simp only [Description.insert]
    congr
  rw [ofDescription_ok_iff]
  constructor
  · intro h
    obtain ⟨ws, hws, rfl⟩ := h
    obtain ⟨t, ht, rfl⟩ := (hmap ws).mp hws
    exact ⟨t, ht, hserver t ht⟩
  · intro h
    obtain ⟨t, ht, rfl⟩ := h
    exact ⟨us ++ t :: vs, (hmap _).mpr ⟨t, ht, rfl⟩, (hserver t ht).symm⟩

end ToolServer
