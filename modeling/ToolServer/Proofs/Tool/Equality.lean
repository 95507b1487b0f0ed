import Mathlib.Data.List.Forall2
import ToolServer.Proofs.Json.Data
import ToolServer.Tool.Equality

/-!
# Laws of the equality of tools

Inputs are equal if their parts are, and maps of inputs if their members are, under the same names.
-/

namespace ToolServer

open Document
open Json (FiniteData)

theorem list_beq_of_forall₂ {α : Type} [BEq α] {xs ys : List α}
    (h : List.Forall₂ (fun x y => (x == y) = true) xs ys) : (xs == ys) = true := by
  induction h with
  | nil => rfl
  | cons hxy _ ih => rw [List.cons_beq_cons, hxy, ih]; rfl

theorem beq_items_self {vs : List Value} (h : ∀ v ∈ vs, FiniteData v) : (vs == vs) = true :=
  list_beq_of_forall₂ (List.forall₂_same.mpr fun v hv => (h v hv).same_self)

theorem sameEntries_self {o : Option Entries} (h : ∀ es, o = some es → FiniteData (.map es)) :
    sameEntries o o = true := by
  cases o with
  | none => rfl
  | some es => exact (h es rfl).same_self

theorem Property.sameMembers_iff {ps qs : List (String × Property)} : sameMembers ps qs = true ↔
    ∀ p ∈ ps, ∃ q, Ordered.get? p.1 qs = some q ∧ same p.2 q = true := by
  induction ps with
  | nil => simp [sameMembers]
  | cons p ps ih =>
    rw [sameMembers, Bool.and_eq_true, ih, List.forall_mem_cons]
    refine and_congr_left fun _ => ?_
    cases Ordered.get? p.1 qs <;> simp

/-- Members that are equal one by one, and have their names in common. -/
theorem Property.sameProperties_of_forall₂ {ps qs : List (String × Property)} (hqs : Ordered.Distinct qs)
    (h : List.Forall₂ (fun p q => p.1 = q.1 ∧ same p.2 q.2 = true) ps qs) :
    sameProperties (some ps) (some qs) = true := by
  rw [sameProperties]
  refine Bool.and_eq_true_iff.mpr ⟨beq_iff_eq.mpr h.length_eq, sameMembers_iff.mpr fun p hp => ?_⟩
  obtain ⟨q, hq, hname, hsame⟩ := exists_of_forall₂ h.flip p hp
  exact ⟨q.2, Ordered.get?_of_mem hqs hq (beq_iff_eq.mpr hname.symm), hsame⟩

/-! ## Records -/

theorem Scheme.beq_self {s : Api.Scheme} (h : ∀ fs, s.flows = some fs → FiniteData (.map fs)) : (s == s) = true := by
  have heq : (s == s) = (s.name == s.name && s.type == s.type && s.scheme == s.scheme &&
    s.bearerFormat == s.bearerFormat && s.location == s.location && s.paramName == s.paramName &&
    sameEntries s.flows s.flows && s.openIdConnectUrl == s.openIdConnectUrl && s.description == s.description) := rfl
  simp [heq, sameEntries_self h]

theorem Handler.beq_self {h : Handler}
    (hflows : ∀ a ∈ h.auth, ∀ fs, a.scheme.flows = some fs → FiniteData (.map fs)) : (h == h) = true := by
  have heq : (h == h) = (h.method == h.method && (h.path == h.path && (h.baseUrl == h.baseUrl &&
    (h.baseUrlEnvVar == h.baseUrlEnvVar && (h.contentType == h.contentType && (h.pathParams == h.pathParams &&
    (h.queryParams == h.queryParams && (h.headerParams == h.headerParams && (h.bodyParam == h.bodyParam &&
    h.auth == h.auth))))))))) := rfl
  have hauth : (h.auth == h.auth) = true := by
    refine list_beq_of_forall₂ (List.forall₂_same.mpr fun a ha => ?_)
    have heq : (a == a) = (a.scheme == a.scheme && a.envVar == a.envVar) := rfl
    simp [heq, Scheme.beq_self (hflows a ha)]
  simp [heq, hauth]

theorem Source.beq_self (s : Source) : (s == s) = true := by
  have heq : (s == s) = (s.path == s.path && (s.method == s.method && s.operationId == s.operationId)) := rfl
  simp [heq]

theorem EnvVar.beq_self (v : EnvVar) : (v == v) = true := by
  have heq : (v == v) = (v.name == v.name && (v.description == v.description && (v.required == v.required &&
    v.example_ == v.example_))) := rfl
  simp [heq]

theorem Tool.beq_eq (t u : Tool) : (t == u) = (t.name == u.name && (t.description == u.description &&
    (t.inputSchema == u.inputSchema && (t.handler == u.handler && (t.source == u.source &&
    t.enabled == u.enabled))))) := rfl

theorem Config.beq_eq (c d : Config) : (c == d) = (c.name == d.name && (c.version == d.version &&
    (c.description == d.description && (c.baseUrl == d.baseUrl && (c.tools == d.tools &&
    c.envVars == d.envVars))))) := rfl

end ToolServer
