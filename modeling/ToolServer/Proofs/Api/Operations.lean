import ToolServer.Proofs.Api.Work
import ToolServer.Proofs.Ordered

/-!
# Read operations

Whatever a document holds, the operations that are read from it have methods of the list, and the parameters
of their paths are required.
-/

namespace ToolServer.Api

open Document
open Reference (Memory)

structure Endpoint.AsRead (e : Endpoint) : Prop where
  method : e.method ∈ methods
  required : ∀ p ∈ e.parameters, p.location = "path" → p.required = true

theorem Keeps.any {α : Type} (x : Work α) : Keeps (fun _ => True) x (fun _ => True) :=
  fun _ _ => ⟨trivial, fun _ _ => trivial⟩

theorem parameterOf_required (root raw : Value) : Keeps (fun _ => True) (parameterOf root raw)
    (fun o => ∀ p, o = some p → p.location = "path" → p.required = true) := by
  unfold parameterOf
  refine (Keeps.any _).bind fun w _ => ?_
  split
  · dsimp only
    split
    · exact .pure fun p h => by cases h
    · refine (Keeps.any _).bind fun schema _ => (Keeps.any _).bind fun checked _ => .pure ?_
      rintro p h hpath
      cases h
      simp only at hpath
      simp [hpath]
  · exact .pure fun p h => by cases h

theorem parametersOf_required (root raw : Value) : Keeps (fun _ => True) (parametersOf root raw)
    (fun ps => ∀ p ∈ ps, p.location = "path" → p.required = true) := by
  unfold parametersOf
  exact (Keeps.any _).bind fun elements _ => .collect fun raw _ => parameterOf_required root raw

theorem mem_mergeParameters {ofPath ofOperation : List Parameter} {p : Parameter}
    (h : p ∈ mergeParameters ofPath ofOperation) : p ∈ ofPath ∨ p ∈ ofOperation := by
  obtain ⟨e, he, rfl⟩ := List.mem_map.mp h
  have hpair := Ordered.mem_of_ofPairs he
  obtain ⟨p, hp, rfl⟩ := List.mem_map.mp hpair
  exact List.mem_append.mp hp

theorem endpointOf_asRead (doc : Entries) (path : String) {method : String} (hmethod : method ∈ methods)
    {ofPath : List Parameter} (hpath : ∀ p ∈ ofPath, p.location = "path" → p.required = true) (o : Entries) :
    Keeps (fun _ => True) (endpointOf doc path method ofPath o) Endpoint.AsRead := by
  unfold endpointOf
  refine (parametersOf_required _ _).bind fun parameters hparameters => ?_
  refine Keeps.ite_bind (Keeps.any _) (Keeps.any _) fun body _ => ?_
  refine (Keeps.any _).bind fun tags _ => (Keeps.any _).bind fun responses _ =>
    (Keeps.any _).bind fun security _ => .pure ⟨hmethod, fun p hp => ?_⟩
  exact (mem_mergeParameters hp).elim (hpath p) (hparameters p)

theorem pathEndpoints_asRead (doc : Entries) (entry : Scalar × Value) :
    Keeps (fun _ => True) (pathEndpoints doc entry) (fun es => ∀ e ∈ es, e.AsRead) := by
  unfold pathEndpoints
  refine (Keeps.any _).bind fun w _ => ?_
  split
  · refine (parametersOf_required _ _).bind fun ofPath hpath => .collect fun method hmethod => ?_
    split
    · refine (endpointOf_asRead doc _ hmethod hpath _).bind fun e he => .pure fun e' h => ?_
      cases h
      exact he
    · exact .pure fun e h => by cases h
  · exact .pure fun e h => by cases h

theorem descriptionOf_asRead (doc paths : Entries) :
    Keeps (fun _ => True) (descriptionOf doc paths) (fun d => ∀ e ∈ d.endpoints, e.AsRead) := by
  unfold descriptionOf
  have hall : Keeps (fun _ => True) (collect (fun entry => some <$> pathEndpoints doc entry) paths)
      (fun ess => ∀ es ∈ ess, ∀ e ∈ es, e.AsRead) :=
    .collect fun entry _ => (pathEndpoints_asRead doc entry).map_some
  refine (Keeps.any _).bind fun servers _ => (Keeps.any _).bind fun components _ =>
    (Keeps.any _).bind fun rawSchemes _ => (Keeps.any _).bind fun schemes _ =>
    (Keeps.any _).bind fun rawSchemas _ => (Keeps.any _).bind fun schemas _ =>
    hall.bind fun endpoints hendpoints => (Keeps.any _).bind fun info _ =>
    (Keeps.any _).bind fun stored _ => .pure fun e he => ?_
  obtain ⟨es, hes, he⟩ := List.mem_flatten.mp he
  exact hendpoints es hes e he

theorem parseDocument_asRead {doc : Value} {d : Description} {ws : List String}
    (h : (parseDocument doc).1 = .ok (.parsed d ws)) : ∀ e ∈ d.endpoints, e.AsRead := by
  unfold parseDocument at h
  split at h
  · rename_i doc
    split at h
    · cases h
    · rename_i paths _
      obtain ⟨-, hd⟩ := descriptionOf_asRead doc paths .empty trivial
      split at h
      · rename_i d' m hrun
        cases h
        exact hd d (by rw [hrun])
      · cases h
  · cases h

theorem parse_asRead {text : String} {d : Description} {ws : List String}
    (h : parse text = .ok (.parsed d ws)) : ∀ e ∈ d.endpoints, e.AsRead := by
  unfold parse parseWith at h
  split at h
  · exact parseDocument_asRead h
  · cases h
  · cases h

end ToolServer.Api
