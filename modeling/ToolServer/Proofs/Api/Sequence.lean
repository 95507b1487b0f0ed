import ToolServer.Proofs.Api.Completion
import ToolServer.Proofs.Api.Operations
import ToolServer.Proofs.Api.Outcomes

/-!
# The sequence of operations

The operations of a document in the order of its paths, and those of a path in the order of the methods. A path is
resolved with what is known by then, so the paths are followed one after the other. Whatever relates each operation
to what it is read as, relates the operations of a text to what is read of it, one to one: `parse_sequence`.
-/

namespace ToolServer.Api

open Document
open Reference (Memory)

/-! ## Operations of a document -/

/-- An operation of a document: what a path has under a method. -/
structure Operation where
  path : String
  method : String
  node : Entries

def operationAt (path : String) (item : Entries) (method : String) : Option Operation :=
  match Entries.get item method with
  | .map node => some ⟨path, method, node⟩
  | _ => none

def operationsOf (path : String) : Value → List Operation
  | .map item => methods.filterMap (operationAt path item)
  | _ => []

/-- The operations of paths that are read one after the other, beginning with a memory. -/
def operationsFrom (doc : Entries) : Entries → Memory → List Operation
  | [], _ => []
  | entry :: paths, m =>
    operationsOf entry.1.display (Reference.resolve (.map doc) entry.2 m).1 ++
      operationsFrom doc paths (Tour.path doc entry.2 m).2

/-- What is known when the paths are read: schemes have been resolved, and then the named schemas. -/
def knownBefore (doc : Entries) : Memory :=
  let components := entriesIn (Entries.get doc "components")
  let schemes := entriesIn (Entries.get components "securitySchemes")
  let schemas := entriesIn (Entries.get components "schemas")
  (Reference.mapWith (Tour.nameSchema (.map doc)) schemas
    (Tour.all (fun e => .scheme (.map doc) e.2) schemes .empty).2).2

def operationsIn (doc paths : Entries) : List Operation := operationsFrom doc paths (knownBefore doc)

/-! ## One path -/

theorem Keeps.collect_forall₂ {I : Memory → Prop} {α β γ : Type} {R : γ → β → Prop} {g : α → Option γ}
    {f : α → Work (Option β)} : ∀ {xs : List α}, (∀ x ∈ xs, Keeps I (f x) (Option.Rel R (g x))) →
      Keeps I (Api.collect f xs) (List.Forall₂ R (xs.filterMap g))
  | [], _ => .pure .nil
  | x :: xs, h => by
    obtain ⟨hx, hxs⟩ := List.forall_mem_cons.mp h
    rw [Api.collect]
    refine hx.bind fun o ho => (collect_forall₂ hxs).bind fun ys hys => .pure ?_
    rw [List.filterMap_cons]
    cases hg : g x with
    | none =>
      rw [hg] at ho
      cases ho
      exact hys
    | some z =>
      rw [hg] at ho
      cases ho with
      | some hz => exact .cons hz hys

/-- A step without references leaves what is known as it is. -/
theorem ok_of_plainly_bind {α β : Type} {x : Except Fault α} {f : α → Work β} {m : Memory} {b : β}
    (h : ((plainly x >>= f).run m).1 = .ok b) : ∃ a, x = .ok a ∧ ((f a).run m).1 = .ok b := ok_of_bind h

section
variable {doc : Entries} {R : Operation → Endpoint → Prop} (hR : ∀ path method ofPath o,
  Keeps (fun _ => True) (endpointOf doc path method ofPath o) (R ⟨path, method, o⟩))
include hR

/-- A path gives an operation for each method under which it has a map, and no other. -/
theorem pathEndpoints_sequence {entry : Scalar × Value} {m : Memory} {es : List Endpoint}
    (h : ((pathEndpoints doc entry).run m).1 = .ok es) :
    List.Forall₂ R (operationsOf entry.1.display (Reference.resolve (.map doc) entry.2 m).1) es := by
  unfold pathEndpoints at h
  obtain ⟨w, hw, h⟩ := ok_of_bind h
  have hw : (Reference.resolve (.map doc) entry.2 m).1 = w := Except.ok.inj hw
  rw [hw]
  cases w with
  | map item =>
    obtain ⟨ofPath, -, h⟩ := ok_of_bind h
    refine (Keeps.collect_forall₂ (I := fun _ => True) (fun method _ => ?_) _ trivial).2 es h
    unfold operationAt
    cases Entries.get item method with
    | map o => exact (hR _ method ofPath o).bind fun e he => .pure (.some he)
    | _ => exact .pure .none
  | _ =>
    cases h
    exact .nil

/-! ## All paths -/

theorem operationsFrom_sequence : ∀ {paths : Entries} {m : Memory} {ess : List (List Endpoint)},
    ((collect (fun entry => some <$> pathEndpoints doc entry) paths).run m).1 = .ok ess →
      List.Forall₂ R (operationsFrom doc paths m) ess.flatten
  | [], _, _, h => by
    cases h
    exact .nil
  | entry :: paths, m, ess, h => by
    have hmap : some <$> pathEndpoints doc entry = pathEndpoints doc entry >>= fun es => pure (some es) :=
      map_eq_pure_bind some (pathEndpoints doc entry)
    have hfollows : Follows (some <$> pathEndpoints doc entry) (.path doc entry.2) :=
      hmap ▸ (pathEndpoints_follows entry).map some
    rw [collect] at h
    obtain ⟨o, ho, h⟩ := ok_of_bind h
    obtain ⟨rest, hrest, h⟩ := ok_of_bind h
    rw [hfollows.memory m o ho] at hrest
    rw [hmap] at ho
    obtain ⟨es, hes, ho⟩ := ok_of_bind ho
    cases ho
    cases h
    exact List.rel_append (pathEndpoints_sequence hR hes) (operationsFrom_sequence hrest)

theorem descriptionOf_sequence {paths : Entries} {d : Description}
    (h : ((descriptionOf doc paths).run .empty).1 = .ok d) :
    List.Forall₂ R (operationsIn doc paths) d.endpoints := by
  unfold descriptionOf at h
  obtain ⟨servers, -, h⟩ := ok_of_plainly_bind h
  obtain ⟨components, hcomponents, h⟩ := ok_of_plainly_bind h
  obtain ⟨rawSchemes, hrawSchemes, h⟩ := ok_of_plainly_bind h
  obtain ⟨schemes, hschemes, h⟩ := ok_of_bind h
  obtain ⟨rawSchemas, hrawSchemas, h⟩ := ok_of_plainly_bind h
  obtain ⟨schemas, hschemas, h⟩ := ok_of_bind h
  obtain ⟨ess, hess, h⟩ := ok_of_bind h
  obtain ⟨info, -, h⟩ := ok_of_plainly_bind h
  obtain ⟨stored, -, h⟩ := ok_of_plainly_bind h
  cases h
  rw [namedSchemas_run (flattens_of_namedSchemas hschemas), (schemesOf_follows _ _).memory _ _ hschemes] at hess
  rw [operationsIn, knownBefore, entriesIn_eq hcomponents, entriesIn_eq hrawSchemes, entriesIn_eq hrawSchemas]
  exact operationsFrom_sequence hR hess

end

/-- **What is read of a text are the operations of its document, in their order.** -/
theorem parse_sequence {R : Operation → Endpoint → Prop} (hR : ∀ doc path method ofPath o,
    Keeps (fun _ => True) (endpointOf doc path method ofPath o) (R ⟨path, method, o⟩))
    {text : String} {d : Description} {ws : List String} (h : parse text = .ok (.parsed d ws)) :
    ∃ doc paths, Describes text doc paths ∧ List.Forall₂ R (operationsIn doc paths) d.endpoints := by
  have hbecause := parse_because text
  rw [h] at hbecause
  obtain ⟨doc, paths, hdoc, -⟩ := hbecause
  rw [parse_of_load hdoc.load, parseDocument, checkDocument_of_hasPaths hdoc.supported hdoc.paths] at h
  refine ⟨doc, paths, hdoc, descriptionOf_sequence (hR doc) ?_⟩
  dsimp only at h
  split at h
  · rename_i hrun
    cases h
    rw [hrun]
  · cases h

end ToolServer.Api
