import ToolServer.Api.Parsing
import ToolServer.Proofs.Outcome

/-!
# Work on a document

A triple for work: begun with a memory that has a property it ends with one, also when it fails, and what
it gives has a property of its own.
-/

namespace ToolServer.Api

open Document
open Reference (Memory)

theorem run_bind {α β : Type} (x : Work α) (f : α → Work β) (m : Memory) :
    (x >>= f).run m = match x.run m with
      | (.ok a, m') => (f a).run m'
      | (.error e, m') => (.error e, m') := by
  rcases h : x.run m with ⟨r, m'⟩
  have h' : x m = (r, m') := h
  cases r with
  | ok a => simp only [ExceptT.run, bind, ExceptT.bind, ExceptT.mk, StateT.bind, h', ExceptT.bindCont]
  | error e =>
    simp only [ExceptT.run, bind, ExceptT.bind, ExceptT.mk, StateT.bind, h', ExceptT.bindCont]
    rfl

def Keeps (I : Memory → Prop) {α : Type} (x : Work α) (P : α → Prop) : Prop :=
  ∀ m, I m → I (x.run m).2 ∧ Gives (x.run m).1 P

namespace Keeps

variable {I : Memory → Prop} {α β : Type} {P : α → Prop} {Q : β → Prop}

theorem pure {a : α} (h : P a) : Keeps I (Pure.pure a : Work α) P := fun _ hm => ⟨hm, .ok h⟩

theorem bind {x : Work α} {f : α → Work β} (hx : Keeps I x P) (hf : ∀ a, P a → Keeps I (f a) Q) :
    Keeps I (x >>= f) Q := by
  intro m hm
  obtain ⟨hm', hP⟩ := hx m hm
  rw [run_bind]
  cases h : x.run m with
  | mk r m' =>
    rw [h] at hm' hP
    cases r with
    | error e => exact ⟨hm', .error e⟩
    | ok a => exact hf a (hP a rfl) m' hm'

theorem ite_bind {c : Prop} [Decidable c] {x y : Work α} {f : α → Work β} (hx : Keeps I x P)
    (hy : Keeps I y P) (hf : ∀ a, P a → Keeps I (f a) Q) : Keeps I (if c then x >>= f else y >>= f) Q := by
  split
  · exact hx.bind hf
  · exact hy.bind hf

theorem plainly {x : Except Fault α} (h : Gives x P) : Keeps I (Api.plainly x) P := fun _ hm => ⟨hm, h⟩

theorem map_some {x : Work α} (hx : Keeps I x P) : Keeps I (some <$> x) (fun o => ∀ a, o = some a → P a) := by
  rw [map_eq_pure_bind]
  exact hx.bind fun a ha => pure fun b h => Option.some.inj h ▸ ha

theorem collect {f : α → Work (Option β)} : ∀ {xs : List α},
    (∀ x ∈ xs, Keeps I (f x) (fun o => ∀ y, o = some y → Q y)) →
      Keeps I (Api.collect f xs) (fun ys => ∀ y ∈ ys, Q y)
  | [], _ => pure fun y hy => by cases hy
  | x :: xs, h => by
    rw [Api.collect]
    refine (h x (List.mem_cons_self ..)).bind fun o ho =>
      (collect fun x hx => h x (List.mem_cons_of_mem _ hx)).bind fun ys hys => pure ?_
    cases o with
    | none => exact hys
    | some y => exact List.forall_mem_cons.mpr ⟨ho y rfl, hys⟩

end Keeps

theorem members_gives (v : Value) : Gives v.members (fun es => v = .map es) := by
  cases v with
  | map es => exact .ok rfl
  | _ => exact .error _

theorem checked_gives {α : Type} (record : RecordKind) (x : Option α) :
    Gives (checked record x) (fun a => x = some a) := by
  cases x with
  | none => exact .error _
  | some a => exact .ok rfl

theorem parse_of_load {text : String} {doc : Value} (h : load text = .ok doc) :
    parse text = (parseDocument doc).1 := by
  unfold parse parseWith
  rw [h]

end ToolServer.Api
