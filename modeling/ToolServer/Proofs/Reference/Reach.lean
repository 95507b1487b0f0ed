import ToolServer.Proofs.Document.Within
import ToolServer.Proofs.Reference.Run

/-!
# What a node reaches

The references that are met in a node, and those that are met in the targets of these, and so on. A run
of the resolver leaves what is remembered of every other reference as it is.
-/

namespace ToolServer.Reference

open Document

/-- A reference is met in a node where no other reference stands above it. -/
inductive Meets : Value → String → Prop
  | here {es r} : refOf? es = some r → Meets (.map es) r
  | item {vs v r} : v ∈ vs → Meets v r → Meets (.list vs) r
  | entry {es e r} : refOf? es = none → e ∈ es → Meets e.2 r → Meets (.map es) r

/-- A reference is reached from a node directly or through other references. -/
inductive Reaches (root : Value) : Value → String → Prop
  | met {v r} : Meets v r → Reaches root v r
  | through {v q t r} : Meets v q → follow root q = some t → Reaches root t r → Reaches root v r

/-- No reference is reached from its own target. -/
def Acyclic (root : Value) : Prop :=
  ∀ r t, follow root r = some t → ¬ Reaches root t r

section
variable {root : Value}

theorem Reaches.of_meets {v v' : Value} (h : ∀ q, Meets v' q → Meets v q) {r : String} :
    Reaches root v' r → Reaches root v r
  | .met hm => .met (h _ hm)
  | .through hm hf hr => .through (h _ hm) hf hr

theorem Reaches.item {vs : List Value} {v : Value} (hv : v ∈ vs) {r : String} :
    Reaches root v r → Reaches root (.list vs) r :=
  .of_meets fun _ => .item hv

theorem Reaches.entry {es : Entries} (h : refOf? es = none) {e : Scalar × Value} (he : e ∈ es) {r : String} :
    Reaches root e.2 r → Reaches root (.map es) r :=
  .of_meets fun _ => .entry h he

theorem Reaches.target {es : Entries} {q : String} (h : refOf? es = some q) {t : Value}
    (hf : follow root q = some t) {r : String} : Reaches root t r → Reaches root (.map es) r :=
  .through (.here h) hf

theorem Meets.within {v : Value} {r : String} (h : Meets v r) :
    ∃ es, Within v (.map es) ∧ refOf? es = some r := by
  induction h with
  | here he => exact ⟨_, .refl, he⟩
  | item hv _ ih =>
    obtain ⟨es, h, he⟩ := ih
    exact ⟨es, .item hv h, he⟩
  | entry _ hm _ ih =>
    obtain ⟨es, h, he⟩ := ih
    exact ⟨es, .entry hm h, he⟩

theorem meets_list_iff {vs : List Value} {r : String} : Meets (.list vs) r ↔ ∃ v ∈ vs, Meets v r :=
  ⟨fun h => by cases h with | item hm h => exact ⟨_, hm, h⟩, fun ⟨_, hm, h⟩ => .item hm h⟩

theorem not_meets_leaf {v : Value} (h : IsLeaf v) {r : String} : ¬ Meets v r := by
  intro hm
  cases hm <;> exact h.elim

theorem meets_map_iff {es : Entries} (h : refOf? es = none) {r : String} :
    Meets (.map es) r ↔ ∃ e ∈ es, Meets e.2 r := by
  constructor
  · intro hm
    cases hm with
    | here h' => rw [h] at h'; cases h'
    | entry _ he hm => exact ⟨_, he, hm⟩
  · exact fun ⟨_, he, hm⟩ => .entry h he hm

theorem meets_ref {es : Entries} {q r : String} (h : refOf? es = some q) (hm : Meets (.map es) r) :
    r = q := by
  cases hm with
  | here h' => rw [h] at h'; exact (Option.some.inj h').symm
  | entry h' _ _ => rw [h] at h'; cases h'

theorem reaches_ref {es : Entries} {q : String} (h : refOf? es = some q) {r : String}
    (hr : Reaches root (.map es) r) : r = q ∨ ∃ t, follow root q = some t ∧ Reaches root t r := by
  cases hr with
  | met hm => exact .inl (meets_ref h hm)
  | through hm hf hr =>
    obtain rfl := meets_ref h hm
    exact .inr ⟨_, hf, hr⟩

theorem Reaches.trans {v : Value} {q r : String} {t : Value} (hq : Reaches root v q)
    (hf : follow root q = some t) (hr : Reaches root t r) : Reaches root v r := by
  induction hq with
  | met hm => exact .through hm hf hr
  | through hm hf' _ ih => exact .through hm hf' (ih hf)

theorem Reaches.closed {S : String → Prop} {v : Value} (hv : ∀ r, Meets v r → S r)
    (hS : ∀ q t r, S q → follow root q = some t → Meets t r → S r) {r : String} (h : Reaches root v r) :
    S r := by
  induction h with
  | met hm => exact hv _ hm
  | through hm hf _ ih => exact ih fun r hr => hS _ _ r (hv _ hm) hf hr

/-- References can be ranked only where none reaches itself. -/
theorem acyclic_of_rank (rank : String → Nat)
    (h : ∀ r t q, follow root r = some t → Meets t q → rank q < rank r) : Acyclic root := by
  have below : ∀ {t q}, Reaches root t q → ∀ r, follow root r = some t → rank q < rank r := by
    intro t q hr
    induction hr with
    | met hm => exact fun r hf => h r _ _ hf hm
    | through hm hf' _ ih => exact fun r hf => Nat.lt_trans (ih _ hf') (h r _ _ hf hm)
  exact fun r t hf hr => Nat.lt_irrefl _ (below hr r hf)

end

/-! ## What a run leaves alone -/

theorem get?_resolveIn_of_not_reaches (root : Value) (q : String) : ∀ (room : Nat) (v : Value) (m : Memory),
    ¬ Reaches root v q → (resolveIn root room v m).2.get? q = m.get? q
  | 0, v, m, _ => by rw [resolveIn_zero, Memory.get?_warn]
  | room + 1, v, m, h => by
    cases shape v with
    | leaf hv => rw [resolveIn_leaf hv]
    | list vs =>
      exact mapWith_invariant (I := fun s => s.get? q = m.get? q) vs (fun v hv s hs =>
        (get?_resolveIn_of_not_reaches root q room v s fun hr => h (hr.item hv)).trans hs) m rfl
    | @map es he =>
      rw [resolveIn_map he]
      exact mapWith_invariant (f := resolveEntry root room) (I := fun s => s.get? q = m.get? q) es
        (fun e hm s hs =>
          (get?_resolveIn_of_not_reaches root q room e.2 s fun hr => h (hr.entry he hm)).trans hs) m rfl
    | @ref es r he =>
      have hne : q ≠ r := fun e => h (e ▸ .met (.here he))
      cases hm : m.get? r with
      | some u => rw [resolveIn_known he hm]
      | none =>
        cases hf : follow root r with
        | none => rw [resolveIn_dangling he hm hf, Memory.get?_warn]
        | some t =>
          rw [resolveIn_target he hm hf, Memory.get?_put_of_ne _ hne,
            get?_resolveIn_of_not_reaches root q room t _ fun hr => h (hr.target he hf),
            Memory.get?_put_of_ne _ hne]

end ToolServer.Reference
