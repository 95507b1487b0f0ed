import ToolServer.Proofs.Ordered
import ToolServer.Proofs.Outcome
import ToolServer.Reference

/-!
# Runs of the resolver

What resolving a node does, case by case: `resolveIn` is unfolded here once, and every law about it is
proved from these equations. Warnings are never taken back, and a reference that a node does not reach
keeps what is remembered of it.
-/

namespace ToolServer.Reference

open Document

/-! ## Steps over lists -/

section
variable {α β σ : Type} {f : α → σ → β × σ}

theorem mapWith_cons (x : α) (xs : List α) (s : σ) :
    mapWith f (x :: xs) s =
      ((f x s).1 :: (mapWith f xs (f x s).2).1, (mapWith f xs (f x s).2).2) := rfl

theorem mapWith_back {Q : σ → Prop} (back : ∀ x s, Q (f x s).2 → Q s) :
    ∀ (xs : List α) (s : σ), Q (mapWith f xs s).2 → Q s
  | [], _, h => h
  | x :: xs, s, h => back x s (mapWith_back back xs _ h)

/-- What each step gives and keeps, the steps together give and keep. Steps that end in a state outside
`Q` owe nothing, and no step leads back into `Q`. -/
theorem mapWith_keeps {I Q : σ → Prop} {R : α → β → Prop} (back : ∀ x s, Q (f x s).2 → Q s) :
    ∀ (xs : List α), (∀ x ∈ xs, ∀ s, I s → Q (f x s).2 → R x (f x s).1 ∧ I (f x s).2) →
      ∀ s, I s → Q (mapWith f xs s).2 →
        List.Forall₂ R xs (mapWith f xs s).1 ∧ I (mapWith f xs s).2
  | [], _, _, hI, _ => ⟨.nil, hI⟩
  | x :: xs, step, s, hI, hQ => by
    rw [mapWith_cons] at hQ ⊢
    obtain ⟨hR, hI'⟩ := step x (List.mem_cons_self ..) s hI (mapWith_back back xs _ hQ)
    obtain ⟨hRs, hIs⟩ := mapWith_keeps back xs (fun y hy => step y (List.mem_cons_of_mem _ hy)) _ hI' hQ
    exact ⟨.cons hR hRs, hIs⟩

theorem mapWith_related {I : σ → Prop} {R : α → β → Prop} (xs : List α)
    (step : ∀ x ∈ xs, ∀ s, I s → R x (f x s).1 ∧ I (f x s).2) (s : σ) (hI : I s) :
    List.Forall₂ R xs (mapWith f xs s).1 ∧ I (mapWith f xs s).2 :=
  mapWith_keeps (Q := fun _ => True) (fun _ _ _ => trivial) xs (fun x hx s hs _ => step x hx s hs) s hI trivial

theorem mapWith_each {I : σ → Prop} {P : β → Prop} (xs : List α)
    (step : ∀ x ∈ xs, ∀ s, I s → P (f x s).1 ∧ I (f x s).2) (s : σ) (hI : I s) :
    (∀ y ∈ (mapWith f xs s).1, P y) ∧ I (mapWith f xs s).2 := by
  obtain ⟨hP, hI'⟩ := mapWith_related (R := fun _ y => P y) xs step s hI
  refine ⟨fun y hy => ?_, hI'⟩
  obtain ⟨-, -, hy⟩ := exists_of_forall₂ hP y hy
  exact hy

theorem mapWith_invariant {I : σ → Prop} (xs : List α) (step : ∀ x ∈ xs, ∀ s, I s → I (f x s).2)
    (s : σ) (hI : I s) : I (mapWith f xs s).2 :=
  (mapWith_each (P := fun _ => True) xs (fun x hx s hs => ⟨trivial, step x hx s hs⟩) s hI).2

theorem mapWith_eq_self {f : α → σ → α × σ} : ∀ {xs : List α}, (∀ x ∈ xs, ∀ s, (f x s).1 = x) →
    ∀ s, (mapWith f xs s).1 = xs
  | [], _, _ => rfl
  | x :: xs, h, s => by
    obtain ⟨hx, hxs⟩ := List.forall_mem_cons.mp h
    rw [mapWith_cons, hx s, mapWith_eq_self hxs]

/-- Two runs in related states that agree at each step agree on the whole. -/
theorem mapWith_agree {I : σ → σ → Prop} {Q : σ → Prop} (back : ∀ x s, Q (f x s).2 → Q s) :
    ∀ (xs : List α), (∀ x ∈ xs, ∀ s t, I s t → Q (f x s).2 → Q (f x t).2 →
        (f x s).1 = (f x t).1 ∧ I (f x s).2 (f x t).2) →
      ∀ s t, I s t → Q (mapWith f xs s).2 → Q (mapWith f xs t).2 →
        (mapWith f xs s).1 = (mapWith f xs t).1 ∧ I (mapWith f xs s).2 (mapWith f xs t).2
  | [], _, _, _, hI, _, _ => ⟨rfl, hI⟩
  | x :: xs, step, s, t, hI, hs, ht => by
    rw [mapWith_cons] at hs ⊢
    rw [mapWith_cons] at ht ⊢
    obtain ⟨he, hI'⟩ := step x (List.mem_cons_self ..) s t hI
      (mapWith_back back xs _ hs) (mapWith_back back xs _ ht)
    obtain ⟨hes, hIs⟩ := mapWith_agree back xs (fun y hy => step y (List.mem_cons_of_mem _ hy))
      _ _ hI' hs ht
    exact ⟨by rw [he, hes], hIs⟩

end

def resolveAll (root : Value) (nodes : List Value) : List Value × Memory :=
  mapWith (resolve root) nodes .empty

/-! ## Memories -/

namespace Memory

@[simp] theorem get?_empty (q : String) : empty.get? q = none := rfl

@[simp] theorem get?_warn (m : Memory) (w : Warning) (q : String) : (m.warn w).get? q = m.get? q := by
  unfold warn; split <;> rfl

@[simp] theorem get?_put_self (m : Memory) (r : String) (v : Value) : (m.put r v).get? r = some v :=
  Ordered.get?_put_self ..

theorem get?_put_of_ne (m : Memory) {q r : String} (h : q ≠ r) (v : Value) :
    (m.put r v).get? q = m.get? q :=
  Ordered.get?_put_of_ne h ..

theorem warnings_warn (m : Memory) (w : Warning) : m.warnings ⊆ (m.warn w).warnings := by
  unfold warn; split
  · exact List.Subset.refl _
  · exact List.subset_append_left ..

theorem mem_warn (m : Memory) (w : Warning) : w ∈ (m.warn w).warnings := by
  unfold warn; split
  · rename_i h; exact List.contains_iff_mem.mp h
  · exact List.mem_append_right _ (List.mem_singleton_self w)

end Memory

/-! ## Shapes of nodes -/

def IsLeaf : Value → Prop
  | .list _ | .map _ => False
  | _ => True

inductive Shape : Value → Prop
  | leaf {v} (h : IsLeaf v) : Shape v
  | list (vs : List Value) : Shape (.list vs)
  | map {es} (h : refOf? es = none) : Shape (.map es)
  | ref {es r} (h : refOf? es = some r) : Shape (.map es)

theorem shape (v : Value) : Shape v := by
  cases v with
  | list vs => exact .list vs
  | map es =>
    cases h : refOf? es with
    | none => exact .map h
    | some r => exact .ref h
  | _ => exact .leaf trivial

/-! ## The resolver, case by case -/

section
variable {root : Value} {room : Nat} {m : Memory} {es : Entries} {r : String}

def resolveEntry (root : Value) (room : Nat) (e : Scalar × Value) (m : Memory) : (Scalar × Value) × Memory :=
  ((e.1, (resolveIn root room e.2 m).1), (resolveIn root room e.2 m).2)

theorem resolveIn_zero (v : Value) : resolveIn root 0 v m = (strip v, m.warn .tooDeep) := by
  rw [resolveIn]

theorem resolveIn_leaf {v : Value} (h : IsLeaf v) : resolveIn root (room + 1) v m = (v, m) := by
  cases v with
  | list vs => exact h.elim
  | map es => exact h.elim
  | _ => rfl

theorem resolveIn_list (vs : List Value) : resolveIn root (room + 1) (.list vs) m =
    (.list (mapWith (resolveIn root room) vs m).1, (mapWith (resolveIn root room) vs m).2) := rfl

theorem resolveIn_map (h : refOf? es = none) : resolveIn root (room + 1) (.map es) m =
    (.map (mapWith (resolveEntry root room) es m).1, (mapWith (resolveEntry root room) es m).2) := by
  rw [resolveIn]; simp only [h]; rfl

theorem mapWith_resolveEntry : ∀ (es : Entries) (m : Memory), mapWith (resolveEntry root room) es m =
    ((es.map (·.1)).zip (mapWith (resolveIn root room) (es.map (·.2)) m).1,
      (mapWith (resolveIn root room) (es.map (·.2)) m).2)
  | [], _ => rfl
  | e :: es, m => by
    rw [mapWith_cons, List.map_cons, List.map_cons, mapWith_cons, List.zip_cons_cons]
    exact congrArg (fun p => (_ :: p.1, p.2)) (mapWith_resolveEntry es _)

theorem resolveIn_known (h : refOf? es = some r) {w : Value} (hm : m.get? r = some w) :
    resolveIn root (room + 1) (.map es) m = (w, m) := by
  rw [resolveIn]; simp only [h, hm]

theorem resolveIn_dangling (h : refOf? es = some r) (hm : m.get? r = none) (hf : follow root r = none) :
    resolveIn root (room + 1) (.map es) m = (.map [], m.warn (.unresolvable r)) := by
  rw [resolveIn]; simp only [h, hm, hf]

theorem resolveIn_target (h : refOf? es = some r) (hm : m.get? r = none) {t : Value}
    (hf : follow root r = some t) : resolveIn root (room + 1) (.map es) m =
      ((resolveIn root room t (m.put r (placeholder r))).1,
        (resolveIn root room t (m.put r (placeholder r))).2.put r
          (resolveIn root room t (m.put r (placeholder r))).1) := by
  rw [resolveIn]; simp only [h, hm, hf]

end

/-! ## Warnings -/

theorem not_warned_before (root : Value) (w : Warning) : ∀ (room : Nat) (v : Value) (m : Memory),
    w ∉ (resolveIn root room v m).2.warnings → w ∉ m.warnings
  | 0, v, m, h => fun hw => h (by rw [resolveIn_zero]; exact m.warnings_warn _ hw)
  | room + 1, v, m, h => by
    cases shape v with
    | leaf hv => rwa [resolveIn_leaf hv] at h
    | list vs =>
      rw [resolveIn_list] at h
      exact mapWith_back (Q := (w ∉ ·.warnings)) (not_warned_before root w room) vs m h
    | map he =>
      rw [resolveIn_map he] at h
      exact mapWith_back (f := resolveEntry root room) (Q := (w ∉ ·.warnings))
        (fun e => not_warned_before root w room e.2) _ m h
    | @ref es r he =>
      cases hm : m.get? r with
      | some u => rwa [resolveIn_known he hm] at h
      | none =>
        cases hf : follow root r with
        | none =>
          rw [resolveIn_dangling he hm hf] at h
          exact fun hw => h (m.warnings_warn _ hw)
        | some t =>
          rw [resolveIn_target he hm hf] at h
          exact not_warned_before root w room t (m.put r (placeholder r)) h

/-- Nothing was too deep, and only references of a kind led nowhere. -/
structure Quiet (lost : String → Prop) (m : Memory) : Prop where
  shallow : .tooDeep ∉ m.warnings
  known : ∀ r, .unresolvable r ∈ m.warnings → lost r

theorem Quiet.before {lost : String → Prop} {root : Value} {room : Nat} {v : Value} {m : Memory}
    (h : Quiet lost (resolveIn root room v m).2) : Quiet lost m where
  shallow := not_warned_before root _ room v m h.shallow
  known r hr := by
    by_contra hl
    exact not_warned_before root _ room v m (fun hr' => hl (h.known r hr')) hr

theorem not_quiet_zero {lost : String → Prop} {root v : Value} {m : Memory} :
    ¬ Quiet lost (resolveIn root 0 v m).2 := by
  rw [resolveIn_zero]
  exact fun h => h.shallow (m.mem_warn _)

end ToolServer.Reference
