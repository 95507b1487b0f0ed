import ToolServer.Proofs.Document.Within
import ToolServer.Proofs.Reference.Run

/-!
# Relations that resolving keeps

A relation of nodes and what they are resolved to, closed under each way in which a node can be resolved,
holds of every node and its result. What is remembered of a reference is related to its target, the
placeholder included.
-/

namespace ToolServer.Reference

open Document

/-- A relation that is closed under the ways in which nodes are resolved that follow no reference. Leaves stay as
they are, and of a map some entries may be left out. -/
structure Carried (R : Value → Value → Prop) : Prop where
  leaf {v} : IsLeaf v → R v v
  list {vs ws} : List.Forall₂ (fun v w => R v w ∧ (IsLeaf v → w = v)) vs ws → R (.list vs) (.list ws)
  map {es es' fs} : es'.Sublist es → refOf? es' = none →
    List.Forall₂ (fun e f => f.1 = e.1 ∧ R e.2 f.2) es' fs → R (.map es) (.map fs)

/-- A relation that is closed under the ways in which nodes are resolved. -/
structure Closed (root : Value) (R : Value → Value → Prop) : Prop extends Carried R where
  ref {es r t w} : refOf? es = some r → follow root r = some t → R t w → R (.map es) w
  placeholder {r t} : follow root r = some t → R t (placeholder r)

/-- What is remembered of a reference is related to its target. -/
def Remembers (root : Value) (R : Value → Value → Prop) (m : Memory) : Prop :=
  ∀ q w, m.get? q = some w → ∃ t, follow root q = some t ∧ R t w

theorem refOf?_of_no_ref {es : Entries} (h : ∀ e ∈ es, e.1 ≠ .text "$ref") : refOf? es = none := by
  unfold refOf?
  split
  · rename_i r hr
    exact absurd rfl (h _ (Entries.mem_of_get? hr))
  · rfl

section
variable {root : Value} {R : Value → Value → Prop}

/-! ## Below the greatest depth -/

theorem strip_leaf {v : Value} (h : IsLeaf v) : strip v = v := by
  cases v with
  | list vs => exact h.elim
  | map es => exact h.elim
  | _ => rfl

mutual
theorem strip_related (hR : Carried R) : ∀ v : Value, R v (strip v)
  | .list vs => by
    rw [strip]
    exact hR.list (stripItems_related hR vs)
  | .map es => by
    rw [strip]
    refine hR.map List.filter_sublist (refOf?_of_no_ref fun e he hkey => ?_) (stripEntries_related hR es)
    have hno : (e.1 == .text "$ref") = false := by simpa using (List.mem_filter.mp he).2
    rw [Scalar.beq_text_iff.mpr hkey] at hno
    cases hno
  | .scalar _ => hR.leaf trivial
  | .set _ => hR.leaf trivial
  | .pair .. => hR.leaf trivial
theorem stripItems_related (hR : Carried R) : ∀ vs : List Value,
    List.Forall₂ (fun v w => R v w ∧ (IsLeaf v → w = v)) vs (stripItems vs)
  | [] => .nil
  | v :: vs => .cons ⟨strip_related hR v, strip_leaf⟩ (stripItems_related hR vs)
theorem stripEntries_related (hR : Carried R) : ∀ es : List (Scalar × Value),
    List.Forall₂ (fun e f => f.1 = e.1 ∧ R e.2 f.2) (es.filter fun e => !(e.1 == .text "$ref")) (stripEntries es)
  | [] => .nil
  | (k, v) :: es => by
    have ih := stripEntries_related hR es
    rw [stripEntries]
    by_cases hk : (k == .text "$ref") = true
    · simpa [hk] using ih
    · simpa [hk] using And.intro (strip_related hR v) ih
end

/-! ## What is remembered -/

theorem remembers_empty : Remembers root R .empty := fun q w h => by
  rw [Memory.get?_empty] at h
  cases h

theorem Remembers.warn {m : Memory} (h : Remembers root R m) (x : Warning) : Remembers root R (m.warn x) :=
  fun q w hq => h q w (by rwa [Memory.get?_warn] at hq)

theorem Remembers.put {m : Memory} (h : Remembers root R m) {r : String} {t w : Value}
    (hf : follow root r = some t) (hw : R t w) : Remembers root R (m.put r w) := by
  intro q x hq
  by_cases he : q = r
  · subst he
    rw [m.get?_put_self] at hq
    exact ⟨t, hf, Option.some.inj hq ▸ hw⟩
  · exact h q x ((m.get?_put_of_ne he w).symm.trans hq)

theorem resolveIn_fst_leaf {v : Value} (h : IsLeaf v) (room : Nat) (m : Memory) :
    (resolveIn root room v m).1 = v := by
  cases room with
  | zero =>
    rw [resolveIn_zero]
    exact strip_leaf h
  | succ room => rw [resolveIn_leaf h]

theorem resolveIn_related (hR : Closed root R) : ∀ (room : Nat) (v : Value) (m : Memory), Remembers root R m →
    R v (resolveIn root room v m).1 ∧ Remembers root R (resolveIn root room v m).2
  | 0, v, m, hm => by
    rw [resolveIn_zero]
    exact ⟨strip_related hR.toCarried v, hm.warn _⟩
  | room + 1, v, m, hm => by
    cases shape v with
    | leaf h =>
      rw [resolveIn_leaf h]
      exact ⟨hR.leaf h, hm⟩
    | list vs =>
      obtain ⟨hws, hm'⟩ := mapWith_related (R := fun v w => R v w ∧ (IsLeaf v → w = v)) vs
        (fun v _ s hs => (resolveIn_related hR room v s hs).imp_left fun hw =>
          ⟨hw, fun hv => resolveIn_fst_leaf hv room s⟩) m hm
      exact ⟨hR.list hws, hm'⟩
    | @map es h =>
      rw [resolveIn_map h]
      obtain ⟨hfs, hm'⟩ := mapWith_related (f := resolveEntry root room)
        (R := fun e f => f.1 = e.1 ∧ R e.2 f.2) es
        (fun e _ s hs => (resolveIn_related hR room e.2 s hs).imp_left fun hw => ⟨rfl, hw⟩) m hm
      exact ⟨hR.map (List.Sublist.refl es) h hfs, hm'⟩
    | @ref es r h =>
      cases hg : m.get? r with
      | some w =>
        rw [resolveIn_known h hg]
        obtain ⟨t, hf, hw⟩ := hm r w hg
        exact ⟨hR.ref h hf hw, hm⟩
      | none =>
        cases hf : follow root r with
        | none =>
          rw [resolveIn_dangling h hg hf]
          exact ⟨hR.map (List.nil_sublist es) rfl .nil, hm.warn _⟩
        | some t =>
          rw [resolveIn_target h hg hf]
          obtain ⟨hw, hm'⟩ := resolveIn_related hR room t _ (hm.put hf (hR.placeholder hf))
          exact ⟨hR.ref h hf hw, hm'.put hf hw⟩

end

end ToolServer.Reference
