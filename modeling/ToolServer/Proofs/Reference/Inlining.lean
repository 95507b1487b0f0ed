import ToolServer.Proofs.Document.Identity
import ToolServer.Proofs.Reference.Reading

/-!
# Resolving is inlining

`inlineIn` follows every reference where it stands and remembers nothing. `resolve_all_inlined`: where no
reference reaches itself and nothing was warned of, nodes that are resolved one after the other with one
memory all get their full inlinings.
-/

namespace ToolServer.Reference

open Document

/-! ## Room enough -/

theorem eventually_succ {P Q : Nat → Prop} (h : ∃ n, ∀ k ≥ n, P k) (step : ∀ k, P k → Q (k + 1)) :
    ∃ n, ∀ k ≥ n, Q k := by
  obtain ⟨n, hn⟩ := h
  refine ⟨n + 1, fun k hk => ?_⟩
  cases k with
  | zero => exact absurd hk (Nat.not_succ_le_zero n)
  | succ k => exact step k (hn k (Nat.le_of_succ_le_succ hk))

theorem eventually_of_succ {Q : Nat → Prop} (h : ∀ k, Q (k + 1)) : ∃ n, ∀ k ≥ n, Q k :=
  eventually_succ (P := fun _ => True) ⟨0, fun _ _ => trivial⟩ fun k _ => h k

theorem mapM_zip {α β γ : Type} {f : β → Option γ} : ∀ {es : List (α × β)} {ws : List γ},
    (es.map (·.2)).mapM f = some ws → es.mapM (fun e => (f e.2).map (e.1, ·)) = some ((es.map (·.1)).zip ws)
  | [], ws, h => by
    cases h
    rfl
  | e :: es, ws, h => by
    rw [List.map_cons, List.mapM_cons] at h
    obtain ⟨w, hw, h⟩ := Option.bind_eq_some_iff.mp h
    obtain ⟨ws', hws, h⟩ := Option.bind_eq_some_iff.mp h
    cases h
    rw [List.mapM_cons, hw, mapM_zip hws]
    rfl

/-! ## Inlining -/

/-- Inline with room for so many levels. There is no result where a reference leads nowhere or the room
does not suffice. -/
def inlineIn (root : Value) : Nat → Value → Option Value
  | 0, _ => none
  | room + 1, v =>
    match v with
    | .list vs => (vs.mapM (inlineIn root room)).map .list
    | .map es =>
      match refOf? es with
      | some r => (follow root r).bind (inlineIn root room)
      | none => (es.mapM fun e => (inlineIn root room e.2).map (e.1, ·)).map .map
    | v => some v

/-- The full inlining of a node is what inlining gives with room enough. -/
def InlinesTo (root v w : Value) : Prop := ∃ n, ∀ room ≥ n, inlineIn root room v = some w

section
variable {root : Value}

theorem InlinesTo.unique {v w w' : Value} (h : InlinesTo root v w) (h' : InlinesTo root v w') : w = w' := by
  obtain ⟨n, hn⟩ := h
  obtain ⟨n', hn'⟩ := h'
  exact Option.some.inj ((hn _ (Nat.le_max_left ..)).symm.trans (hn' _ (Nat.le_max_right n n')))

theorem inlineIn_leaf {v : Value} (h : IsLeaf v) (room : Nat) : inlineIn root (room + 1) v = some v := by
  cases v with
  | list vs => exact h.elim
  | map es => exact h.elim
  | _ => rfl

theorem mapM_of_inlineIn {room : Nat} {vs ws : List Value}
    (h : inlineIn root (room + 1) (.list vs) = some (.list ws)) :
    vs.mapM (inlineIn root room) = some ws := by
  rw [inlineIn] at h
  obtain ⟨ws', hws, h⟩ := Option.map_eq_some_iff.mp h
  rw [hws, Value.list.inj h]

theorem InlinesTo.cons {v w : Value} {vs ws : List Value} (h : InlinesTo root v w)
    (hs : InlinesTo root (.list vs) (.list ws)) : InlinesTo root (.list (v :: vs)) (.list (w :: ws)) := by
  obtain ⟨n, hn⟩ := h
  obtain ⟨n', hn'⟩ := hs
  have together : ∃ n, ∀ k ≥ n, inlineIn root k v = some w ∧ vs.mapM (inlineIn root k) = some ws :=
    ⟨max n n', fun k hk => ⟨hn k (Nat.le_trans (Nat.le_max_left ..) hk),
      mapM_of_inlineIn (hn' (k + 1) (Nat.le_succ_of_le (Nat.le_trans (Nat.le_max_right ..) hk)))⟩⟩
  refine eventually_succ together fun k ⟨hk, hks⟩ => ?_
  rw [inlineIn, List.mapM_cons, hk, hks]
  rfl

theorem InlinesTo.map {es : Entries} {ws : List Value} (he : refOf? es = none)
    (hs : InlinesTo root (.list (es.map (·.2))) (.list ws)) :
    InlinesTo root (.map es) (.map ((es.map (·.1)).zip ws)) := by
  obtain ⟨n, hn⟩ := hs
  have entries : ∃ n, ∀ k ≥ n, (es.map (·.2)).mapM (inlineIn root k) = some ws :=
    ⟨n, fun k hk => mapM_of_inlineIn (hn (k + 1) (Nat.le_succ_of_le hk))⟩
  refine eventually_succ entries fun k hk => ?_
  rw [inlineIn, he]
  simp only [mapM_zip hk]
  rfl

theorem Acyclic.not_leadsOn (hroot : Acyclic root) {q : String} : ¬ LeadsOn root q q :=
  fun ⟨t, hf, hq⟩ => hroot q t hf hq

/-- Without cycles a knot is one reference, which its target does not reach. -/
theorem Acyclic.gated (hroot : Acyclic root) : Gated root (fun _ => True) (fun _ => True) where
  closed _ _ := trivial
  inside _ := trivial
  behind _ _ _ _ := trivial
  alone _ _ h := h.resolve_right fun ⟨hqr, hrq⟩ => hroot.not_leadsOn (hqr.trans hrq)

theorem Reads.inlinesTo (hroot : Acyclic root) {home : Option String} {l l' : Memory} {v w : Value}
    (h : Reads root (fun _ => False) home l v w l') (hn : ∀ r, Reaches root v r → ¬ Near root home r) :
    InlinesTo root v w := by
  induction h with
  | leaf hv => exact eventually_of_succ fun k => inlineIn_leaf hv k
  | nil => exact eventually_of_succ fun _ => rfl
  | cons _ _ ih ihs =>
    refine (ih fun r hr => hn r (hr.item (List.mem_cons_self ..))).cons (ihs fun r hr => hn r ?_)
    exact hr.of_meets fun q hq => by
      obtain ⟨x, hx, hq⟩ := meets_list_iff.mp hq
      exact .item (List.mem_cons_of_mem _ hx) hq
  | map he _ ih =>
    refine .map he (ih fun r hr => hn r ?_)
    exact hr.of_meets fun q hq => by
      obtain ⟨x, hx, hq⟩ := meets_list_iff.mp hq
      obtain ⟨e, hmem, rfl⟩ := List.mem_map.mp hx
      exact .entry he hmem hq
  | known he h _ => exact absurd h (hn _ (.met (.here he)))
  | near he h _ _ _ => exact absurd h (hn _ (.met (.here he)))
  | far he _ hf _ ih =>
    refine eventually_succ (ih fun s hs ⟨g, hg, hgs⟩ => ?_) fun k hk => ?_
    · obtain rfl := Option.some.inj hg
      rcases hgs with rfl | ⟨-, back⟩
      · exact hroot _ _ hf hs
      · exact hroot _ _ hf (hs.onward back)
    · rw [inlineIn, he]
      simp only [hf]
      exact hk
  | dangling _ _ _ h => exact h.elim

theorem resolve_all_inlined (hroot : Acyclic root) {nodes : List Value}
    (hm : (resolveAll root nodes).2.warnings = []) :
    List.Forall₂ (InlinesTo root) nodes (resolveAll root nodes).1 := by
  have hq : Quiet (fun _ => False) (resolveAll root nodes).2 := by constructor <;> simp [hm]
  refine (mapWith_keeps (f := resolve root) (I := Sound root (fun _ => False) (fun _ => True) [])
    (Q := Quiet (fun _ => False)) (R := InlinesTo root) (fun _ _ h => h.before) nodes
    (fun v _ m hm hvq => ?_) .empty sound_empty hq).1
  have hv : Placed root (fun _ => True) (fun _ => True) [] v :=
    placed_outside (fun _ _ => trivial) fun _ _ => trivial
  obtain ⟨l, hw, hm'⟩ := resolveIn_reads hroot.gated _ [] v .empty m hv hm.outside hvq
  exact ⟨hw.inlinesTo hroot fun r _ ⟨g, hg, _⟩ => (by cases hg), hm'.sound⟩

end

def refTo (ref : String) : Value := .map [(.text "$ref", .text ref)]

def petShop : Value := .map [
  (.text "tag", .map [(.text "type", .text "string")]),
  (.text "pet", .map [(.text "tags", .list [refTo "#/tag", refTo "#/tag"])])]

theorem acyclic_petShop : Acyclic petShop := by
  refine acyclic_of_rank (fun r => if r = "#/tag" then 0 else 1) fun r t q hf hm => ?_
  have hq : q = "#/tag" := by
    obtain ⟨es, hes, he⟩ := hm.within
    have hes := (within_of_follow hf).trans hes
    simp only [petShop, refTo, Within.map_iff, Within.list_iff, Within.scalar_iff, List.mem_cons,
      List.not_mem_nil, or_false, exists_eq_or_imp, exists_eq_left, Value.map.injEq, reduceCtorEq] at hes
    rcases hes with rfl | rfl | rfl | h | rfl | rfl
    · cases he
    · cases he
    · cases he
    · exact h.elim
    · exact (Option.some.inj he).symm
    · exact (Option.some.inj he).symm
  by_cases hr : r = "#/tag"
  · have ht : follow petShop "#/tag" = some (.map [(.text "type", .text "string")]) := by decide +kernel
    rw [hr, ht] at hf
    obtain rfl := Option.some.inj hf
    obtain ⟨e, he, hm⟩ := (meets_map_iff rfl).mp hm
    obtain rfl := List.mem_singleton.mp he
    exact absurd hm (not_meets_leaf (v := .text "string") trivial)
  · simp [hq, hr]

theorem resolve_all_inlined_petShop :
    Acyclic petShop ∧ (resolveAll petShop [refTo "#/pet", refTo "#/tag"]).2.warnings = [] ∧
      List.Forall₂ (InlinesTo petShop) [refTo "#/pet", refTo "#/tag"]
        (resolveAll petShop [refTo "#/pet", refTo "#/tag"]).1 := by
  have hm : (resolveAll petShop [refTo "#/pet", refTo "#/tag"]).2.warnings = [] := by decide +kernel
  exact ⟨acyclic_petShop, hm, resolve_all_inlined acyclic_petShop hm⟩

end ToolServer.Reference
