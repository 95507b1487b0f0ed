import Mathlib.Data.List.Perm.Basic
import ToolServer.Proofs.Ordered
import ToolServer.Proofs.Outcome

/-!
# Rearranged lists

A list in another order, with elements in place of its own that correspond to them. What is made of lists element by
element is rearranged with them, and a map with distinct keys gives corresponding values in any order.
-/

namespace ToolServer

/-- The second list has, in some order, an element that corresponds to each one of the first. -/
def Rearranged {α β : Type} (R : α → β → Prop) (l : List α) (m : List β) : Prop :=
  ∃ l', l.Perm l' ∧ List.Forall₂ R l' m

namespace Rearranged

variable {α β γ δ : Type} {R : α → β → Prop} {S : γ → δ → Prop} {l l' : List α} {m m' : List β}

theorem of_perm {R : α → α → Prop} (hR : ∀ a, R a a) (h : l.Perm l') : Rearranged R l l' :=
  ⟨l', h, List.forall₂_same.mpr fun a _ => hR a⟩

theorem append (h : Rearranged R l m) (h' : Rearranged R l' m') : Rearranged R (l ++ l') (m ++ m') := by
  obtain ⟨k, hperm, hrel⟩ := h
  obtain ⟨k', hperm', hrel'⟩ := h'
  exact ⟨k ++ k', hperm.append hperm', List.rel_append hrel hrel'⟩

theorem restrict {P : α → Prop} (h : Rearranged R l m) (hP : ∀ a ∈ l, P a) :
    Rearranged (fun a b => P a ∧ R a b) l m := by
  obtain ⟨k, hperm, hrel⟩ := h
  exact ⟨k, hperm, (List.forall₂_and_left k m).mpr ⟨fun a ha => hP a (hperm.mem_iff.mpr ha), hrel⟩⟩

theorem filterMap {f : α → Option γ} {g : β → Option δ} (h : Rearranged R l m)
    (hfg : ∀ a b, R a b → Option.Rel S (f a) (g b)) : Rearranged S (l.filterMap f) (m.filterMap g) := by
  obtain ⟨k, hperm, hrel⟩ := h
  exact ⟨k.filterMap f, hperm.filterMap f, List.rel_filterMap (fun a b => hfg a b) hrel⟩

theorem map {f : α → γ} {g : β → δ} (h : Rearranged R l m) (hfg : ∀ a b, R a b → S (f a) (g b)) :
    Rearranged S (l.map f) (m.map g) := by
  obtain ⟨k, hperm, hrel⟩ := h
  exact ⟨k.map f, hperm.map f, List.rel_map (fun a b => hfg a b) hrel⟩

theorem filter {p : α → Bool} {q : β → Bool} (h : Rearranged R l m) (hpq : ∀ a b, R a b → p a = q b) :
    Rearranged R (l.filter p) (m.filter q) := by
  obtain ⟨k, hperm, hrel⟩ := h
  refine ⟨k.filter p, hperm.filter p, ?_⟩
  induction hrel generalizing l with
  | nil => exact .nil
  | @cons a b k m hab _ ih =>
    have ih := ih (.refl k)
    by_cases hp : p a = true
    · rw [List.filter_cons_of_pos hp, List.filter_cons_of_pos (hpq a b hab ▸ hp)]
      exact .cons hab ih
    · rw [List.filter_cons_of_neg hp, List.filter_cons_of_neg (hpq a b hab ▸ hp)]
      exact ih

theorem length_eq (h : Rearranged R l m) : l.length = m.length := by
  obtain ⟨k, hperm, hrel⟩ := h
  exact hperm.length_eq.trans hrel.length_eq

theorem countP_eq {p : α → Bool} {q : β → Bool} (h : Rearranged R l m) (hpq : ∀ a b, R a b → p a = q b) :
    l.countP p = m.countP q := by
  rw [List.countP_eq_length_filter, List.countP_eq_length_filter]
  exact (h.filter hpq).length_eq

theorem perm {l l' : List α} (h : Rearranged Eq l l') : l.Perm l' := by
  obtain ⟨k, hperm, hrel⟩ := h
  rw [List.forall₂_eq_eq_eq] at hrel
  exact hrel ▸ hperm

theorem forall_mem {P : α → Prop} {Q : β → Prop} (h : Rearranged R l m) (hPQ : ∀ a b, R a b → P a → Q b)
    (hP : ∀ a ∈ l, P a) : ∀ b ∈ m, Q b := by
  obtain ⟨k, hperm, hrel⟩ := h.restrict hP
  intro b hb
  obtain ⟨a, -, ha, hab⟩ := exists_of_forall₂ hrel b hb
  exact hPQ a b hab ha

end Rearranged

/-! ## Maps -/

namespace Ordered

variable {α β γ : Type} [BEq α]

theorem contains_perm {k : α} {m m' : List (α × β)} (h : m.Perm m') : contains k m = contains k m' := h.any_eq

/-- Entries with one key and corresponding values. -/
def SameKey (R : β → γ → Prop) (e : α × β) (f : α × γ) : Prop := e.1 = f.1 ∧ R e.2 f.2

variable {R : β → γ → Prop} {m : List (α × β)} {n : List (α × γ)}

theorem get?_forall₂ (h : List.Forall₂ (SameKey R) m n) (k : α) : Option.Rel R (get? k m) (get? k n) := by
  induction h with
  | nil => exact .none
  | @cons e f m n hef _ ih =>
    obtain ⟨hkey, hvalue⟩ := hef
    rw [get?, get?, ← hkey]
    split
    · exact .some hvalue
    · exact ih

theorem distinct_forall₂ {S : α × β → α × γ → Prop} (h : List.Forall₂ S m n) (hS : ∀ e f, S e f → e.1 = f.1) :
    Distinct m ↔ Distinct n := by
  have hkeys : n.map (·.1) = m.map (·.1) := map_eq_of_forall₂ (h.imp fun e f hef => (hS e f hef).symm)
  rw [distinct_iff_keys, distinct_iff_keys, hkeys]

variable [LawfulBEq α]

theorem Distinct.perm {m m' : List (α × β)} (hm : Distinct m) (h : m.Perm m') : Distinct m' := by
  rw [distinct_iff_nodup] at hm ⊢
  exact (h.map (·.1)).nodup_iff.mp hm

theorem get?_eq_some_iff {m : List (α × β)} (hm : Distinct m) {k : α} {v : β} :
    get? k m = some v ↔ (k, v) ∈ m :=
  ⟨pair_mem_of_get?, fun h => get?_of_mem hm h (beq_self_eq_true k)⟩

theorem get?_perm {k : α} {m m' : List (α × β)} (hm : Distinct m) (h : m.Perm m') : get? k m = get? k m' := by
  ext v
  rw [get?_eq_some_iff hm, get?_eq_some_iff (hm.perm h), h.mem_iff]

theorem get?_rearranged (h : Rearranged (SameKey R) m n) (hm : Distinct m) (k : α) :
    Option.Rel R (get? k m) (get? k n) := by
  obtain ⟨m', hperm, hrel⟩ := h
  rw [get?_perm hm hperm]
  exact get?_forall₂ hrel k

theorem contains_rearranged (h : Rearranged (SameKey R) m n) (k : α) : contains k m = contains k n := by
  rw [Bool.eq_iff_iff, ← mem_keys_iff, ← mem_keys_iff]
  exact (h.map fun e f hef => hef.1).perm.mem_iff

end Ordered

end ToolServer
