import Mathlib.Data.Fintype.EquivFin
import ToolServer.Proofs.Decimal.Double
import ToolServer.Proofs.Document.Within
import ToolServer.Proofs.Ordered

/-!
# Equality of values

Equality of scalars, and of values whose maps have no key twice, goes both ways. It is not reflexive: NaN equals
nothing, and a value equals itself just when it holds no NaN.
-/

namespace ToolServer.Ordered

variable {α β γ : Type} [BEq α] [PartialEquivBEq α]

/-- Of two maps of one length, each has the keys of the other if one has. -/
theorem contains_of_contains {m : List (α × β)} {n : List (α × γ)} (hm : Distinct m)
    (hlen : m.length = n.length) (h : ∀ e ∈ m, contains e.1 n = true) : ∀ e ∈ n, contains e.1 m = true := by
  -- each key of the one has a place in the other, no two keys the same, so all places are taken
  have hplace : ∀ i : Fin m.length, ∃ j : Fin n.length, (n[j].1 == m[i].1) = true := by
    intro i
    obtain ⟨v, hv⟩ := contains_iff.mp (h m[i] (List.getElem_mem _))
    obtain ⟨k, hk, hmem⟩ := mem_of_get? hv
    obtain ⟨j, hj, hget⟩ := List.getElem_of_mem hmem
    exact ⟨⟨j, hj⟩, by simpa [hget] using hk⟩
  choose place hplace using hplace
  have hinj : Function.Injective place := by
    intro i j hij
    have heq : (m[i].1 == m[j].1) = true :=
      PartialEquivBEq.trans (PartialEquivBEq.symm (hplace i)) (hij ▸ hplace j)
    have hne := List.pairwise_iff_getElem.mp hm
    rcases Nat.lt_trichotomy i j with hlt | hval | hlt
    · exact absurd heq (by simp [hne i j i.2 j.2 hlt])
    · exact Fin.ext hval
    · exact absurd (PartialEquivBEq.symm heq) (by simp [hne j i j.2 i.2 hlt])
  have hsurj := ((Fintype.bijective_iff_injective_and_card place).mpr ⟨hinj, by simpa using hlen⟩).2
  intro e he
  obtain ⟨j, hj, rfl⟩ := List.getElem_of_mem he
  obtain ⟨i, hi⟩ := hsurj ⟨j, hj⟩
  have hkey : (n[j].1 == m[i].1) = true := by simpa [hi] using hplace i
  exact List.any_eq_true.mpr ⟨m[i], List.getElem_mem _, PartialEquivBEq.symm hkey⟩

end ToolServer.Ordered

namespace ToolServer.Document

open Decimal

/-! ## Scalars -/

theorem Moment.same_symm {s t : Moment} (h : s.same t = true) : t.same s = true := by
  unfold same at h ⊢
  split at h <;> simp_all

theorem Moment.same_trans {s t u : Moment} (h : s.same t = true) (h' : t.same u = true) : s.same u = true := by
  unfold same at h h' ⊢
  split at h <;> split at h' <;> simp_all

namespace Scalar

theorem same_symm {a b : Scalar} (h : same a b = true) : same b a = true := by
  cases a with
  | real x =>
    cases b with
    | real y => exact Double.equals_symm h
    | _ => simp_all [same, asInt?]
  | moment s =>
    cases b with
    | moment t => exact Moment.same_symm h
    | _ => simp_all [same, asInt?]
  | _ => cases b <;> simp_all [same, asInt?]

theorem same_bool (a : Scalar) (b : Bool) : same a (bool b) = same a (int (if b then 1 else 0)) := by
  cases a <;> simp [same, asInt?]

theorem same_of_int {a c : Scalar} {n : Int} (h : same a (int n) = true) (h' : same c (int n) = true) :
    same a c = true := by
  cases a with
  | real x =>
    cases c with
    | real z => exact Double.equals_of_equalsInt h h'
    | _ => simp_all [same, asInt?]
  | _ => cases c <;> simp_all [same, asInt?]

theorem same_of_real {a c : Scalar} {y : Double} (h : same a (real y) = true) (h' : same c (real y) = true) :
    same a c = true := by
  cases a with
  | real x =>
    cases c with
    | real z => exact Double.equals_trans h (Double.equals_symm h')
    | bool b => exact Double.equalsInt_of_equals (Double.equals_symm h) h'
    | int n => exact Double.equalsInt_of_equals (Double.equals_symm h) h'
    | _ => simp [same, asInt?] at h'
  | bool b =>
    cases c with
    | real z => exact Double.equalsInt_of_equals (Double.equals_symm h') h
    | bool c => exact beq_iff_eq.mpr (Double.eq_of_equalsInt h h')
    | int n => exact beq_iff_eq.mpr (Double.eq_of_equalsInt h h')
    | _ => simp [same, asInt?] at h'
  | int m =>
    cases c with
    | real z => exact Double.equalsInt_of_equals (Double.equals_symm h') h
    | bool c => exact beq_iff_eq.mpr (Double.eq_of_equalsInt h h')
    | int n => exact beq_iff_eq.mpr (Double.eq_of_equalsInt h h')
    | _ => simp [same, asInt?] at h'
  | _ => simp [same, asInt?] at h

theorem same_trans {a b c : Scalar} (h : same a b = true) (h' : same b c = true) : same a c = true := by
  have h'' : same c b = true := same_symm h'
  cases b with
  | bool b =>
    rw [same_bool] at h h''
    exact same_of_int h h''
  | int n => exact same_of_int h h''
  | real y => exact same_of_real h h''
  | moment t =>
    cases a with
    | moment s =>
      cases c with
      | moment u => exact Moment.same_trans h h'
      | _ => simp [same, asInt?] at h'
    | _ => simp [same, asInt?] at h
  | _ => cases a <;> simp_all [same, asInt?]

instance : PartialEquivBEq Scalar := ⟨same_symm, same_trans⟩

end Scalar

/-! ## Values -/

namespace Value

/-- No map inside has a key twice, and no set a member. -/
structure Keyed (v : Value) : Prop where
  keys : ∀ es, Within v (.map es) → Ordered.Distinct es
  members : ∀ ms, Within v (.set ms) → Ordered.Distinct (ms.map fun s => (s, ()))

theorem Keyed.part {v w : Value} (h : Keyed v) (hw : Within v w) : Keyed w where
  keys es hes := h.keys es (hw.trans hes)
  members ms hms := h.members ms (hw.trans hms)

theorem sameEntries_iff {xs ys : Entries} : sameEntries xs ys = true ↔
    ∀ e ∈ xs, ∃ w, Ordered.get? e.1 ys = some w ∧ same e.2 w = true := by
  induction xs with
  | nil => simp [sameEntries]
  | cons e xs ih =>
    rw [sameEntries, Bool.and_eq_true, ih, List.forall_mem_cons]
    refine and_congr_left fun _ => ?_
    cases Ordered.get? e.1 ys <;> simp

theorem sameMembers_symm {xs ys : List Scalar} (hxs : Ordered.Distinct (xs.map fun s => (s, ())))
    (h : sameMembers xs ys = true) : sameMembers ys xs = true := by
  have hcontains : ∀ (ms : List Scalar) (s : Scalar),
      Ordered.contains s (ms.map fun s => (s, ())) = true ↔ ms.contains s = true := by
    intro ms s
    rw [Ordered.contains, List.any_map, List.contains_eq_any_beq, List.any_eq_true, List.any_eq_true]
    exact exists_congr fun m => and_congr_right fun _ => ⟨PartialEquivBEq.symm, PartialEquivBEq.symm⟩
  obtain ⟨hlen, h⟩ := Bool.and_eq_true_iff.mp h
  have hlen : xs.length = ys.length := beq_iff_eq.mp hlen
  have hkeys : ∀ e ∈ xs.map fun s => (s, ()), Ordered.contains e.1 (ys.map fun s => (s, ())) = true := by
    intro e he
    obtain ⟨s, hs, rfl⟩ := List.mem_map.mp he
    exact (hcontains ys s).mpr (List.all_eq_true.mp h s hs)
  refine Bool.and_eq_true_iff.mpr ⟨beq_iff_eq.mpr hlen.symm, List.all_eq_true.mpr fun s hs => ?_⟩
  exact (hcontains xs s).mp (Ordered.contains_of_contains hxs (by simpa using hlen) hkeys _
    (List.mem_map_of_mem hs))

theorem sameEntries_symm {xs ys : Entries} (hxs : Ordered.Distinct xs) (hys : Ordered.Distinct ys)
    (hlen : xs.length = ys.length) (hback : ∀ e ∈ xs, ∀ f ∈ ys, same e.2 f.2 = true → same f.2 e.2 = true)
    (h : sameEntries xs ys = true) : sameEntries ys xs = true := by
  rw [sameEntries_iff] at h ⊢
  have hkeys : ∀ e ∈ xs, Ordered.contains e.1 ys = true := fun e he =>
    Ordered.contains_iff.mpr ((h e he).imp fun _ hw => hw.1)
  intro f hf
  obtain ⟨v, hv⟩ := Ordered.contains_iff.mp (Ordered.contains_of_contains hxs hlen hkeys f hf)
  obtain ⟨k, hk, hmem⟩ := Ordered.mem_of_get? hv
  obtain ⟨w, hw, hsame⟩ := h _ hmem
  have hwf : w = f.2 := by
    have hget := Ordered.get?_of_mem hys hf (PartialEquivBEq.symm hk)
    exact Option.some.inj (hw.symm.trans hget)
  exact ⟨v, hv, hback _ hmem f hf (hwf ▸ hsame)⟩

mutual
/-- **Equality of values goes both ways.** -/
theorem same_symm : ∀ {v w : Value}, Keyed v → Keyed w → same v w = true → same w v = true
  | .scalar a, .scalar b, _, _, h => Scalar.same_symm h
  | .list xs, .list ys, hv, hw, h =>
    sameItems_symm (fun x hx => hv.part (.of_item hx)) (fun y hy => hw.part (.of_item hy)) h
  | .map xs, .map ys, hv, hw, h => by
    obtain ⟨hlen, h⟩ := Bool.and_eq_true_iff.mp h
    have hlen : xs.length = ys.length := beq_iff_eq.mp hlen
    have hback := entries_symm fun e (he : e ∈ xs) => hv.part (.of_entry he)
    refine Bool.and_eq_true_iff.mpr ⟨beq_iff_eq.mpr hlen.symm, ?_⟩
    exact sameEntries_symm (hv.keys xs .refl) (hw.keys ys .refl) hlen
      (fun e he f hf => hback e he f.2 (hw.part (.of_entry hf))) h
  | .set xs, .set ys, hv, _, h => sameMembers_symm (hv.members xs .refl) h
  | .pair a b, .pair c d, hv, hw, h => by
    obtain ⟨h, h'⟩ := Bool.and_eq_true_iff.mp h
    exact Bool.and_eq_true_iff.mpr ⟨same_symm (hv.part (.first .refl)) (hw.part (.first .refl)) h,
      same_symm (hv.part (.second .refl)) (hw.part (.second .refl)) h'⟩
theorem sameItems_symm : ∀ {xs ys : List Value}, (∀ x ∈ xs, Keyed x) → (∀ y ∈ ys, Keyed y) →
    sameItems xs ys = true → sameItems ys xs = true
  | [], [], _, _, _ => rfl
  | x :: xs, y :: ys, hxs, hys, h => by
    obtain ⟨hx, hxs⟩ := List.forall_mem_cons.mp hxs
    obtain ⟨hy, hys⟩ := List.forall_mem_cons.mp hys
    obtain ⟨h, h'⟩ := Bool.and_eq_true_iff.mp h
    exact Bool.and_eq_true_iff.mpr ⟨same_symm hx hy h, sameItems_symm hxs hys h'⟩
theorem entries_symm : ∀ {es : List (Scalar × Value)}, (∀ e ∈ es, Keyed e.2) →
    ∀ e ∈ es, ∀ w, Keyed w → same e.2 w = true → same w e.2 = true
  | (k, v) :: es, h, e, he, w, hw, hsame => by
    obtain ⟨hv, hes⟩ := List.forall_mem_cons.mp h
    rcases List.mem_cons.mp he with rfl | he
    · exact same_symm hv hw hsame
    · exact entries_symm hes e he w hw hsame
end

end Value

/-! ## Values and themselves -/

def Scalar.isNan : Scalar → Bool
  | real x => x.isNan
  | _ => false

theorem Scalar.beq_self_iff {s : Scalar} : (s == s) = true ↔ s.isNan = false := by
  cases s with
  | real x =>
    constructor
    · intro h
      rcases Double.equals_iff.mp h with ⟨hnan, -⟩ | ⟨hzero, -⟩
      · exact hnan
      · exact Double.isNan_of_isZero hzero
    · intro h
      exact Double.equals_iff.mpr (.inl ⟨h, rfl⟩)
  | moment t =>
    have hself : t.same t = true := by
      unfold Moment.same
      cases t.offset <;> simp
    exact ⟨fun _ => rfl, fun _ => hself⟩
  | bytes bs => exact ⟨fun _ => rfl, fun _ => beq_self_eq_true bs⟩
  | _ => simp [BEq.beq, same, asInt?, isNan]

namespace Value

inductive Holds : Value → Scalar → Prop
  | scalar {s} : Holds (.scalar s) s
  | item {vs v s} : v ∈ vs → Holds v s → Holds (.list vs) s
  | key {es e} : e ∈ es → Holds (.map es) e.1
  | entry {es e s} : e ∈ es → Holds e.2 s → Holds (.map es) s
  | member {ms s} : s ∈ ms → Holds (.set ms) s
  | first {a b s} : Holds a s → Holds (.pair a b) s
  | second {a b s} : Holds b s → Holds (.pair a b) s

def NanFree (v : Value) : Prop := ∀ s, Holds v s → s.isNan = false

theorem sameItems_self_iff {vs : List Value} : sameItems vs vs = true ↔ ∀ v ∈ vs, same v v = true := by
  induction vs with
  | nil => simp [sameItems]
  | cons v vs ih => rw [sameItems, Bool.and_eq_true, ih, List.forall_mem_cons]

theorem sameEntries_self_iff {es : Entries} (h : Ordered.Distinct es) :
    sameEntries es es = true ↔ ∀ e ∈ es, (e.1 == e.1) = true ∧ same e.2 e.2 = true := by
  rw [sameEntries_iff]
  refine forall₂_congr fun e he => ?_
  constructor
  · intro hsame
    obtain ⟨w, hget, hsame⟩ := hsame
    obtain ⟨k, hk, -⟩ := Ordered.mem_of_get? hget
    have hself : (e.1 == e.1) = true := PartialEquivBEq.trans (PartialEquivBEq.symm hk) hk
    rw [Ordered.get?_of_mem h he hself] at hget
    cases hget
    exact ⟨hself, hsame⟩
  · intro hself
    exact ⟨e.2, Ordered.get?_of_mem h he hself.1, hself.2⟩

theorem sameMembers_self_iff {ms : List Scalar} : sameMembers ms ms = true ↔ ∀ s ∈ ms, (s == s) = true := by
  unfold sameMembers
  simp only [beq_self_eq_true, Bool.true_and, List.all_eq_true, List.contains_eq_any_beq, List.any_eq_true]
  refine forall₂_congr fun s hs => ?_
  constructor
  · intro h
    obtain ⟨m, -, hm⟩ := h
    exact PartialEquivBEq.trans hm (PartialEquivBEq.symm hm)
  · intro h
    exact ⟨s, hs, h⟩

mutual
/-- **A value equals itself just when it holds no NaN.** -/
theorem same_self_iff : ∀ {v : Value}, Keyed v → (same v v = true ↔ NanFree v)
  | .scalar a, _ => by
    have hself : same (.scalar a) (.scalar a) = true ↔ a.isNan = false := Scalar.beq_self_iff
    rw [hself]
    constructor
    · intro h s hs
      cases hs
      exact h
    · intro h
      exact h a .scalar
  | .list vs, h => by
    have ih := items_self_iff fun v hv => h.part (.of_item hv)
    rw [same, sameItems_self_iff]
    constructor
    · intro hself s hs
      cases hs with
      | item hv hs => exact (ih _ hv).mp (hself _ hv) s hs
    · intro hfree v hv
      exact (ih v hv).mpr fun s hs => hfree s (.item hv hs)
  | .map es, h => by
    have ih := entries_self_iff fun e he => h.part (.of_entry he)
    rw [same, beq_self_eq_true, Bool.true_and, sameEntries_self_iff (h.keys es .refl)]
    constructor
    · intro hself s hs
      cases hs with
      | key he => exact Scalar.beq_self_iff.mp (hself _ he).1
      | entry he hs => exact (ih _ he).mp (hself _ he).2 s hs
    · intro hfree e he
      exact ⟨Scalar.beq_self_iff.mpr (hfree _ (.key he)), (ih e he).mpr fun s hs => hfree s (.entry he hs)⟩
  | .set ms, _ => by
    rw [same, sameMembers_self_iff]
    constructor
    · intro hself s hs
      cases hs with
      | member hs => exact Scalar.beq_self_iff.mp (hself s hs)
    · intro hfree s hs
      exact Scalar.beq_self_iff.mpr (hfree s (.member hs))
  | .pair a b, h => by
    rw [same, Bool.and_eq_true, same_self_iff (h.part (.first .refl)), same_self_iff (h.part (.second .refl))]
    constructor
    · intro hself s hs
      cases hs with
      | first hs => exact hself.1 s hs
      | second hs => exact hself.2 s hs
    · intro hfree
      exact ⟨fun s hs => hfree s (.first hs), fun s hs => hfree s (.second hs)⟩
theorem items_self_iff : ∀ {vs : List Value}, (∀ v ∈ vs, Keyed v) →
    ∀ v ∈ vs, same v v = true ↔ NanFree v
  | w :: vs, h, v, hv => by
    obtain ⟨hw, hvs⟩ := List.forall_mem_cons.mp h
    have hself := same_self_iff hw
    rcases List.mem_cons.mp hv with rfl | hv
    · exact hself
    · exact items_self_iff hvs v hv
theorem entries_self_iff : ∀ {es : List (Scalar × Value)}, (∀ e ∈ es, Keyed e.2) →
    ∀ e ∈ es, same e.2 e.2 = true ↔ NanFree e.2
  | (k, v) :: es, h, e, he => by
    obtain ⟨hv, hes⟩ := List.forall_mem_cons.mp h
    have hself := same_self_iff hv
    rcases List.mem_cons.mp he with rfl | he
    · exact hself
    · exact entries_self_iff hes e he
end

end Value

end ToolServer.Document
