import ToolServer.Proofs.Reference.Inlining

/-!
# Resolving after other nodes

A reference is resolved once, with whatever placeholders stand at the time, and that value stays. So a
node may get another value after other nodes than in a fresh memory (`resolve_depends_on_earlier`): of
two references that reach each other, the one entered first has its placeholder in the value of the
other. `resolve_after_eq_fresh`: unless a knot is entered at one reference by an earlier node and at
another by the node itself, earlier nodes make no difference.
-/

namespace ToolServer.Reference

open Document

/-! ## Two runs side by side -/

/-- Memories that are both right about gated references and have the same of all others in `S`. -/
structure Agree (root : Value) (T gate S : String → Prop) (m m' : Memory) : Prop where
  left : Sound root (fun _ => True) gate [] m
  right : Sound root (fun _ => True) gate [] m'
  same {q} : S q → ¬ T q → m.get? q = m'.get? q

/-- From the targets of other references in `S`, gated references are met at gates only. -/
def Fenced (root : Value) (T gate S : String → Prop) : Prop :=
  ∀ {q t r}, S q → ¬ T q → follow root q = some t → Meets t r → T r → gate r

section
variable {root : Value} {T gate S : String → Prop}

theorem Gated.not_sameKnot_wild (hG : Gated root T gate) {r : String} (hr : ¬ T r) :
    ∀ q, gate q → q ∉ [] → ¬ SameKnot root q r := by
  rintro q hq - (rfl | ⟨hqr, -⟩)
  · exact hr (hG.inside hq)
  · exact hr (hG.closed (hG.inside hq) hqr)

theorem Agree.warn {m m' : Memory} (h : Agree root T gate S m m') (w : Warning) :
    Agree root T gate S (m.warn w) (m'.warn w) where
  left := h.left.warn w
  right := h.right.warn w
  same hS hT := by
    rw [Memory.get?_warn, Memory.get?_warn]
    exact h.same hS hT

theorem Agree.put (hG : Gated root T gate) {m m' : Memory} (h : Agree root T gate S m m') {r : String}
    (hr : ¬ T r) (w : Value) : Agree root T gate S (m.put r w) (m'.put r w) where
  left := h.left.put (hG.not_sameKnot_wild hr) w
  right := h.right.put (hG.not_sameKnot_wild hr) w
  same {q} hS hT := by
    by_cases he : q = r
    · subst he
      rw [m.get?_put_self, m'.get?_put_self]
    · rw [m.get?_put_of_ne he, m'.get?_put_of_ne he]
      exact h.same hS hT

/-- Behind a gate both memories give what is read there, and nothing but gated references is touched. -/
theorem resolveIn_agree_gate (hG : Gated root T gate) {es : Entries} {r : String} (he : refOf? es = some r)
    (hr : gate r) (room : Nat) {m m' : Memory} (h : Agree root T gate S m m')
    (hq : Quiet (fun _ => True) (resolveIn root room (.map es) m).2)
    (hq' : Quiet (fun _ => True) (resolveIn root room (.map es) m').2) :
    (resolveIn root room (.map es) m).1 = (resolveIn root room (.map es) m').1 ∧
      Agree root T gate S (resolveIn root room (.map es) m).2 (resolveIn root room (.map es) m').2 := by
  have hT : ∀ q, Reaches root (.map es) q → T q := by
    intro q hq
    rcases reaches_ref he hq with rfl | hq
    · exact hG.inside hr
    · exact hG.closed (hG.inside hr) hq
  have hv : Placed root T gate [] (.map es) := placed_outside hT fun q hm => meets_ref he hm ▸ hr
  obtain ⟨l, hw, hl⟩ := resolveIn_reads hG room [] _ .empty m hv h.left.outside hq
  obtain ⟨l', hw', hl'⟩ := resolveIn_reads hG room [] _ .empty m' hv h.right.outside hq'
  refine ⟨(hw.unique hw').1, hl.sound, hl'.sound, fun {q} hS hqT => ?_⟩
  have hn : ¬ Reaches root (.map es) q := fun hq => hqT (hT q hq)
  rw [get?_resolveIn_of_not_reaches _ _ _ _ _ hn, get?_resolveIn_of_not_reaches _ _ _ _ _ hn]
  exact h.same hS hqT

/-- **Runs that begin in agreement end in agreement.** References that are not gated take both runs through
the same case; at a gate the runs may part, and meet again behind it. -/
theorem resolveIn_agree (hG : Gated root T gate) (hF : Fenced root T gate S) :
    ∀ (room : Nat) (v : Value) (m m' : Memory), (∀ r, Reaches root v r → S r) →
      (∀ r, Meets v r → T r → gate r) → Agree root T gate S m m' →
      Quiet (fun _ => True) (resolveIn root room v m).2 →
      Quiet (fun _ => True) (resolveIn root room v m').2 →
        (resolveIn root room v m).1 = (resolveIn root room v m').1 ∧
          Agree root T gate S (resolveIn root room v m).2 (resolveIn root room v m').2
  | 0, _, _, _, _, _, _, hq, _ => (not_quiet_zero hq).elim
  | room + 1, v, m, m', hS, hg, h, hq, hq' => by
    cases shape v with
    | leaf hv =>
      rw [resolveIn_leaf hv, resolveIn_leaf hv]
      exact ⟨rfl, h⟩
    | list vs =>
      rw [resolveIn_list] at hq hq' ⊢
      rw [resolveIn_list]
      obtain ⟨he, h'⟩ := mapWith_agree (I := Agree root T gate S) (Q := Quiet fun _ => True)
        (fun _ _ h => h.before) vs
        (fun x hx s s' hs hxq hxq' => resolveIn_agree hG hF room x s s' (fun r hr => hS r (hr.item hx))
          (fun r hm => hg r (.item hx hm)) hs hxq hxq')
        m m' h hq hq'
      exact ⟨congrArg Value.list he, h'⟩
    | @map es hes =>
      rw [resolveIn_map hes] at hq hq' ⊢
      rw [resolveIn_map hes]
      obtain ⟨he, h'⟩ := mapWith_agree (f := resolveEntry root room) (I := Agree root T gate S)
        (Q := Quiet fun _ => True) (fun _ _ h => h.before) es
        (fun e he s s' hs hxq hxq' => by
          obtain ⟨hw, hs'⟩ := resolveIn_agree hG hF room e.2 s s' (fun r hr => hS r (hr.entry hes he))
            (fun r hm => hg r (.entry hes he hm)) hs hxq hxq'
          exact ⟨congrArg (e.1, ·) hw, hs'⟩)
        m m' h hq hq'
      exact ⟨congrArg Value.map he, h'⟩
    | @ref es r hes =>
      have hr : Meets (.map es) r := .here hes
      by_cases hT : T r
      · exact resolveIn_agree_gate hG hes (hg r hr hT) _ h hq hq'
      have hsame : m.get? r = m'.get? r := h.same (hS r (.met hr)) hT
      cases hm : m.get? r with
      | some w =>
        rw [resolveIn_known hes hm, resolveIn_known hes (hsame ▸ hm)]
        exact ⟨rfl, h⟩
      | none =>
        cases hf : follow root r with
        | none =>
          rw [resolveIn_dangling hes hm hf, resolveIn_dangling hes (hsame ▸ hm) hf]
          exact ⟨rfl, h.warn _⟩
        | some t =>
          rw [resolveIn_target hes hm hf] at hq ⊢
          rw [resolveIn_target hes (hsame ▸ hm) hf] at hq' ⊢
          obtain ⟨he, h'⟩ := resolveIn_agree hG hF room t _ _ (fun q hq => hS q (hq.target hes hf))
            (fun q hm => hF (hS r (.met hr)) hT hf hm) (h.put hG hT (placeholder r))
            ⟨hq.shallow, hq.known⟩ ⟨hq'.shallow, hq'.known⟩
          exact ⟨he, he ▸ h'.put hG hT _⟩

end

/-! ## Earlier nodes -/

def Shared (root : Value) (earlier : List Value) (v : Value) (r : String) : Prop :=
  (∃ u ∈ earlier, Reaches root u r) ∧ Reaches root v r

def Gate (root : Value) (earlier : List Value) (v : Value) (r : String) : Prop :=
  Shared root earlier v r ∧ ∃ u ∈ v :: earlier, Enters root u r

section
variable {root v : Value} {earlier : List Value}

theorem Shared.onward {q r : String} (hq : Shared root earlier v q) (h : LeadsOn root q r) :
    Shared root earlier v r := by
  obtain ⟨⟨u, hu, hq⟩, hv⟩ := hq
  exact ⟨⟨u, hu, hq.onward h⟩, hv.onward h⟩

theorem gated_shared
    (hfree : ∀ q r, (∃ u ∈ earlier, Enters root u q) → Enters root v r → ¬ Entangled root q r) :
    Gated root (Shared root earlier v) (Gate root earlier v) where
  closed := .onward
  inside h := h.1
  behind hq hf hm hb :=
    ⟨hq.onward (leadsOn_of_meets hf hm), v, List.mem_cons_self .., .behind hq.2 hf hm hb⟩
  alone {q r} hq hr h := by
    -- the earlier nodes and the node enter the knot at one reference, which is every gate of it
    obtain ⟨⟨u, hu, huq⟩, hvq⟩ := hq.1
    obtain ⟨p, hp, hpq⟩ := exists_enters huq
    obtain ⟨p', hp', hpq'⟩ := exists_enters hvq
    have free : ∀ {s s'}, (∃ u ∈ earlier, Enters root u s) → Enters root v s' → SameKnot root s s' →
        s = s' := by
      intro s s' hs hs' hss
      by_contra hne
      exact hfree s s' hs hs' (hss.entangled hne)
    have hpp : p = p' := free ⟨u, hu, hp⟩ hp' (hpq.trans hpq'.symm)
    have only : ∀ s, Gate root earlier v s → SameKnot root p s → p = s := by
      rintro s ⟨-, x, hx, hxs⟩ hps
      rcases List.mem_cons.mp hx with rfl | hx
      · exact free ⟨u, hu, hp⟩ hxs hps
      · rw [hpp]
        exact (free ⟨x, hx, hxs⟩ hp' (hpp ▸ hps.symm)).symm
    exact (only q hq hpq).symm.trans (only r hr (hpq.trans h))

theorem fenced_shared {u : Value} (hu : u ∈ v :: earlier) :
    Fenced root (Shared root earlier v) (Gate root earlier v) (Reaches root u) := by
  intro q t r hq hn hf hm hr
  exact ⟨hr, u, hu, .behind hq hf hm fun back => hn (hr.onward back)⟩

theorem resolve_agree (hG : Gated root (Shared root earlier v) (Gate root earlier v)) {u : Value}
    (hu : u ∈ v :: earlier) {m m' : Memory}
    (h : Agree root (Shared root earlier v) (Gate root earlier v) (Reaches root u) m m')
    (hq : Quiet (fun _ => True) (resolve root u m).2)
    (hq' : Quiet (fun _ => True) (resolve root u m').2) :
    (resolve root u m).1 = (resolve root u m').1 ∧
      Agree root (Shared root earlier v) (Gate root earlier v) (Reaches root u) (resolve root u m).2
        (resolve root u m').2 :=
  resolveIn_agree hG (fenced_shared hu) _ u m m' (fun _ => id) (fun _ hr hT => ⟨hT, u, hu, .met hr⟩) h hq hq'

theorem sound_resolveAll (hG : Gated root (Shared root earlier v) (Gate root earlier v))
    (hq : Quiet (fun _ => True) (resolveAll root earlier).2) :
    Sound root (fun _ => True) (Gate root earlier v) [] (resolveAll root earlier).2 := by
  refine (mapWith_keeps (f := resolve root) (I := Sound root (fun _ => True) (Gate root earlier v) [])
    (Q := Quiet fun _ => True) (R := fun _ _ => True) (fun _ _ h => h.before) earlier
    (fun u hu m hm huq => ⟨trivial, ?_⟩) .empty sound_empty hq).2
  exact (resolve_agree hG (List.mem_cons_of_mem _ hu) ⟨hm, hm, fun _ _ => rfl⟩ huq huq).2.left

theorem get?_resolveAll_of_not_reaches {q : String} (h : ∀ u ∈ earlier, ¬ Reaches root u q) :
    (resolveAll root earlier).2.get? q = none :=
  mapWith_invariant (f := resolve root) (I := fun s => s.get? q = none) earlier
    (fun u hu s hs => (get?_resolveIn_of_not_reaches root q _ u s (h u hu)).trans hs) .empty rfl

theorem resolve_after_eq_fresh
    (hfree : ∀ q r, (∃ u ∈ earlier, Enters root u q) → Enters root v r → ¬ Entangled root q r)
    (hlate : .tooDeep ∉ (resolve root v (resolveAll root earlier).2).2.warnings)
    (hfresh : .tooDeep ∉ (resolve root v .empty).2.warnings) :
    (resolve root v (resolveAll root earlier).2).1 = (resolve root v .empty).1 := by
  have hG := gated_shared hfree
  have hq : Quiet (fun _ => True) (resolve root v (resolveAll root earlier).2).2 :=
    ⟨hlate, fun _ _ => trivial⟩
  have hsame : ∀ {q}, Reaches root v q → ¬ Shared root earlier v q →
      (resolveAll root earlier).2.get? q = none := by
    intro q hv hs
    exact get?_resolveAll_of_not_reaches fun u hu hr => hs ⟨⟨u, hu, hr⟩, hv⟩
  have h : Agree root (Shared root earlier v) (Gate root earlier v) (Reaches root v)
      (resolveAll root earlier).2 .empty := ⟨sound_resolveAll hG hq.before, sound_empty, hsame⟩
  exact (resolve_agree hG (List.mem_cons_self ..) h hq ⟨hfresh, fun _ _ => trivial⟩).1

end

def knot : Value := .map [
  (.text "a", .map [(.text "b", refTo "#/b")]),
  (.text "b", .map [(.text "a", refTo "#/a")])]

theorem resolve_depends_on_earlier : ¬ ∀ (root v : Value) (earlier : List Value),
    .tooDeep ∉ (resolve root v (resolveAll root earlier).2).2.warnings →
    .tooDeep ∉ (resolve root v .empty).2.warnings →
    (resolve root v (resolveAll root earlier).2).1 = (resolve root v .empty).1 := by
  intro h
  have hlate : (resolve knot (refTo "#/b") (resolveAll knot [refTo "#/a"]).2).1 =
      .map [(.text "a", placeholder "#/a")] := by decide +kernel
  have hfresh : (resolve knot (refTo "#/b") .empty).1 =
      .map [(.text "a", .map [(.text "b", placeholder "#/b")])] := by decide +kernel
  have := h knot (refTo "#/b") [refTo "#/a"] (by decide +kernel) (by decide +kernel)
  rw [hlate, hfresh] at this
  simp [placeholder] at this

theorem enters_knot {r : String} (h : Enters knot (refTo "#/a") r) : r = "#/a" := by
  have ha : follow knot "#/a" = some (.map [(.text "b", refTo "#/b")]) := by decide +kernel
  have hb : follow knot "#/b" = some (.map [(.text "a", refTo "#/a")]) := by decide +kernel
  have met : ∀ {k q s}, Meets (.map [(.text k, refTo q)]) s → refOf? [(.text k, refTo q)] = none →
      s = q := by
    intro k q s hm he
    obtain ⟨e, hmem, hm⟩ := (meets_map_iff he).mp hm
    obtain rfl := List.mem_singleton.mp hmem
    exact meets_ref rfl hm
  cases h with
  | met hm => exact meets_ref rfl hm
  | @behind q t _ hq hf hm back =>
    have hqs : q = "#/a" ∨ q = "#/b" := by
      refine Reaches.closed (S := fun q => q = "#/a" ∨ q = "#/b")
        (fun r hm => .inl (meets_ref rfl hm)) ?_ hq
      rintro q t r (rfl | rfl) hf hm
      · obtain rfl := Option.some.inj (ha.symm.trans hf)
        exact .inr (met hm rfl)
      · obtain rfl := Option.some.inj (hb.symm.trans hf)
        exact .inl (met hm rfl)
    rcases hqs with rfl | rfl
    · obtain rfl := Option.some.inj (ha.symm.trans hf)
      obtain rfl := met hm rfl
      exact absurd ⟨_, hb, .met (.entry rfl (List.mem_cons_self ..) (.here rfl))⟩ back
    · obtain rfl := Option.some.inj (hb.symm.trans hf)
      exact met hm rfl

/-- A knot that is entered at one reference twice. -/
theorem resolve_after_eq_fresh_knot :
    (∀ q r, (∃ u ∈ [refTo "#/a"], Enters knot u q) → Enters knot (refTo "#/a") r →
      ¬ Entangled knot q r) ∧
    .tooDeep ∉ (resolve knot (refTo "#/a") (resolveAll knot [refTo "#/a"]).2).2.warnings ∧
    .tooDeep ∉ (resolve knot (refTo "#/a") .empty).2.warnings ∧
    (resolve knot (refTo "#/a") (resolveAll knot [refTo "#/a"]).2).1 =
      (resolve knot (refTo "#/a") .empty).1 := by
  have hfree : ∀ q r, (∃ u ∈ [refTo "#/a"], Enters knot u q) → Enters knot (refTo "#/a") r →
      ¬ Entangled knot q r := by
    rintro q r ⟨u, hu, hq⟩ hr he
    obtain rfl := List.mem_singleton.mp hu
    exact he.1 ((enters_knot hq).trans (enters_knot hr).symm)
  have hlate : Warning.tooDeep ∉
      (resolve knot (refTo "#/a") (resolveAll knot [refTo "#/a"]).2).2.warnings := by decide +kernel
  have hfresh : Warning.tooDeep ∉ (resolve knot (refTo "#/a") .empty).2.warnings := by decide +kernel
  exact ⟨hfree, hlate, hfresh, resolve_after_eq_fresh hfree hlate hfresh⟩

end ToolServer.Reference
