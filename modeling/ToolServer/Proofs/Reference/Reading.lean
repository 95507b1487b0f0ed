import ToolServer.Proofs.Reference.Knot

/-!
# Reading knot by knot

`Reads` says what is put together for a node if every knot is read afresh: inside a knot what was read is
remembered, and what was read before or elsewhere is not. Where each knot has one gate, at which it is
always entered, the resolver reads so whatever it remembers (`resolveIn_reads`). The invariant is that of a
knot that is not being read either the gate is remembered, with what is read behind it, or nothing is.
-/

namespace ToolServer.Reference

open Document

/-! ## Reading -/

/-- What belongs to the knot that is being read. -/
def Near (root : Value) (home : Option String) (r : String) : Prop := ∃ h, home = some h ∧ SameKnot root h r

def begun (gate : String) : Memory := Memory.empty.put gate (placeholder gate)

/-- Reading a node in the knot of `home`, or in none, from what is remembered of the knot to what is
remembered of it then. Only references that may be lost lead nowhere. -/
inductive Reads (root : Value) (lost : String → Prop) : Option String → Memory → Value → Value → Memory → Prop
  | leaf {home l v} : IsLeaf v → Reads root lost home l v v l
  | nil {home l} : Reads root lost home l (.list []) (.list []) l
  | cons {home l v w l' vs ws l''} : Reads root lost home l v w l' →
      Reads root lost home l' (.list vs) (.list ws) l'' →
      Reads root lost home l (.list (v :: vs)) (.list (w :: ws)) l''
  | map {home l es ws l'} : refOf? es = none → Reads root lost home l (.list (es.map (·.2))) (.list ws) l' →
      Reads root lost home l (.map es) (.map ((es.map (·.1)).zip ws)) l'
  | known {home l es r w} : refOf? es = some r → Near root home r → l.get? r = some w →
      Reads root lost home l (.map es) w l
  | near {home l es r t w l'} : refOf? es = some r → Near root home r → l.get? r = none →
      follow root r = some t → Reads root lost home (l.put r (placeholder r)) t w l' →
      Reads root lost home l (.map es) w (l'.put r w)
  | far {home l es r t w l'} : refOf? es = some r → ¬ Near root home r → follow root r = some t →
      Reads root lost (some r) (begun r) t w l' → Reads root lost home l (.map es) w l
  | dangling {home l es r} : refOf? es = some r → ¬ Near root home r → follow root r = none → lost r →
      Reads root lost home l (.map es) (.map []) l

section
variable {root : Value} {lost : String → Prop} {home : Option String} {l : Memory}

/-- There is one way to read a node. -/
theorem Reads.unique {v w x : Value} {l' k : Memory} (h : Reads root lost home l v w l')
    (h' : Reads root lost home l v x k) : w = x ∧ l' = k := by
  induction h generalizing x k with
  | leaf hv =>
    cases h' with
    | leaf _ => exact ⟨rfl, rfl⟩
    | _ => exact hv.elim
  | nil =>
    cases h' with
    | leaf hv => exact hv.elim
    | nil => exact ⟨rfl, rfl⟩
  | cons _ _ ih ihs =>
    cases h' with
    | leaf hv => exact hv.elim
    | cons hx hxs =>
      obtain ⟨rfl, rfl⟩ := ih hx
      obtain ⟨hw, hl⟩ := ihs hxs
      exact ⟨by rw [Value.list.inj hw], hl⟩
  | map he _ ih =>
    cases h' with
    | leaf hv => exact hv.elim
    | map _ hx =>
      obtain ⟨hw, hl⟩ := ih hx
      exact ⟨by rw [Value.list.inj hw], hl⟩
    | _ => simp_all
  | known he hn hl =>
    cases h' with
    | leaf hv => exact hv.elim
    | _ => simp_all
  | near he hn hl hf _ ih =>
    cases h' with
    | leaf hv => exact hv.elim
    | near he' _ _ hf' ht =>
      obtain rfl := Option.some.inj (he.symm.trans he')
      obtain rfl := Option.some.inj (hf.symm.trans hf')
      obtain ⟨rfl, rfl⟩ := ih ht
      exact ⟨rfl, rfl⟩
    | _ => simp_all
  | far he hn hf _ ih =>
    cases h' with
    | leaf hv => exact hv.elim
    | far he' _ hf' ht =>
      obtain rfl := Option.some.inj (he.symm.trans he')
      obtain rfl := Option.some.inj (hf.symm.trans hf')
      exact ⟨(ih ht).1, rfl⟩
    | _ => simp_all
  | dangling he hn hf =>
    cases h' with
    | leaf hv => exact hv.elim
    | _ => simp_all

theorem reads_items {f : Value → Memory → Value × Memory} {J : Memory → Memory → Prop} {Q : Memory → Prop}
    (back : ∀ v m, Q (f v m).2 → Q m) : ∀ (vs : List Value),
      (∀ v ∈ vs, ∀ l m, J l m → Q (f v m).2 →
        ∃ l', Reads root lost home l v (f v m).1 l' ∧ J l' (f v m).2) →
        ∀ l m, J l m → Q (mapWith f vs m).2 →
          ∃ l', Reads root lost home l (.list vs) (.list (mapWith f vs m).1) l' ∧ J l' (mapWith f vs m).2
  | [], _, l, _, hJ, _ => ⟨l, .nil, hJ⟩
  | v :: vs, step, l, m, hJ, hQ => by
    rw [mapWith_cons] at hQ ⊢
    obtain ⟨l', hv, hJ'⟩ := step v (List.mem_cons_self ..) l m hJ (mapWith_back back vs _ hQ)
    obtain ⟨l'', hvs, hJ''⟩ := reads_items back vs (fun x hx => step x (List.mem_cons_of_mem _ hx)) l' _ hJ' hQ
    exact ⟨l'', .cons hv hvs, hJ''⟩

end

/-! ## Gates -/

/-- References, with all that they lead on to, whose knots have one gate each: where such a knot is entered
from the target of a reference outside of it, a gate stands. -/
structure Gated (root : Value) (T gate : String → Prop) : Prop where
  closed {q r} : T q → LeadsOn root q r → T r
  inside {q} : gate q → T q
  behind {q t r} : T q → follow root q = some t → Meets t r → ¬ LeadsOn root r q → gate r
  alone {q r} : gate q → gate r → SameKnot root q r → q = r

def Behind (root : Value) (lost : String → Prop) (gate : String) (w : Value) : Prop :=
  ∃ t l, follow root gate = some t ∧ Reads root lost (some gate) (begun gate) t w l

/-- What a memory has of knots, those whose gates are open apart. -/
structure Sound (root : Value) (lost gate : String → Prop) (opened : List String) (m : Memory) : Prop where
  right {q w} : gate q → q ∉ opened → m.get? q = some w → Behind root lost q w
  unseen {q r} : gate q → q ∉ opened → m.get? q = none → SameKnot root q r → m.get? r = none

/-- Where a node stands whose references are gated, the innermost of the open gates first. -/
structure Placed (root : Value) (T gate : String → Prop) (opened : List String) (v : Value) : Prop where
  tame {r} : Reaches root v r → T r
  entered {r} : Meets v r → ¬ Near root opened.head? r → gate r
  below {h r} : opened.head? = some h → Reaches root v r → LeadsOn root h r
  gates {h} : h ∈ opened → gate h
  nested : opened.Pairwise fun h s => LeadsOn root s h

section
variable {root : Value} {T lost gate : String → Prop} {opened : List String} {m : Memory}

theorem sound_empty : Sound root lost gate opened .empty where
  right _ _ h := by cases h
  unseen _ _ _ _ := rfl

theorem Sound.warn (h : Sound root lost gate opened m) (w : Warning) :
    Sound root lost gate opened (m.warn w) where
  right hq ho hm := h.right hq ho (by rwa [Memory.get?_warn] at hm)
  unseen hq ho hm hs := by
    rw [Memory.get?_warn] at hm ⊢
    exact h.unseen hq ho hm hs

theorem Sound.opening (h : Sound root lost gate opened m) (r : String) :
    Sound root lost gate (r :: opened) m where
  right hq ho := h.right hq fun hmem => ho (List.mem_cons_of_mem _ hmem)
  unseen hq ho := h.unseen hq fun hmem => ho (List.mem_cons_of_mem _ hmem)

/-- What is stored in a knot that is being read, or that has no gate, is of no account. -/
theorem Sound.put (h : Sound root lost gate opened m) {r : String}
    (hr : ∀ q, gate q → q ∉ opened → ¬ SameKnot root q r) (w : Value) :
    Sound root lost gate opened (m.put r w) where
  right {q x} hq ho hm := by
    have hne : q ≠ r := fun e => hr q hq ho (.inl e)
    rw [m.get?_put_of_ne hne] at hm
    exact h.right hq ho hm
  unseen {q s} hq ho hm hs := by
    have hne : q ≠ r := fun e => hr q hq ho (.inl e)
    have hne' : s ≠ r := fun e => hr q hq ho (e ▸ hs)
    rw [m.get?_put_of_ne hne] at hm
    rw [m.get?_put_of_ne hne']
    exact h.unseen hq ho hm hs

theorem Gated.not_sameKnot (hG : Gated root T gate) {h r : String} (hh : gate h) (ho : h ∈ opened)
    (hr : SameKnot root h r) : ∀ q, gate q → q ∉ opened → ¬ SameKnot root q r := by
  intro q hq hqo hqr
  have he : q = h := hG.alone hq hh (hqr.trans hr.symm)
  exact hqo (he ▸ ho)

theorem Sound.close (hG : Gated root T gate) {r : String} (h : Sound root lost gate (r :: opened) m)
    (hr : gate r) {w : Value} (hw : Behind root lost r w) : Sound root lost gate opened (m.put r w) where
  right {q x} hq ho hm := by
    by_cases he : q = r
    · subst he
      rw [m.get?_put_self] at hm
      exact Option.some.inj hm ▸ hw
    · rw [m.get?_put_of_ne he] at hm
      exact h.right hq (List.not_mem_cons_of_ne_of_not_mem he ho) hm
  unseen {q s} hq ho hm hs := by
    have he : q ≠ r := fun e => by rw [e, m.get?_put_self] at hm; cases hm
    have hs' : s ≠ r := fun e => he (hG.alone hq hr (e ▸ hs))
    rw [m.get?_put_of_ne he] at hm
    rw [m.get?_put_of_ne hs']
    exact h.unseen hq (List.not_mem_cons_of_ne_of_not_mem he ho) hm hs

/-! ## Places -/

theorem Placed.part {v v' : Value} (h : Placed root T gate opened v) (hv : ∀ r, Meets v' r → Meets v r) :
    Placed root T gate opened v' where
  tame hr := h.tame (hr.of_meets hv)
  entered hm := h.entered (hv _ hm)
  below hh hr := h.below hh (hr.of_meets hv)
  gates := h.gates
  nested := h.nested

/-- A gate that is entered is not open yet. -/
theorem Placed.not_open {v : Value} (h : Placed root T gate opened v) {r : String} (hm : Meets v r)
    (hn : ¬ Near root opened.head? r) : r ∉ opened := by
  intro ho
  cases opened with
  | nil => cases ho
  | cons g opened =>
    refine hn ⟨g, rfl, ?_⟩
    rcases List.mem_cons.mp ho with rfl | ho
    · exact .inl rfl
    · exact .inr ⟨h.below rfl (.met hm), (List.pairwise_cons.mp h.nested).1 r ho⟩

theorem Placed.target_of_near {v : Value} (h : Placed root T gate opened v) {r : String} (hm : Meets v r)
    (hn : Near root opened.head? r) : ∃ t, follow root r = some t := by
  obtain ⟨g, hg, hgr⟩ := hn
  have hlead : LeadsOn root r r := by
    rcases hgr with rfl | ⟨-, hrg⟩
    · exact h.below hg (.met hm)
    · exact hrg.trans (h.below hg (.met hm))
  exact ⟨hlead.choose, hlead.choose_spec.1⟩

section
variable {es : Entries} {r : String} {t : Value}
  (h : Placed root T gate opened (.map es)) (he : refOf? es = some r) (hf : follow root r = some t)
include h he hf

/-- The target of another knot reaches nothing of the knot that is being read. -/
theorem Placed.not_reaches (hn : ¬ Near root opened.head? r) {s : String} (hs : Near root opened.head? s) :
    ¬ Reaches root t s := by
  intro hr
  obtain ⟨g, hg, hgs⟩ := hs
  exact hn ⟨g, hg, hgs.of_back (h.below hg (.met (.here he))) ⟨t, hf, hr⟩⟩

variable (hG : Gated root T gate)
include hG

theorem Placed.far (hn : ¬ Near root opened.head? r) : Placed root T gate (r :: opened) t where
  tame hs := h.tame (hs.target he hf)
  entered {s} hm hs := hG.behind (h.tame (.met (.here he))) hf hm fun back =>
    hs ⟨r, rfl, .inr ⟨leadsOn_of_meets hf hm, back⟩⟩
  below hh hs := by
    obtain rfl := Option.some.inj hh
    exact ⟨t, hf, hs⟩
  gates hg := by
    rcases List.mem_cons.mp hg with rfl | hg
    · exact h.entered (.here he) hn
    · exact h.gates hg
  nested := by
    refine List.pairwise_cons.mpr ⟨fun s hs => ?_, h.nested⟩
    cases opened with
    | nil => cases hs
    | cons g opened =>
      have hg : LeadsOn root g r := h.below rfl (.met (.here he))
      rcases List.mem_cons.mp hs with rfl | hs
      · exact hg
      · exact ((List.pairwise_cons.mp h.nested).1 s hs).trans hg

theorem Placed.near (hn : Near root opened.head? r) : Placed root T gate opened t where
  tame hs := h.tame (hs.target he hf)
  entered {s} hm hs := by
    obtain ⟨g, hg, hgr⟩ := hn
    refine hG.behind (h.tame (.met (.here he))) hf hm fun back => hs ⟨g, hg, ?_⟩
    exact hgr.of_back ((h.below hg (.met (.here he))).trans (leadsOn_of_meets hf hm)) back
  below hh hs := (h.below hh (.met (.here he))).trans ⟨t, hf, hs⟩
  gates := h.gates
  nested := h.nested

end

/-! ## Resolving -/

/-- A memory that is sound, and has of the knot that is being read what a reading remembers. -/
structure Abreast (root : Value) (lost gate : String → Prop) (opened : List String) (l m : Memory) : Prop where
  same {r} : Near root opened.head? r → m.get? r = l.get? r
  sound : Sound root lost gate opened m

theorem Abreast.put (hG : Gated root T gate) (hgates : ∀ {h}, h ∈ opened → gate h) {l : Memory}
    (h : Abreast root lost gate opened l m) {r : String} (hn : Near root opened.head? r) (w : Value) :
    Abreast root lost gate opened (l.put r w) (m.put r w) where
  same {s} hs := by
    by_cases he : s = r
    · subst he
      rw [m.get?_put_self, l.get?_put_self]
    · rw [m.get?_put_of_ne he, l.get?_put_of_ne he]
      exact h.same hs
  sound := by
    obtain ⟨g, hg, hgr⟩ := hn
    have ho : g ∈ opened := List.mem_of_mem_head? (Option.mem_def.mpr hg)
    exact h.sound.put (hG.not_sameKnot (hgates ho) ho hgr) w

/-- The resolver and a reading begin the target of a gate with the same of its knot. -/
theorem Sound.begin (hG : Gated root T gate) (h : Sound root lost gate opened m) {r : String} (hr : gate r)
    (ho : r ∉ opened) (hm : m.get? r = none) :
    Abreast root lost gate (r :: opened) (begun r) (m.put r (placeholder r)) where
  same {s} hs := by
    obtain ⟨g, hg, hgs⟩ := hs
    obtain rfl := Option.some.inj hg
    unfold begun
    by_cases he : s = r
    · subst he
      rw [m.get?_put_self, Memory.get?_put_self]
    · rw [m.get?_put_of_ne he, Memory.get?_put_of_ne _ he, Memory.get?_empty]
      exact h.unseen hr ho hm hgs
  sound := (h.opening r).put (hG.not_sameKnot hr (List.mem_cons_self ..) (.inl rfl)) _

theorem placed_outside {v : Value} (hT : ∀ r, Reaches root v r → T r) (hv : ∀ r, Meets v r → gate r) :
    Placed root T gate [] v where
  tame := hT _
  entered hm _ := hv _ hm
  below hh := by cases hh
  gates ho := by cases ho
  nested := .nil

theorem Sound.outside (h : Sound root lost gate [] m) : Abreast root lost gate [] .empty m where
  same hn := by
    obtain ⟨g, hg, -⟩ := hn
    cases hg
  sound := h

/-- **Resolving reads knot by knot.** The induction is on the room; the open gates grow with each knot that
is entered, and stay while the references of one knot follow each other. -/
theorem resolveIn_reads (hG : Gated root T gate) :
    ∀ (room : Nat) (opened : List String) (v : Value) (l m : Memory), Placed root T gate opened v →
      Abreast root lost gate opened l m → Quiet lost (resolveIn root room v m).2 →
      ∃ l', Reads root lost opened.head? l v (resolveIn root room v m).1 l' ∧
        Abreast root lost gate opened l' (resolveIn root room v m).2
  | 0, _, _, _, _, _, _, hq => (not_quiet_zero hq).elim
  | room + 1, opened, v, l, m, hv, hm, hq => by
    cases shape v with
    | leaf h =>
      rw [resolveIn_leaf h]
      exact ⟨l, .leaf h, hm⟩
    | list vs =>
      rw [resolveIn_list] at hq ⊢
      exact reads_items (Q := Quiet lost) (fun _ _ h => h.before) vs (fun x hx l m hm hxq =>
        resolveIn_reads hG room opened x l m (hv.part fun _ => .item hx) hm hxq) l m hm hq
    | @map es h =>
      rw [resolveIn_map h, mapWith_resolveEntry] at hq ⊢
      obtain ⟨l', hw, hm'⟩ := reads_items (Q := Quiet lost) (fun _ _ h => h.before) (es.map (·.2))
        (fun x hx l m hm hxq => by
          obtain ⟨e, he, rfl⟩ := List.mem_map.mp hx
          exact resolveIn_reads hG room opened e.2 l m (hv.part fun _ => .entry h he) hm hxq) l m hm hq
      exact ⟨l', .map h hw, hm'⟩
    | @ref es r h =>
      have hr : Meets (.map es) r := .here h
      by_cases hn : Near root opened.head? r
      · cases hg : m.get? r with
        | some w =>
          rw [resolveIn_known h hg]
          exact ⟨l, .known h hn ((hm.same hn).symm.trans hg), hm⟩
        | none =>
          obtain ⟨t, hf⟩ := hv.target_of_near hr hn
          rw [resolveIn_target h hg hf] at hq ⊢
          obtain ⟨l', hw, hm'⟩ := resolveIn_reads hG room opened t _ _ (hv.near h hf hG hn)
            (hm.put hG hv.gates hn _) ⟨hq.shallow, hq.known⟩
          exact ⟨_, .near h hn ((hm.same hn).symm.trans hg) hf hw, hm'.put hG hv.gates hn _⟩
      · have hgate := hv.entered hr hn
        have ho := hv.not_open hr hn
        cases hg : m.get? r with
        | some w =>
          rw [resolveIn_known h hg]
          obtain ⟨t, l', hf, hw⟩ := hm.sound.right hgate ho hg
          exact ⟨l, .far h hn hf hw, hm⟩
        | none =>
          cases hf : follow root r with
          | none =>
            rw [resolveIn_dangling h hg hf] at hq ⊢
            refine ⟨l, .dangling h hn hf (hq.known r (m.mem_warn _)), ?_, hm.sound.warn _⟩
            intro s hs
            rw [Memory.get?_warn]
            exact hm.same hs
          | some t =>
            rw [resolveIn_target h hg hf] at hq ⊢
            obtain ⟨l', hw, hm'⟩ := resolveIn_reads hG room (r :: opened) t _ _ (hv.far h hf hG hn)
              (hm.sound.begin hG hgate ho hg) ⟨hq.shallow, hq.known⟩
            refine ⟨l, .far h hn hf hw, ?_, hm'.sound.close hG hgate ⟨t, l', hf, hw⟩⟩
            intro s hs
            have hne : s ≠ r := fun e => hn (e ▸ hs)
            rw [Memory.get?_put_of_ne _ hne, get?_resolveIn_of_not_reaches _ _ _ _ _ (hv.not_reaches h hf hn hs),
              Memory.get?_put_of_ne _ hne]
            exact hm.same hs

end

end ToolServer.Reference
