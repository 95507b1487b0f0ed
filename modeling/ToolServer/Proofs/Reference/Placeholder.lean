import ToolServer.Proofs.Reference.History
import ToolServer.Proofs.Reference.Settled

/-!
# What placeholders stand for

A placeholder is remembered only while the target of its reference is being resolved. So where one is read, the target
has led back to the reference, and what is kept of it later has come from there.
-/

namespace ToolServer.Reference

open Document

/-! ## Values and where they come from -/

/-- What a node may be resolved to: below a greatest depth references are left out, and a placeholder stands for a
reference only if its target leads back to it. -/
inductive Yields (root : Value) : Value → Value → Prop
  | leaf {v} : IsLeaf v → Yields root v v
  | list {vs ws : List Value} : vs.length = ws.length → (∀ {v w}, (v, w) ∈ vs.zip ws → Yields root v w) →
      Yields root (.list vs) (.list ws)
  | map {es es' fs : Entries} : es'.Sublist es → es'.length = fs.length →
      (∀ {e f}, (e, f) ∈ es'.zip fs → f.1 = e.1) →
      (∀ {e f}, (e, f) ∈ es'.zip fs → Yields root e.2 f.2) → Yields root (.map es) (.map fs)
  | ref {es r t w} : refOf? es = some r → follow root r = some t → Yields root t w → Yields root (.map es) w
  | circular {es r} : refOf? es = some r → LeadsOn root r r → Yields root (.map es) (placeholder r)

theorem carried_yields (root : Value) : Carried (Yields root) where
  leaf h := .leaf h
  list h := by
    obtain ⟨hlength, hall⟩ := List.forall₂_iff_zip.mp h
    exact .list hlength fun hmem => (hall hmem).1
  map hsub _ h := by
    obtain ⟨hlength, hall⟩ := List.forall₂_iff_zip.mp h
    exact .map hsub hlength (fun hmem => (hall hmem).1) fun hmem => (hall hmem).2

/-- What is remembered of a reference comes from its target; only an open one may have its placeholder instead. -/
def Backed (root : Value) (opened : String → Prop) (m : Memory) : Prop :=
  ∀ q w, m.get? q = some w → (∃ t, follow root q = some t ∧ Yields root t w) ∨ opened q ∧ w = placeholder q

/-- The targets of open references lead on to all that a node reaches. -/
def Under (root : Value) (opened : String → Prop) (v : Value) : Prop :=
  ∀ q, opened q → ∀ r, Reaches root v r → LeadsOn root q r

section
variable {root : Value} {opened : String → Prop}

theorem Backed.warn {m : Memory} (h : Backed root opened m) (x : Warning) : Backed root opened (m.warn x) :=
  fun q w hq => h q w (by rwa [Memory.get?_warn] at hq)

theorem Backed.opening {m : Memory} (h : Backed root opened m) (r : String) :
    Backed root (fun q => q = r ∨ opened q) (m.put r (placeholder r)) := by
  intro q w hq
  by_cases hr : q = r
  · subst hr
    rw [m.get?_put_self] at hq
    exact .inr ⟨.inl rfl, (Option.some.inj hq).symm⟩
  · rw [m.get?_put_of_ne hr] at hq
    exact (h q w hq).imp_right fun ⟨ho, hw⟩ => ⟨.inr ho, hw⟩

theorem Backed.closing {m : Memory} {r : String} (h : Backed root (fun q => q = r ∨ opened q) m) {t w : Value}
    (hf : follow root r = some t) (hw : Yields root t w) : Backed root opened (m.put r w) := by
  intro q u hq
  by_cases hr : q = r
  · subst hr
    rw [m.get?_put_self] at hq
    exact .inl ⟨t, hf, Option.some.inj hq ▸ hw⟩
  · rw [m.get?_put_of_ne hr] at hq
    exact (h q u hq).imp_right fun ⟨ho, hu⟩ => ⟨ho.resolve_left hr, hu⟩

theorem Under.part {v v' : Value} (h : Under root opened v) (hr : ∀ r, Reaches root v' r → Reaches root v r) :
    Under root opened v' := fun q ho r h' => h q ho r (hr r h')

theorem Under.target {es : Entries} {r : String} {t : Value} (h : Under root opened (.map es)) (he : refOf? es = some r)
    (hf : follow root r = some t) : Under root (fun q => q = r ∨ opened q) t := by
  intro q ho s hs
  rcases ho with rfl | ho
  · exact ⟨t, hf, hs⟩
  · exact h q ho s (hs.target he hf)

/-- **Whatever is resolved or remembered has placeholders of cycles only.** The references whose targets are being
resolved stay open until their values are there; each of them leads to wherever the resolver is. -/
theorem resolveIn_yields : ∀ (room : Nat) (opened : String → Prop) (v : Value) (m : Memory), Under root opened v →
    Backed root opened m → Yields root v (resolveIn root room v m).1 ∧ Backed root opened (resolveIn root room v m).2
  | 0, _, v, m, _, hm => by
    rw [resolveIn_zero]
    exact ⟨strip_related (carried_yields root) v, hm.warn _⟩
  | room + 1, opened, v, m, hv, hm => by
    cases shape v with
    | leaf h =>
      rw [resolveIn_leaf h]
      exact ⟨.leaf h, hm⟩
    | list vs =>
      rw [resolveIn_list]
      obtain ⟨hws, hm'⟩ := mapWith_related (R := Yields root) vs
        (fun x hx s hs => resolveIn_yields room opened x s (hv.part fun _ => .item hx) hs) m hm
      obtain ⟨hlength, hall⟩ := List.forall₂_iff_zip.mp hws
      exact ⟨.list hlength hall, hm'⟩
    | @map es h =>
      rw [resolveIn_map h]
      obtain ⟨hfs, hm'⟩ := mapWith_related (f := resolveEntry root room)
        (R := fun e f => f.1 = e.1 ∧ Yields root e.2 f.2) es
        (fun e he s hs => (resolveIn_yields room opened e.2 s (hv.part fun _ => .entry h he) hs).imp_left
          fun hw => ⟨rfl, hw⟩) m hm
      exact ⟨(carried_yields root).map (List.Sublist.refl es) h hfs, hm'⟩
    | @ref es r h =>
      cases hg : m.get? r with
      | some w =>
        rw [resolveIn_known h hg]
        refine ⟨?_, hm⟩
        rcases hm r w hg with ⟨t, hf, hw⟩ | ⟨ho, rfl⟩
        · exact .ref h hf hw
        · exact .circular h (hv r ho r (.met (.here h)))
      | none =>
        cases hf : follow root r with
        | none =>
          rw [resolveIn_dangling h hg hf]
          exact ⟨(carried_yields root).map (List.nil_sublist es) rfl .nil, hm.warn _⟩
        | some t =>
          rw [resolveIn_target h hg hf]
          obtain ⟨hw, hm'⟩ := resolveIn_yields room _ t _ (hv.target h hf) (hm.opening r)
          exact ⟨.ref h hf hw, hm'.closing hf hw⟩

end

/-! ## Placeholders in values -/

def circularText (r : String) : String := "Circular reference to " ++ r

theorem circularText_inj {q r : String} : circularText q = circularText r ↔ q = r := String.append_right_inj _

/-- No description in a node has, or refers to, what a placeholder says. -/
def Unmarked (root v : Value) : Prop :=
  EachEntry (fun e => e.1 = .text "description" → ∀ r, ¬ Leads root e.2 (.text (circularText r))) v

/-- What placeholders say is said of references on cycles. -/
def MarksCycles (root w : Value) : Prop :=
  EachEntry (fun e => ∀ r, e = (.text "description", .text (circularText r)) → LeadsOn root r r) w

section
variable {root : Value}

theorem Unmarked.marksCycles {v : Value} (h : Unmarked root v) : MarksCycles root v := by
  refine EachEntry.imp h fun e he r heq => ?_
  subst heq
  exact absurd Leads.refl (he rfl r)

theorem marksCycles_placeholder {r : String} (h : LeadsOn root r r) : MarksCycles root (placeholder r) := by
  refine EachEntry.map_iff.mpr fun e he => ?_
  simp only [List.mem_cons, List.not_mem_nil, or_false] at he
  rcases he with rfl | rfl
  · exact ⟨fun q hq => by simp at hq, .of_scalar _⟩
  · refine ⟨fun q hq => ?_, .of_scalar _⟩
    have htext : circularText r = circularText q := Scalar.text.inj (Value.scalar.inj (Prod.mk.inj hq).2)
    exact circularText_inj.mp htext ▸ h

theorem leadsOn_of_marksCycles {w : Value} (h : MarksCycles root w) {r : String} (hr : Within w (placeholder r)) :
    LeadsOn root r r :=
  h _ hr _ (List.mem_cons_of_mem _ (List.mem_singleton_self _)) r rfl

/-- A text is what it was resolved from, or what that refers to. -/
theorem Yields.leads {v : Value} {s : String} (h : Yields root v (.text s)) : Leads root v (.text s) := by
  generalize hw : Value.text s = w at h
  induction h with
  | leaf _ => exact .refl
  | list => cases hw
  | map => cases hw
  | ref he hf _ ih => exact .ref he hf (ih hw)
  | circular => cases hw

theorem Yields.marksCycles (hroot : Unmarked root root) {v w : Value} (h : Yields root v w) :
    Unmarked root v → MarksCycles root w := by
  induction h with
  | leaf _ => exact Unmarked.marksCycles
  | list hlength _ ih =>
    intro hv
    refine EachEntry.list_iff.mpr fun w hw => ?_
    obtain ⟨v, hmem, hvw⟩ := exists_of_forall₂ (List.forall₂_iff_zip.mpr ⟨hlength, ih⟩) w hw
    exact hvw (hv.part (.of_item hmem))
  | @map es es' fs hsub hlength hkeys hall ih =>
    intro hv
    have hes : ∀ e ∈ es, (e.1 = .text "description" → ∀ r, ¬ Leads root e.2 (.text (circularText r))) ∧
      Unmarked root e.2 := EachEntry.map_iff.mp hv
    have hfs : List.Forall₂ (fun e f => f.1 = e.1 ∧ Yields root e.2 f.2 ∧
        (Unmarked root e.2 → MarksCycles root f.2)) es' fs :=
      List.forall₂_iff_zip.mpr ⟨hlength, fun hmem => ⟨hkeys hmem, hall hmem, ih hmem⟩⟩
    refine EachEntry.map_iff.mpr fun f hf => ?_
    obtain ⟨e, hmem, hkey, hef, hmarks⟩ := exists_of_forall₂ hfs f hf
    obtain ⟨hfree, hunmarked⟩ := hes e (hsub.mem hmem)
    refine ⟨fun r heq => ?_, hmarks hunmarked⟩
    subst heq
    exact absurd hef.leads (hfree hkey.symm r)
  | ref _ hf _ ih => exact fun _ => ih (hroot.part (within_of_follow hf))
  | circular _ hr => exact fun _ => marksCycles_placeholder hr

end

/-- **Placeholders stand for cycles only**, and so do values that look like them where no description does. -/
theorem placeholders_on_cycles (root : Value) (nodes : List Value) :
    List.Forall₂ (fun v w => Yields root v w ∧ (Unmarked root root → Unmarked root v →
      (∀ r, Within w (placeholder r) → LeadsOn root r r) ∧
      (Acyclic root → ∀ r, ¬ Within w (placeholder r)))) nodes (resolveAll root nodes).1 := by
  have hall : List.Forall₂ (Yields root) nodes (resolveAll root nodes).1 :=
    (mapWith_related (f := resolve root) (I := Backed root fun _ => False) nodes
      (fun v _ m hm => resolveIn_yields _ _ v m (fun _ ho => ho.elim) hm) .empty fun q w hq => by cases hq).1
  refine hall.imp fun v w hw => ⟨hw, fun hroot hv => ?_⟩
  have hcycles : ∀ r, Within w (placeholder r) → LeadsOn root r r := fun r =>
    leadsOn_of_marksCycles (hw.marksCycles hroot hv)
  exact ⟨hcycles, fun hacyclic r hr => hacyclic.not_leadsOn (hcycles r hr)⟩

theorem unmarked_knot : Unmarked knot knot := by
  simp [knot, refTo, Unmarked, EachEntry.map_iff, EachEntry.of_scalar]

/-- The knot has a placeholder for the reference that is asked for. -/
theorem placeholders_on_cycles_knot :
    Unmarked knot knot ∧ Unmarked knot (refTo "#/a") ∧
    (resolveAll knot [refTo "#/a"]).1 = [.map [(.text "b", .map [(.text "a", placeholder "#/a")])]] ∧
    Within (.map [(.text "b", .map [(.text "a", placeholder "#/a")])]) (placeholder "#/a") ∧
    LeadsOn knot "#/a" "#/a" := by
  have hnode : Unmarked knot (refTo "#/a") := by
    simp [refTo, Unmarked, EachEntry.map_iff, EachEntry.of_scalar]
  have hvalue : (resolveAll knot [refTo "#/a"]).1 = [.map [(.text "b", .map [(.text "a", placeholder "#/a")])]] := by
    decide +kernel
  have hwithin : Within (.map [(.text "b", .map [(.text "a", placeholder "#/a")])]) (placeholder "#/a") :=
    .entry (List.mem_singleton_self _) (.entry (List.mem_singleton_self _) .refl)
  have hall := placeholders_on_cycles knot [refTo "#/a"]
  rw [hvalue] at hall
  obtain ⟨-, hcycles⟩ := (List.forall₂_cons.mp hall).1
  exact ⟨unmarked_knot, hnode, hvalue, hwithin, (hcycles unmarked_knot hnode).1 _ hwithin⟩

end ToolServer.Reference
