import ToolServer.Proofs.Reference.Reach

/-!
# Knots

References that reach each other form a knot. A node enters a knot at a reference that is met in the node
itself, or in the target of a reference that does not belong to the knot.
-/

namespace ToolServer.Reference

open Document

def LeadsOn (root : Value) (q r : String) : Prop := ∃ t, follow root q = some t ∧ Reaches root t r

def Entangled (root : Value) (q r : String) : Prop := q ≠ r ∧ LeadsOn root q r ∧ LeadsOn root r q

/-- A node enters a reference that is met in it, or in the target of a reference that it reaches and to
which the entered one does not lead back. -/
inductive Enters (root v : Value) : String → Prop
  | met {r} : Meets v r → Enters root v r
  | behind {q t r} : Reaches root v q → follow root q = some t → Meets t r → ¬ LeadsOn root r q →
      Enters root v r

def SameKnot (root : Value) (q r : String) : Prop := q = r ∨ LeadsOn root q r ∧ LeadsOn root r q

section
variable {root : Value}

theorem LeadsOn.trans {q r s : String} (h : LeadsOn root q r) (h' : LeadsOn root r s) :
    LeadsOn root q s := by
  obtain ⟨t, hf, hr⟩ := h
  obtain ⟨u, hu, hs⟩ := h'
  exact ⟨t, hf, hr.trans hu hs⟩

theorem Reaches.onward {v : Value} {q r : String} (h : Reaches root v q) (h' : LeadsOn root q r) :
    Reaches root v r := by
  obtain ⟨t, hf, hr⟩ := h'
  exact h.trans hf hr

theorem leadsOn_of_meets {q r : String} {t : Value} (hf : follow root q = some t) (hm : Meets t r) :
    LeadsOn root q r :=
  ⟨t, hf, .met hm⟩

namespace SameKnot

theorem symm {q r : String} (h : SameKnot root q r) : SameKnot root r q := by
  rcases h with rfl | ⟨h, h'⟩
  · exact .inl rfl
  · exact .inr ⟨h', h⟩

theorem trans {q r s : String} (h : SameKnot root q r) (h' : SameKnot root r s) :
    SameKnot root q s := by
  rcases h with rfl | ⟨hqr, hrq⟩
  · exact h'
  · rcases h' with rfl | ⟨hrs, hsr⟩
    · exact .inr ⟨hqr, hrq⟩
    · exact .inr ⟨hqr.trans hrs, hsr.trans hrq⟩

theorem leadsOn {q r s : String} (h : SameKnot root q r) (h' : LeadsOn root r s) :
    LeadsOn root q s := by
  rcases h with rfl | ⟨h, -⟩
  · exact h'
  · exact h.trans h'

theorem entangled {q r : String} (h : SameKnot root q r) (hne : q ≠ r) : Entangled root q r :=
  ⟨hne, h.resolve_left hne⟩

/-- What a reference leads on to, and what leads back to its knot, belongs to the knot. -/
theorem of_back {h q r : String} (hq : SameKnot root h q) (hr : LeadsOn root h r) (back : LeadsOn root r q) :
    SameKnot root h r :=
  .inr ⟨hr, by
    rcases hq with rfl | ⟨-, hq⟩
    · exact back
    · exact back.trans hq⟩

end SameKnot

/-- Whatever a node reaches, it enters the knot somewhere. -/
theorem exists_enters {v : Value} {r : String} (h : Reaches root v r) :
    ∃ p, Enters root v p ∧ SameKnot root p r := by
  induction h with
  | met hm => exact ⟨_, .met hm, .inl rfl⟩
  | @through v q t r hm hf hr ih =>
    by_cases hq : LeadsOn root r q
    · exact ⟨q, .met hm, .inr ⟨⟨t, hf, hr⟩, hq⟩⟩
    obtain ⟨p, hp, hpr⟩ := ih
    refine ⟨p, ?_, hpr⟩
    cases hp with
    | met hm' => exact .behind (.met hm) hf hm' fun back => hq (hpr.symm.leadsOn back)
    | behind hq' hf' hm' hb => exact .behind (.through hm hf hq') hf' hm' hb

end

end ToolServer.Reference
