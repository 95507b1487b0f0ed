import Mathlib.Data.List.Forall2
import ToolServer.Form
import ToolServer.Proofs.Document.Within
import ToolServer.Proofs.Ordered

/-!
# Parts of records

A part is found among parts of other names, and read back as what was written.
-/

namespace ToolServer.Form

open Document

section
variable {α : Type}

/-! ## Finding parts -/

@[simp] theorem get?_nil (name : String) : Entries.get? [] name = none := rfl

@[simp] theorem get?_append (es fs : Entries) (name : String) :
    Entries.get? (es ++ fs) name = (Entries.get? es name).or (Entries.get? fs name) :=
  Ordered.get?_append (Scalar.text name) es fs

@[simp] theorem get?_part (key : String) (v : Value) (name : String) :
    Entries.get? (part key v) name = if key = name then some v else none := by
  unfold part Entries.get? Ordered.get? Ordered.get?
  simp [Scalar.beq_text_iff]

@[simp] theorem get?_partIf (key : String) (f : α → Value) (o : Option α) (name : String) :
    Entries.get? (partIf key f o) name = if key = name then o.map f else none := by
  cases o with
  | none => simp [partIf]
  | some a => simp [partIf]

@[simp] theorem part?_one (name : String) (es : Entries) : part? [name] es = Entries.get? es name := by
  unfold part?
  cases h : Entries.get? es name <;> simp [h]

@[simp] theorem part?_two (name other : String) (es : Entries) :
    part? [name, other] es = (Entries.get? es name).or (Entries.get? es other) := by
  unfold part?
  cases h : Entries.get? es name <;> cases h' : Entries.get? es other <;> simp [h, h']

/-! ## Reading parts -/

variable {names : List String} {es : Entries} {f : Value → Option α} {v : Value} {a : α}

theorem field_eq (h : part? names es = some v) (hv : f v = some a) : field names f es = some a := by
  rw [field, h]
  exact hv

theorem fieldOr_eq {d : α} (h : part? names es = some v) (hv : f v = some a) : fieldOr names d f es = some a := by
  rw [fieldOr, h]
  exact hv

theorem optional_none (h : part? names es = none) : optional names f es = some none := by
  rw [optional, h]

theorem optional_some (h : part? names es = some v) (hnull : v ≠ .null) (hv : f v = some a) :
    optional names f es = some (some a) := by
  rw [optional, h]
  split
  · rename_i heq
    cases heq
  · rename_i heq
    exact absurd (Option.some.inj heq) hnull
  · rename_i heq
    cases heq
    rw [hv]
    rfl

theorem optional_eq {β : Type} {o : Option β} {g : β → Value} {k : β → α} (h : part? names es = o.map g)
    (hg : ∀ b, o = some b → g b ≠ .null ∧ f (g b) = some (k b)) : optional names f es = some (o.map k) := by
  cases o with
  | none => exact optional_none h
  | some b => exact optional_some h (hg b rfl).1 (hg b rfl).2

theorem optional_text {o : Option String} (h : part? names es = o.map .text) : optional names text es = some o := by
  rw [optional_eq (k := id) h fun s _ => ⟨by simp, rfl⟩, Option.map_id_fun, id]

/-- Each item is read back as something related to what was written. -/
theorem mapM_related {β γ : Type} {f : γ → Option α} {g : β → γ} {R : α → β → Prop} : ∀ {bs : List β},
    (∀ b ∈ bs, ∃ a, f (g b) = some a ∧ R a b) → ∃ as, (bs.map g).mapM f = some as ∧ List.Forall₂ R as bs
  | [], _ => ⟨[], rfl, .nil⟩
  | b :: bs, h => by
    obtain ⟨⟨a, ha, hR⟩, h⟩ := List.forall_mem_cons.mp h
    obtain ⟨as, has, hRs⟩ := mapM_related h
    refine ⟨a :: as, ?_, .cons hR hRs⟩
    rw [List.map_cons, List.mapM_cons, ha, has]
    rfl

theorem list_eq {g : α → Value} {as : List α} (h : ∀ a ∈ as, f (g a) = some a) :
    list f (.list (as.map g)) = some as := by
  obtain ⟨bs, hbs, heq⟩ := mapM_related (R := Eq) fun a ha => ⟨a, h a ha, rfl⟩
  rw [List.forall₂_eq_eq_eq] at heq
  exact heq ▸ hbs

theorem textList_eq (texts : List String) : list text (textList texts) = some texts := list_eq fun _ _ => rfl

theorem plainMap_eq {es : Entries} (h : ∀ e ∈ es, ∃ name, e.1 = .text name) : plainMap (.map es) = some es := by
  have hkeys : (es.all fun e => (text (.scalar e.1)).isSome) = true := by
    refine List.all_eq_true.mpr fun e he => ?_
    obtain ⟨name, hname⟩ := h e he
    rw [hname]
    rfl
  rw [plainMap, if_pos hkeys]

end

end ToolServer.Form
