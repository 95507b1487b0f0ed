import ToolServer.Diff.Detail
import ToolServer.Proofs.Json.Representable
import ToolServer.Proofs.Ordered

/-!
# What is reported of two input schemas

`mem_schemaDifferences_iff`: the differences of two input schemas are those that their parameters show, no fewer
and no more. `schemaDifferences_isOk`: they can be told if JSON represents the values of the enumerations that
differ, and only then.
-/

namespace ToolServer.Diff

open Json (Representable)

/-! ## Enumerations -/

/-- Two enumerations that differ; an absent one is as good as an empty one. -/
def EnumsDiffer (p q : Property) : Prop := (hasEnum p || hasEnum q) = true ∧ (p.enum != q.enum) = true

instance (p q : Property) : Decidable (EnumsDiffer p q) := inferInstanceAs (Decidable (_ ∧ _))

def RepresentableEnum (p : Property) : Prop := ∀ v ∈ p.enum.getD [], Representable v

theorem enumText_isOk {p : Property} : (∃ t, enumText p = .ok t) ↔ RepresentableEnum p :=
  Json.representable_iff.trans ⟨fun | .list h => h, .list⟩

theorem enumDifference_eq (name : String) (p q : Property) : enumDifference name p q =
    if EnumsDiffer p q then do return [.enum name (← enumText p) (← enumText q)] else .ok [] := by
  unfold enumDifference EnumsDiffer
  simp only [Bool.and_eq_true]
  rfl

theorem mem_enumDifference_iff {name : String} {p q : Property} {ds : List Difference} {x : Difference}
    (h : enumDifference name p q = .ok ds) : x ∈ ds ↔
      ∃ s t, EnumsDiffer p q ∧ enumText p = .ok s ∧ enumText q = .ok t ∧ x = .enum name s t := by
  rw [enumDifference_eq] at h
  split at h
  · rename_i hdiffer
    obtain ⟨s, hs, h⟩ := bind_eq_ok_iff.mp h
    obtain ⟨t, ht, h⟩ := bind_eq_ok_iff.mp h
    cases h
    simp [hdiffer, hs, ht]
  · rename_i hsame
    cases h
    simp [hsame]

/-! ## Parameters of both versions -/

structure Kept (old new : InputSchema) (name : String) (p q : Property) : Prop where
  old : Ordered.get? name old.properties = some p
  new : (name, q) ∈ new.properties

inductive Shown (old new : InputSchema) (name : String) (p q : Property) : Difference → Prop
  | type : p.type ≠ q.type → Shown old new name p q (.type name p.type q.type)
  | required : old.required.contains name ≠ new.required.contains name →
      Shown old new name p q (.required name (old.required.contains name) (new.required.contains name))
  | enum {s t} : EnumsDiffer p q → enumText p = .ok s → enumText q = .ok t →
      Shown old new name p q (.enum name s t)

theorem mem_changedIn_iff {old new : InputSchema} {name : String} {p q : Property} {ds : List Difference}
    {x : Difference} (h : changedIn old new name p q = .ok ds) : x ∈ ds ↔ Shown old new name p q x := by
  obtain ⟨es, hes, h⟩ := bind_eq_ok_iff.mp h
  cases h
  rw [List.mem_append, List.mem_append, mem_enumDifference_iff hes]
  constructor
  · rintro ((hx | hx) | ⟨s, t, hdiffer, hs, ht, rfl⟩)
    · split at hx
      · cases hx
      · rename_i hne
        obtain rfl := List.mem_singleton.mp hx
        exact .type hne
    · split at hx
      · cases hx
      · rename_i hne
        obtain rfl := List.mem_singleton.mp hx
        exact .required hne
    · exact .enum hdiffer hs ht
  · intro hx
    cases hx with
    | type hne => exact .inl (.inl (by rw [if_neg hne]; exact List.mem_singleton_self _))
    | required hne => exact .inl (.inr (by rw [if_neg hne]; exact List.mem_singleton_self _))
    | enum hdiffer hs ht => exact .inr ⟨_, _, hdiffer, hs, ht, rfl⟩

theorem changedBetween_absent {old new : InputSchema} {name : String} {q : Property}
    {es : List (String × Property)} (h : Ordered.get? name old.properties = none) :
    changedBetween old new ((name, q) :: es) = changedBetween old new es := by
  rw [changedBetween, h]
  cases changedBetween old new es <;> rfl

theorem changedBetween_present {old new : InputSchema} {name : String} {p q : Property}
    {es : List (String × Property)} (h : Ordered.get? name old.properties = some p) :
    changedBetween old new ((name, q) :: es) = do
      let here ← changedIn old new name p q
      let rest ← changedBetween old new es
      return here ++ rest := by
  rw [changedBetween, h]

theorem mem_changedBetween_iff {old new : InputSchema} {x : Difference} :
    ∀ {es : List (String × Property)} {ds : List Difference}, changedBetween old new es = .ok ds →
      (x ∈ ds ↔ ∃ e ∈ es, ∃ p, Ordered.get? e.1 old.properties = some p ∧ Shown old new e.1 p e.2 x)
  | [], ds, h => by
    cases h
    simp
  | (name, q) :: es, ds, h => by
    simp only [List.mem_cons, exists_eq_or_imp]
    cases hold : Ordered.get? name old.properties with
    | none =>
      rw [changedBetween_absent hold] at h
      rw [mem_changedBetween_iff h]
      simp
    | some p =>
      rw [changedBetween_present hold] at h
      obtain ⟨here, hhere, h⟩ := bind_eq_ok_iff.mp h
      obtain ⟨rest, hrest, h⟩ := bind_eq_ok_iff.mp h
      cases h
      rw [List.mem_append, mem_changedIn_iff hhere, mem_changedBetween_iff hrest]
      simp

/-! ## Two input schemas -/

inductive Emitted (old new : InputSchema) : Difference → Prop
  | added {name q} : (name, q) ∈ new.properties → Ordered.contains name old.properties = false →
      Emitted old new (.added name (new.required.contains name) q.type)
  | removed {name p} : (name, p) ∈ old.properties → Ordered.contains name new.properties = false →
      Emitted old new (.removed name p.type)
  | kept {name p q x} : Kept old new name p q → Shown old new name p q x → Emitted old new x

/-- **The differences are those that the parameters show.** -/
theorem mem_schemaDifferences_iff {old new : InputSchema} {ds : List Difference} {x : Difference}
    (h : schemaDifferences old new = .ok ds) : x ∈ ds ↔ Emitted old new x := by
  obtain ⟨changed, hchanged, h⟩ := bind_eq_ok_iff.mp h
  cases h
  rw [List.mem_append, List.mem_append, mem_changedBetween_iff hchanged]
  constructor
  · rintro ((hx | hx) | ⟨e, he, p, hp, hx⟩)
    · obtain ⟨e, he, rfl⟩ := List.mem_map.mp hx
      obtain ⟨he, hnew⟩ := List.mem_filter.mp he
      exact .added he (by simpa using hnew)
    · obtain ⟨e, he, rfl⟩ := List.mem_map.mp hx
      obtain ⟨he, hgone⟩ := List.mem_filter.mp he
      exact .removed he (by simpa using hgone)
    · exact .kept ⟨hp, he⟩ hx
  · intro hx
    cases hx with
    | added he hnew =>
      exact .inl (.inl (List.mem_map.mpr ⟨_, List.mem_filter.mpr ⟨he, by simpa using hnew⟩, rfl⟩))
    | removed he hgone =>
      exact .inl (.inr (List.mem_map.mpr ⟨_, List.mem_filter.mpr ⟨he, by simpa using hgone⟩, rfl⟩))
    | kept hkept hx => exact .inr ⟨_, hkept.new, _, hkept.old, hx⟩

def RepresentableEnums (s : InputSchema) : Prop := ∀ e ∈ s.properties, RepresentableEnum e.2

def EnumsWritten (p q : Property) : Prop := EnumsDiffer p q → RepresentableEnum p ∧ RepresentableEnum q

theorem enumDifference_isOk {name : String} {p q : Property} :
    (∃ ds, enumDifference name p q = .ok ds) ↔ EnumsWritten p q := by
  rw [enumDifference_eq]
  unfold EnumsWritten
  by_cases hdiffer : EnumsDiffer p q
  · rw [if_pos hdiffer, forall_prop_of_true hdiffer, ← enumText_isOk, ← enumText_isOk, exists_bind_ok_iff]
    constructor
    · rintro ⟨s, hs, h⟩
      exact ⟨⟨s, hs⟩, exists_map_ok_iff.mp h⟩
    · rintro ⟨⟨s, hs⟩, h⟩
      exact ⟨s, hs, exists_map_ok_iff.mpr h⟩
  · rw [if_neg hdiffer]
    exact ⟨fun _ h => absurd h hdiffer, fun _ => ⟨[], rfl⟩⟩

section
variable {old new : InputSchema}

theorem changedIn_isOk {name : String} {p q : Property} :
    (∃ ds, changedIn old new name p q = .ok ds) ↔ EnumsWritten p q :=
  exists_map_ok_iff.trans enumDifference_isOk

def EnumsTold (old : InputSchema) (es : List (String × Property)) : Prop :=
  ∀ e ∈ es, ∀ p, Ordered.get? e.1 old.properties = some p → EnumsWritten p e.2

theorem changedBetween_isOk : ∀ {es : List (String × Property)},
    (∃ ds, changedBetween old new es = .ok ds) ↔ EnumsTold old es
  | [] => ⟨fun _ => List.forall_mem_nil _, fun _ => ⟨[], rfl⟩⟩
  | (name, q) :: es => by
    have ih : (∃ ds, changedBetween old new es = .ok ds) ↔ EnumsTold old es := changedBetween_isOk
    unfold EnumsTold at ih ⊢
    rw [List.forall_mem_cons, ← ih]
    cases hget : Ordered.get? name old.properties with
    | none =>
      rw [changedBetween_absent hget]
      exact ⟨fun h => ⟨fun p hp => (by cases hp), h⟩, fun h => h.2⟩
    | some p =>
      rw [changedBetween_present hget, exists_bind_ok_iff]
      constructor
      · rintro ⟨here, hhere, hrest⟩
        refine ⟨fun p' hp => ?_, exists_map_ok_iff.mp hrest⟩
        cases hp
        exact changedIn_isOk.mp ⟨here, hhere⟩
      · rintro ⟨hwritten, hrest⟩
        have hin : ∃ here, changedIn old new name p q = .ok here := changedIn_isOk.mpr (hwritten p rfl)
        obtain ⟨here, hhere⟩ := hin
        exact ⟨here, hhere, exists_map_ok_iff.mpr hrest⟩

theorem schemaDifferences_isOk :
    (∃ ds, schemaDifferences old new = .ok ds) ↔ EnumsTold old new.properties :=
  exists_map_ok_iff.trans changedBetween_isOk

theorem enumsTold_of_representable (hold : RepresentableEnums old) (hnew : RepresentableEnums new) :
    EnumsTold old new.properties :=
  fun e he _ hp _ => ⟨hold _ (Ordered.pair_mem_of_get? hp), hnew e he⟩

end

end ToolServer.Diff
