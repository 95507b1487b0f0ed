import Mathlib.Data.Set.Insert
import ToolServer.Proofs.Diff.Breaking

/-!
# Calls across versions

A call is the set of the arguments that it names. `accepts_of_quiet`: without a difference that counts as
breaking, calls of the old version are calls of the new one. That a parameter of both became required is a
difference, but not one that counts.
-/

namespace ToolServer.Diff

/-- The names that are given are all that must be, and none but those of parameters. -/
structure Accepts (s : InputSchema) (names : Set String) : Prop where
  required : ∀ name ∈ s.required, name ∈ names
  known : ∀ name ∈ names, Ordered.contains name s.properties = true

structure NewParameter (old new : InputSchema) (name : String) : Prop where
  present : Ordered.contains name new.properties = true
  absent : Ordered.contains name old.properties = false

section
variable {old new : InputSchema} {ds : List Difference}

theorem mem_of_contains {name : String} {s : InputSchema} (h : Ordered.contains name s.properties = true) :
    ∃ p, (name, p) ∈ s.properties := by
  obtain ⟨p, hp⟩ := Ordered.contains_iff.mp h
  exact ⟨p, Ordered.pair_mem_of_get? hp⟩

theorem contains_of_quiet (h : schemaDifferences old new = .ok ds)
    (hquiet : ∀ x ∈ ds, x.detail.isBreaking = false) {name : String}
    (hold : Ordered.contains name old.properties = true) : Ordered.contains name new.properties = true := by
  by_contra hgone
  obtain ⟨p, hp⟩ := mem_of_contains hold
  have hx := (mem_schemaDifferences_iff h).mpr (.removed hp (Bool.not_eq_true _ ▸ hgone))
  have hbreaking := Difference.isBreaking_removed name p.type
  rw [hquiet _ hx] at hbreaking
  cases hbreaking

theorem dot_mem_of_quiet (h : schemaDifferences old new = .ok ds)
    (hquiet : ∀ x ∈ ds, x.detail.isBreaking = false) {name : String} (hnew : NewParameter old new name)
    (hrequired : name ∈ new.required) : '.' ∈ name.toList := by
  by_contra hdot
  obtain ⟨q, hq⟩ := mem_of_contains hnew.present
  have hx := (mem_schemaDifferences_iff h).mpr (.added hq hnew.absent)
  have hbreaking : (Difference.added name (new.required.contains name) q.type).detail.isBreaking = true :=
    (Difference.isBreaking_added ..).mpr (.inl ⟨by simpa using hrequired, hdot⟩)
  rw [hquiet _ hx] at hbreaking
  cases hbreaking

/-- **Without a breaking difference, old calls stay calls**, if names that have come to be required are those of
new parameters. -/
theorem accepts_of_quiet (h : schemaDifferences old new = .ok ds)
    (hquiet : ∀ x ∈ ds, x.detail.isBreaking = false)
    (hrequired : ∀ name ∈ new.required, name ∈ old.required ∨ NewParameter old new name ∧ '.' ∉ name.toList)
    {names : Set String} (hcall : Accepts old names) : Accepts new names where
  required name hname := by
    rcases hrequired name hname with hold | ⟨hnew, hdot⟩
    · exact hcall.required name hold
    · exact absurd (dot_mem_of_quiet h hquiet hnew hname) hdot
  known name hname := contains_of_quiet h hquiet (hcall.known name hname)

end

def petInputs : InputSchema where
  properties := [("id", { type := "string" })]
  required := ["id"]

def pagedInputs : InputSchema where
  properties := [("id", { type := "string" }), ("limit", { type := "integer" })]
  required := ["id"]

theorem accepts_of_quiet_paged : ∃ ds, schemaDifferences petInputs pagedInputs = .ok ds ∧
    (∀ x ∈ ds, x.detail.isBreaking = false) ∧
    (∀ name ∈ pagedInputs.required,
      name ∈ petInputs.required ∨ NewParameter petInputs pagedInputs name ∧ '.' ∉ name.toList) ∧
    Accepts petInputs {"id"} ∧ Accepts pagedInputs {"id"} := by
  have hds : schemaDifferences petInputs pagedInputs = .ok [.added "limit" false "integer"] := rfl
  have hquiet : ∀ x ∈ [Difference.added "limit" false "integer"], x.detail.isBreaking = false := by decide
  have hrequired : ∀ name ∈ pagedInputs.required,
      name ∈ petInputs.required ∨ NewParameter petInputs pagedInputs name ∧ '.' ∉ name.toList :=
    fun _ h => .inl h
  have hcall : Accepts petInputs {"id"} := ⟨by simp [petInputs], by simp [petInputs, Ordered.contains]⟩
  exact ⟨_, hds, hquiet, hrequired, hcall, accepts_of_quiet hds hquiet hrequired hcall⟩

def searchInputs (required : List String) : InputSchema := { properties := [("q", { type := "string" })], required }

/-- A parameter that became required does not count, and a call without it is no call of the new version. -/
theorem quiet_without_acceptance : ∃ ds, schemaDifferences (searchInputs []) (searchInputs ["q"]) = .ok ds ∧
    (∀ x ∈ ds, x.detail.isBreaking = false) ∧ Accepts (searchInputs []) ∅ ∧ ¬ Accepts (searchInputs ["q"]) ∅ := by
  refine ⟨[.required "q" false true], rfl, by decide, ⟨by simp [searchInputs], by simp⟩, fun h => ?_⟩
  exact h.required "q" (List.mem_cons_self ..)

end ToolServer.Diff
