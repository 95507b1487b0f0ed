import ToolServer.Emit.Project
import ToolServer.Proofs.Diff.Emitted

/-!
# Checks that can be written

The check of an input spells out its choices, and that of an array the check of its items. It can be written if
and only if JSON represents the choices that are spelled out: `check_isOk`. An annotation spells out choices of the
plain kinds, and can be written unless an integer among them has too many digits. Nothing else in a project can fail
to be written: `TypeScript.files_isOk`, `Python.files_isOk`.
-/

namespace ToolServer

open Diff (RepresentableEnum hasEnum)
open Json (Representable)

/-- JSON represents the choices of an input, and where there are none, those of the items of an array. -/
inductive Property.Checkable : Property → Prop
  | intro {p : Property} : RepresentableEnum p →
      (hasEnum p = false → p.type = "array" → ∀ q, p.items = some q → Checkable q) → Checkable p

theorem Property.Checkable.enum {p : Property} : p.Checkable → RepresentableEnum p
  | intro h _ => h

theorem Property.Checkable.items {p q : Property} (henum : hasEnum p = false) (htype : p.type = "array")
    (hq : p.items = some q) : p.Checkable → q.Checkable
  | intro _ h => h henum htype q hq

def Config.Checkable (c : Config) : Prop := ∀ t ∈ c.enabledTools, ∀ e ∈ t.inputSchema.properties, e.2.Checkable

/-- No integer among choices of the plain kinds has too many digits. -/
def Property.Annotated (p : Property) : Prop :=
  (∀ v ∈ p.enum.getD [], Emit.Python.isLiteralValue v = true) →
    ∀ n, .int n ∈ p.enum.getD [] → Decimal.isWritable n = true

def Config.Annotated (c : Config) : Prop := ∀ t ∈ c.enabledTools, ∀ e ∈ t.inputSchema.properties, e.2.Annotated

theorem Property.Annotated.of_enum {p : Property} (h : RepresentableEnum p) : p.Annotated := by
  intro _ n hn
  cases h _ hn with
  | scalar hdigits => exact hdigits

theorem Config.Checkable.annotated {c : Config} (h : c.Checkable) : c.Annotated :=
  fun t ht e he => .of_enum (h t ht e he).enum

namespace Emit.TypeScript

open Document (Value Scalar Entries)

/-! ## Choices -/

theorem literal_isOk {v : Value} : (∃ t, literal v = .ok t) ↔ Representable v := by
  unfold literal
  split
  · exact ⟨fun _ => .scalar trivial, fun _ => ⟨_, rfl⟩⟩
  · exact Json.representable_iff

theorem enumCheck_isOk {vs : List Value} : (∃ t, enumCheck vs = .ok t) ↔ ∀ v ∈ vs, Representable v := by
  unfold enumCheck
  split
  · rw [exists_map_ok_iff, exists_mapM_ok_iff]
    exact forall₂_congr fun v _ => literal_isOk
  · rw [exists_bind_ok_iff]
    have hall : (∃ ls, vs.mapM (fun v => do return "z.literal(" ++ (← literal v) ++ ")") = .ok ls) ↔
        ∀ v ∈ vs, Representable v := by
      rw [exists_mapM_ok_iff]
      exact forall₂_congr fun v _ => exists_map_ok_iff.trans literal_isOk
    refine Iff.trans ⟨fun ⟨ls, hls, _⟩ => ⟨ls, hls⟩, fun ⟨ls, hls⟩ => ⟨ls, hls, ?_⟩⟩ hall
    split <;> exact ⟨_, rfl⟩

/-! ## Checks -/

theorem check_of_enum {p : Property} (h : hasEnum p = true) : check p = enumCheck (p.enum.getD []) := by
  obtain ⟨type, description, enum, default, items, properties, required, minimum, maximum, format⟩ := p
  cases enum with
  | none => cases h
  | some vs =>
    cases vs with
    | nil => cases h
    | cons v vs => rfl

theorem check_of_array {p : Property} (henum : hasEnum p = false) (htype : p.type = "array") :
    check p = do return "z.array(" ++ (← itemsCheck p.items) ++ ")" := by
  obtain ⟨type, description, enum, default, items, properties, required, minimum, maximum, format⟩ := p
  obtain rfl : type = "array" := htype
  cases enum with
  | none => rfl
  | some vs =>
    cases vs with
    | nil => rfl
    | cons v vs => cases henum

theorem check_of_other {p : Property} (henum : hasEnum p = false) (htype : p.type ≠ "array") :
    ∃ t, check p = .ok t := by
  obtain ⟨type, description, enum, default, items, properties, required, minimum, maximum, format⟩ := p
  have htype : type ≠ "array" := htype
  unfold check
  split
  · cases henum
  · rw [if_neg htype]
    split_ifs <;> exact ⟨_, rfl⟩

theorem representableEnum_of_none {p : Property} (h : hasEnum p = false) : RepresentableEnum p := by
  unfold hasEnum at h
  unfold RepresentableEnum
  cases henum : p.enum with
  | none => exact List.forall_mem_nil _
  | some vs =>
    rw [henum] at h
    cases vs with
    | nil => exact List.forall_mem_nil _
    | cons v vs => cases h

mutual
theorem check_isOk : ∀ {p : Property}, (∃ t, check p = .ok t) ↔ p.Checkable
  | ⟨type, description, enum, default, items, properties, required, minimum, maximum, format⟩ => by
    have hitems := itemsCheck_isOk (o := items)
    generalize hp : Property.mk type description enum default items properties required minimum maximum format = p
    obtain rfl : items = p.items := hp ▸ rfl
    by_cases henum : hasEnum p = true
    · rw [check_of_enum henum, enumCheck_isOk]
      exact ⟨fun h => .intro h fun hnone => absurd (henum.symm.trans hnone) Bool.noConfusion, Property.Checkable.enum⟩
    · have henum : hasEnum p = false := Bool.eq_false_iff.mpr henum
      by_cases htype : p.type = "array"
      · rw [check_of_array henum htype, exists_map_ok_iff, hitems]
        exact ⟨fun h => .intro (representableEnum_of_none henum) fun _ _ => h,
          fun h q hq => h.items henum htype hq⟩
      · exact ⟨fun _ => .intro (representableEnum_of_none henum) fun _ h => absurd h htype,
          fun _ => check_of_other henum htype⟩
theorem itemsCheck_isOk : ∀ {o : Option Property}, (∃ t, itemsCheck o = .ok t) ↔ ∀ q, o = some q → q.Checkable
  | none => ⟨fun _ q hq => (by cases hq), fun _ => ⟨_, rfl⟩⟩
  | some p => by
    rw [itemsCheck, check_isOk]
    exact ⟨fun h q hq => Option.some.inj hq ▸ h, fun h => h p rfl⟩
end

/-! ## Files -/

theorem inputLines_isOk {s : InputSchema} : (∃ ls, inputLines s = .ok ls) ↔ ∀ e ∈ s.properties, e.2.Checkable := by
  rw [inputLines, exists_mapM_ok_iff]
  exact forall₂_congr fun e _ => exists_map_ok_iff.trans check_isOk

theorem toolLines_isOk {t : Tool} :
    (∃ ls, toolLines t = .ok ls) ↔ ∀ e ∈ t.inputSchema.properties, e.2.Checkable :=
  exists_map_ok_iff.trans inputLines_isOk

theorem tools_isOk {c : Config} : (∃ t, tools c = .ok t) ↔ c.Checkable := by
  rw [tools, exists_map_ok_iff, exists_mapM_ok_iff]
  exact forall₂_congr fun t _ => exists_map_ok_iff.trans toolLines_isOk

/-- **A project in this language can be written if and only if its checks can.** -/
theorem files_isOk {c : Config} : (∃ fs, files c = .ok fs) ↔ c.Checkable := by
  obtain ⟨manifestText, hmanifest⟩ : ∃ t, jsonFile (manifest c) = .ok t := ⟨_, rfl⟩
  obtain ⟨options, hoptions⟩ : ∃ t, jsonFile compilerOptions = .ok t := ⟨_, rfl⟩
  have hfiles : (∃ fs, files c = .ok fs) ↔ ∃ t, tools c = .ok t := by
    unfold files
    rw [hmanifest, hoptions]
    exact exists_map_ok_iff
  exact hfiles.trans tools_isOk

end Emit.TypeScript

namespace Emit.Python

open Document (Value)

theorem isSpelled_iff {vs : List Value} : (∀ v ∈ vs, isSpelled v = true) ↔
    ∀ n, .int n ∈ vs → Decimal.isWritable n = true := by
  constructor
  · exact fun h n hn => h _ hn
  · intro h v hv
    unfold isSpelled
    split
    · exact h _ hv
    · rfl

theorem isAnnotated_iff {p : Property} : isAnnotated p = true ↔ p.Annotated := by
  unfold isAnnotated Property.Annotated
  rw [Bool.or_eq_true, Bool.not_eq_true', ← Bool.not_eq_true, List.all_eq_true, List.all_eq_true, isSpelled_iff,
    ← imp_iff_not_or]

/-- **A project in this language can be written if and only if its annotations can.** -/
theorem files_isOk {c : Config} : (∃ fs, files c = .ok fs) ↔ c.Annotated := by
  have hall : (c.enabledTools.all fun t => t.inputSchema.properties.all fun e => isAnnotated e.2) = true ↔
      c.Annotated := by
    simp only [List.all_eq_true, isAnnotated_iff, Config.Annotated]
  unfold files
  split
  · rename_i h
    exact ⟨fun _ => hall.mp h, fun _ => ⟨_, rfl⟩⟩
  · rename_i h
    exact ⟨fun ⟨fs, hfs⟩ => (by cases hfs), fun hannotated => absurd (hall.mpr hannotated) h⟩

end Emit.Python

end ToolServer
