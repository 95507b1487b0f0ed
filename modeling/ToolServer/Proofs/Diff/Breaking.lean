import Mathlib.Data.List.Infix
import ToolServer.Proofs.Diff.Emitted

/-!
# Differences that break callers

Whether a difference can break callers is read off its text, and the name of a parameter is part of that. The
text tells it right but for a new parameter with a dot in its name, or with one that ends as the report of a
changed type does: `isBreaking_iff_breaks_iff`.
-/

namespace ToolServer.Diff

/-! ## Texts of differences -/

def TypeLike (name : String) : Prop := name = "type" ∨ ∃ start, name = start ++ ".type"

theorem typeLike_iff (name : String) : TypeLike name ↔ ".type".toList <:+ ("param." ++ name).toList := by
  rw [String.toList_append]
  constructor
  · rintro (rfl | ⟨start, rfl⟩)
    · exact ⟨"param".toList, by decide⟩
    · exact ⟨"param.".toList ++ start.toList, by simp⟩
  · rintro ⟨t, ht⟩
    rcases List.append_eq_append_iff.mp ht with ⟨as, hparam, htype⟩ | ⟨bs, -, hname⟩
    · -- the name begins inside the ending, so what is before it is a part of both words
      have hall : ∀ as ∈ "param.".toList.tails, as <+: ".type".toList → as = [] ∨ as = ['.'] := by decide
      rcases hall as ((List.mem_tails ..).mpr ⟨t, hparam.symm⟩) ⟨name.toList, htype.symm⟩ with rfl | rfl
      · exact .inr ⟨"", String.toList_inj.mp (by simpa using htype.symm)⟩
      · exact .inl (String.toList_inj.mp (by simpa using htype.symm))
    · exact .inr ⟨String.ofList bs, String.toList_inj.mp (by simp [hname])⟩

theorem TypeLike.getLast? {name : String} (h : TypeLike name) : name.toList.getLast? = some 'e' := by
  rcases h with rfl | ⟨start, rfl⟩
  · rfl
  · simp

/-- What the text of a detail on a parameter must be for it to count as breaking. -/
theorem isBreaking_iff (field : String) (oldValue : Option String) (newValue : String) :
    (Detail.mk ("param." ++ field) oldValue (some newValue)).isBreaking = true ↔
      newValue = "removed" ∨ '.' ∉ field.toList ∧ "added (required".toList <+: newValue.toList ∨
        TypeLike field := by
  have hparam : (Detail.mk ("param." ++ field) oldValue (some newValue)).isParameter = true :=
    List.isPrefixOf_iff_prefix.mpr ⟨field.toList, by simp⟩
  have hdots : ("param." ++ field).toList.count '.' = 1 ↔ '.' ∉ field.toList := by
    rw [String.toList_append, List.count_append, ← List.count_eq_zero (a := '.')]
    have hone : "param.".toList.count '.' = 1 := by decide
    omega
  have hmethod : "param." ++ field ≠ "handler.method" := fun h => by
    have hlist := congrArg String.toList h
    simp at hlist
  simp only [Detail.isBreaking, hparam, Bool.true_and, Bool.and_true, Bool.or_eq_true, Bool.and_eq_true,
    beq_iff_eq, Option.some.injEq, Option.getD_some, List.isPrefixOf_iff_prefix, List.isSuffixOf_iff_suffix,
    hdots, hmethod, or_false, ← typeLike_iff]
  exact or_assoc

namespace Difference

theorem isBreaking_added (name : String) (mandatory : Bool) (kind : String) :
    (added name mandatory kind).detail.isBreaking = true ↔
      mandatory = true ∧ '.' ∉ name.toList ∨ TypeLike name := by
  have hremoved : ∀ status : String, "added (" ++ status ++ ", type: " ++ kind ++ ")" ≠ "removed" :=
    fun status h => by simpa using congrArg String.toList h
  have hstatus : "added (required".toList <+:
      ("added (" ++ (if mandatory then "required" else "optional") ++ ", type: " ++ kind ++ ")").toList ↔
        mandatory = true := by
    cases mandatory <;> simp
  unfold detail
  rw [isBreaking_iff, hstatus, and_comm, or_iff_right (hremoved _)]

theorem isBreaking_removed (name kind : String) : (removed name kind).detail.isBreaking = true :=
  (isBreaking_iff ..).mpr (.inl rfl)

theorem isBreaking_type (name old new : String) : (type name old new).detail.isBreaking = true := by
  rw [detail, String.append_assoc, isBreaking_iff]
  exact .inr (.inr (.inr ⟨name, rfl⟩))

theorem isBreaking_required (name : String) (old new : Bool) :
    (required name old new).detail.isBreaking = false := by
  rw [detail, String.append_assoc, ← Bool.not_eq_true, isBreaking_iff]
  rintro (h | ⟨-, h⟩ | h)
  · revert h
    cases new <;> decide
  · revert h
    cases new <;> decide
  · simpa using h.getLast?

theorem isBreaking_enum {name old new : String} (h : ∃ rest, new = "[" ++ rest) :
    (enum name old new).detail.isBreaking = false := by
  obtain ⟨rest, rfl⟩ := h
  rw [detail, String.append_assoc, ← Bool.not_eq_true, isBreaking_iff]
  rintro (h | ⟨-, h⟩ | h)
  · simpa using congrArg String.toList h
  · simp at h
  · simpa using h.getLast?

end Difference

/-! ## Differences that break -/

section
variable {old new : InputSchema} {ds : List Difference} {x : Difference}

/-- A caller of the old version can trip over a parameter that is gone, a new one that is required, and one of
another type. -/
inductive Breaks (old new : InputSchema) : Difference → Prop
  | removed {name p} : (name, p) ∈ old.properties → Ordered.contains name new.properties = false →
      Breaks old new (.removed name p.type)
  | added {name q} : (name, q) ∈ new.properties → Ordered.contains name old.properties = false →
      name ∈ new.required → Breaks old new (.added name true q.type)
  | type {name p q} : Kept old new name p q → p.type ≠ q.type → Breaks old new (.type name p.type q.type)

/-- New parameters whose name makes the text of the difference mislead. -/
inductive Misread : Difference → Prop
  | hidden {name kind} : '.' ∈ name.toList → ¬ TypeLike name → Misread (.added name true kind)
  | mistaken {name kind} : TypeLike name → Misread (.added name false kind)

theorem breaks_added_iff {name : String} {q : Property} (hmem : (name, q) ∈ new.properties)
    (hnew : Ordered.contains name old.properties = false) :
    Breaks old new (.added name (new.required.contains name) q.type) ↔ new.required.contains name = true := by
  constructor
  · intro h
    generalize new.required.contains name = mandatory, q.type = kind at h
    cases h
    rfl
  · intro h
    rw [h]
    exact .added hmem hnew (by simpa using h)

theorem isBreaking_shown {name : String} {p q : Property} (hkept : Kept old new name p q)
    (h : Shown old new name p q x) : x.detail.isBreaking = true ↔ Breaks old new x := by
  cases h with
  | type hne => exact ⟨fun _ => .type hkept hne, fun _ => Difference.isBreaking_type ..⟩
  | required =>
    rw [Difference.isBreaking_required]
    exact ⟨fun h => (by cases h), fun h => (by cases h)⟩
  | enum _ _ ht =>
    rw [Difference.isBreaking_enum (Json.bracket_of_write_list ht)]
    exact ⟨fun h => (by cases h), fun h => (by cases h)⟩

/-- **The text of a difference tells whether it breaks calls, unless its name misleads.** -/
theorem isBreaking_iff_breaks_iff (h : schemaDifferences old new = .ok ds) (hx : x ∈ ds) :
    (x.detail.isBreaking = true ↔ Breaks old new x) ↔ ¬ Misread x := by
  cases (mem_schemaDifferences_iff h).mp hx with
  | @added name q hmem hnew =>
    rw [Difference.isBreaking_added, breaks_added_iff hmem hnew]
    generalize new.required.contains name = mandatory
    have hmisread : Misread (.added name mandatory q.type) ↔
        mandatory = true ∧ '.' ∈ name.toList ∧ ¬ TypeLike name ∨ mandatory = false ∧ TypeLike name := by
      constructor
      · intro h
        cases h with
        | hidden hdot hlike => exact .inl ⟨rfl, hdot, hlike⟩
        | mistaken hlike => exact .inr ⟨rfl, hlike⟩
      · rintro (⟨rfl, hdot, hlike⟩ | ⟨rfl, hlike⟩)
        · exact .hidden hdot hlike
        · exact .mistaken hlike
    rw [hmisread]
    cases mandatory
    · simp
    · simp
      tauto
  | removed hmem hgone =>
    have hbreaks : Breaks old new _ := .removed hmem hgone
    rw [iff_true_intro (Difference.isBreaking_removed ..), iff_true_intro hbreaks]
    exact ⟨fun _ h => (by cases h), fun _ => Iff.rfl⟩
  | kept hkept hshown =>
    refine ⟨fun _ h => ?_, fun _ => isBreaking_shown hkept hshown⟩
    cases h <;> cases hshown

end

def noInputs : InputSchema := { properties := [], required := [] }

def filterInputs : InputSchema where
  properties := [("filter.name", { type := "string" }), ("type", { type := "string" })]
  required := ["filter.name"]

example : (Difference.added "filter.name" true "string").detail.isBreaking = false := by decide

example : (Difference.added "type" false "string").detail.isBreaking = true := by decide

theorem isBreaking_iff_breaks_iff_filter : ∃ ds x, schemaDifferences noInputs filterInputs = .ok ds ∧ x ∈ ds ∧
    ((x.detail.isBreaking = true ↔ Breaks noInputs filterInputs x) ↔ ¬ Misread x) :=
  ⟨[.added "filter.name" true "string", .added "type" false "string"], .added "filter.name" true "string", rfl,
    List.mem_cons_self .., isBreaking_iff_breaks_iff rfl (List.mem_cons_self ..)⟩

end ToolServer.Diff
