import Mathlib.Data.List.Nodup
import ToolServer.Proofs.Naming.Valid

/-!
# Distinct names

The numbered forms of a name differ, so that among one more of them than there are taken names one is free.
Names that were made distinct are given names and numbered forms of these, with numbers about as large as
the count of names.
-/

namespace ToolServer.Naming

theorem eq_of_append_cons_eq {α : Type} {mark : α} {a b s t : List α} (hs : mark ∉ s) (ht : mark ∉ t)
    (h : a ++ mark :: s = b ++ mark :: t) : s = t := by
  rcases List.append_eq_append_iff.mp h with ⟨d, -, hd⟩ | ⟨d, -, hd⟩
  · cases d with
    | nil => exact (List.cons.inj hd).2
    | cons c d =>
      obtain ⟨-, rfl⟩ := List.cons.inj hd
      exact absurd (List.mem_append_right d (List.mem_cons_self ..)) hs
  · cases d with
    | nil => exact (List.cons.inj hd).2.symm
    | cons c d =>
      obtain ⟨-, rfl⟩ := List.cons.inj hd
      exact absurd (List.mem_append_right d (List.mem_cons_self ..)) ht

theorem underscore_not_mem_digits (n : Nat) : '_' ∉ Decimal.digits n := fun h =>
  absurd (Decimal.isAsciiDigit_of_mem_digits _ h) (by decide)

theorem numbered_injective {name : String} {m n : Nat} (h : numbered name m = numbered name n) : m = n := by
  have h := congrArg String.toList h
  rw [toList_numbered, toList_numbered] at h
  exact Decimal.digits_injective
    (eq_of_append_cons_eq (underscore_not_mem_digits m) (underscore_not_mem_digits n) h)

/-- Among one more forms than there are taken names one is free. -/
theorem exists_form_free {form : Nat → String} (hform : Function.Injective form) (taken : List String) :
    ∃ i < taken.length + 1, form i ∉ taken := by
  by_contra hall
  push Not at hall
  have hnodup : ((List.range (taken.length + 1)).map form).Nodup := List.nodup_range.map hform
  have hsub : (List.range (taken.length + 1)).map form ⊆ taken := by
    intro r hr
    obtain ⟨i, hi, rfl⟩ := List.mem_map.mp hr
    exact hall i (List.mem_range.mp hi)
  have := hnodup.length_le_of_subset hsub
  rw [List.length_map, List.length_range] at this
  omega

theorem exists_free (taken : List String) (name : String) :
    ∃ i < taken.length + 1, numbered name (i + 2) ∉ taken :=
  exists_form_free (fun _ _ h => Nat.add_right_cancel (numbered_injective h)) taken

/-- The free form has the least number, from two on, that makes it free. -/
theorem freeName_eq (taken : List String) (name : String) : ∃ n, 2 ≤ n ∧ n ≤ taken.length + 2 ∧
    freeName taken name = numbered name n ∧ numbered name n ∉ taken ∧
      ∀ m, 2 ≤ m → m < n → numbered name m ∈ taken := by
  unfold freeName
  rw [List.find?_map]
  cases h : (List.range (taken.length + 1)).find? ((!taken.contains ·) ∘ fun i => numbered name (i + 2)) with
  | none =>
    obtain ⟨i, hi, hfree⟩ := exists_free taken name
    simpa [hfree] using List.find?_range_eq_none.mp h i hi
  | some i =>
    obtain ⟨hfree, hi, hleast⟩ := List.find?_range_eq_some.mp h
    refine ⟨i + 2, Nat.le_add_left 2 i, Nat.succ_le_of_lt (Nat.succ_lt_succ (List.mem_range.mp hi)), rfl,
      by simpa using hfree, fun m hm hmi => ?_⟩
    obtain ⟨j, rfl⟩ := Nat.exists_eq_add_of_le' hm
    simpa using hleast j (by omega)

/-! ## Making names distinct -/

theorem length_distinctFrom {given : List String} :
    ∀ {names used : List String}, (distinctFrom given used names).length = names.length
  | [], _ => rfl
  | _ :: _, _ => congrArg (· + 1) length_distinctFrom

theorem distinctFrom_fresh {given : List String} : ∀ {names used : List String},
    (distinctFrom given used names).Nodup ∧ ∀ r ∈ distinctFrom given used names, r ∉ used
  | [], _ => ⟨List.nodup_nil, fun _ h => by cases h⟩
  | name :: names, used => by
    rw [distinctFrom]
    generalize hc : (if used.contains name then freeName (used ++ given) name else name) = chosen
    have hchosen : chosen ∉ used := by
      rw [← hc]
      split
      · obtain ⟨n, -, -, he, hn, -⟩ := freeName_eq (used ++ given) name
        exact he ▸ fun h => hn (List.mem_append_left _ h)
      · rename_i h
        simpa using h
    have ⟨hnodup, hfresh⟩ := @distinctFrom_fresh given names (chosen :: used)
    refine ⟨List.nodup_cons.mpr ⟨fun h => hfresh _ h (List.mem_cons_self ..), hnodup⟩, ?_⟩
    exact List.forall_mem_cons.mpr ⟨hchosen, fun r hr h => hfresh r hr (List.mem_cons_of_mem _ h)⟩

/-- A chosen name is a given one, or such a name with a number that is no larger than all names need. -/
theorem mem_distinctFrom {given : List String} {r : String} : ∀ {names used : List String},
    r ∈ distinctFrom given used names →
      ∃ name ∈ names, r = name ∨ ∃ n < used.length + given.length + names.length + 2, r = numbered name n
  | [], _, h => by cases h
  | name :: names, used, h => by
    rw [distinctFrom] at h
    rcases List.mem_cons.mp h with rfl | h
    · refine ⟨name, List.mem_cons_self .., ?_⟩
      split
      · obtain ⟨n, -, hn, he, -⟩ := freeName_eq (used ++ given) name
        rw [List.length_append] at hn
        refine .inr ⟨n, ?_, he⟩
        rw [List.length_cons]
        omega
      · exact .inl rfl
    · obtain ⟨name', hmem, hr⟩ := mem_distinctFrom h
      refine ⟨name', List.mem_cons_of_mem _ hmem, hr.imp_right fun ⟨n, hn, he⟩ => ⟨n, ?_, he⟩⟩
      rw [List.length_cons] at hn ⊢
      omega

theorem distinct_nodup (names : List String) : (distinct names).Nodup := distinctFrom_fresh.1

example : distinct ["a", "a_2", "a"] = ["a", "a_2", "a_3"] := by decide +kernel

theorem distinct_valid {names : List String} (hmany : names.length < 10 ^ 60)
    (h : ∀ name ∈ names, ValidToolName name) : ∀ name ∈ distinct names, ValidToolName name := by
  intro r hr
  obtain ⟨name, hmem, rfl | ⟨n, hn, rfl⟩⟩ := mem_distinctFrom hr
  · exact h r hmem
  · refine numbered_valid (h name hmem) ?_
    rw [List.length_nil] at hn
    omega

end ToolServer.Naming
