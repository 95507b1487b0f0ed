import ToolServer.Naming
import ToolServer.Proofs.Text.Class
import ToolServer.Proofs.Text.Piece

/-!
# Prefixes

A prefix is made of small letters, digits and underscores. As it may hold the underscore that joins it to a
name, two prefixed names can be equal though the prefixes differ: `append_join_eq_iff` says when.
-/

namespace ToolServer.Naming

open Text

/-! ## Joined names -/

theorem append_cons_eq_iff {α : Type} {mark : α} {a b s t : List α} : a ++ mark :: s = b ++ mark :: t ↔
    a = b ∧ s = t ∨ (∃ e, b = a ++ mark :: e ∧ s = e ++ mark :: t) ∨
      ∃ e, a = b ++ mark :: e ∧ t = e ++ mark :: s := by
  constructor
  · intro h
    rcases List.append_eq_append_iff.mp h with ⟨d, hb, hs⟩ | ⟨d, ha, ht⟩
    · cases d with
      | nil => exact .inl ⟨by simpa using hb.symm, (List.cons.inj hs).2⟩
      | cons c d =>
        obtain ⟨hc, hs⟩ := List.cons.inj hs
        exact .inr (.inl ⟨d, hc ▸ hb, hs⟩)
    · cases d with
      | nil => exact .inl ⟨by simpa using ha, (List.cons.inj ht).2.symm⟩
      | cons c d =>
        obtain ⟨hc, ht⟩ := List.cons.inj ht
        exact .inr (.inr ⟨d, hc ▸ ha, ht⟩)
  · rintro (⟨rfl, rfl⟩ | ⟨e, rfl, rfl⟩ | ⟨e, rfl, rfl⟩)
    · rfl
    · simp
    · simp

/-- Joined texts are equal if their parts are, or if one first part goes on as the other second part begins. -/
theorem append_join_eq_iff {p q m n : String} : p ++ "_" ++ m = q ++ "_" ++ n ↔
    p = q ∧ m = n ∨ (∃ e, q = p ++ "_" ++ e ∧ m = e ++ "_" ++ n) ∨ ∃ e, p = q ++ "_" ++ e ∧ n = e ++ "_" ++ m := by
  have hlist : ∀ {a b : String}, a.toList ++ '_' :: b.toList = (a ++ "_" ++ b).toList := by simp
  have hexists : ∀ {a b c d : String},
      (∃ e, b.toList = a.toList ++ '_' :: e ∧ c.toList = e ++ '_' :: d.toList) ↔
        ∃ e, b = a ++ "_" ++ e ∧ c = e ++ "_" ++ d := by
    intro a b c d
    constructor
    · rintro ⟨e, hb, hc⟩
      refine ⟨String.ofList e, String.toList_inj.mp ?_, String.toList_inj.mp ?_⟩
      · simpa using hb
      · simpa using hc
    · rintro ⟨e, rfl, rfl⟩
      exact ⟨e.toList, hlist.symm, hlist.symm⟩
  rw [← String.toList_inj, ← hlist, ← hlist, append_cons_eq_iff, hexists, hexists, String.toList_inj,
    String.toList_inj]

theorem ne_join (p e : String) : p ≠ p ++ "_" ++ e := by
  intro h
  have hlength := congrArg (fun s => s.toList.length) h
  simp at hlength

/-! ## Characters of prefixes -/

def isPrefixChar (c : Char) : Bool := isSlugChar c || c == '_'

theorem isPrefixChar_of_mem_prefixOf {name : String} : ∀ c ∈ (prefixOf name).toList, isPrefixChar c = true := by
  unfold prefixOf
  simp only
  split
  · exact List.all_eq_true.mp (by decide)
  · intro c hc
    rw [String.toList_ofList] at hc
    have hc := mem_collapse (mem_stripWhile (List.mem_of_mem_take hc))
    simpa [isPrefixChar] using hc

theorem prefixOf_ne_empty (name : String) : prefixOf name ≠ "" := by
  unfold prefixOf
  simp only
  split
  · decide
  · rename_i h
    intro hnil
    exact h (List.isEmpty_iff.mpr (String.ofList_eq_empty_iff.mp hnil))

/-! ## Prefixes of variables -/

def capital (c : Char) : Char := if isAsciiLower c then Char.ofNat (c.toNat - 32) else c

def small (c : Char) : Char := if isAsciiUpper c then Char.ofNat (c.toNat + 32) else c

theorem lowerAfter_ascii : ∀ (before cs : List Char), (∀ c ∈ cs, c.toNat < 0x80) → lowerAfter before cs = cs.map small
  | _, [], _ => rfl
  | before, c :: cs, h => by
    obtain ⟨hc, hcs⟩ := List.forall_mem_cons.mp h
    have hne : c ≠ 'Σ' := fun e => by rw [e] at hc; exact absurd hc (by decide)
    rw [lowerAfter, if_neg hne, lowerChar, if_pos hc, lowerAfter_ascii _ cs hcs]
    rfl

theorem isPrefixChar_iff {c : Char} : isPrefixChar c = true ↔
    97 ≤ c.toNat ∧ c.toNat ≤ 122 ∨ 48 ≤ c.toNat ∧ c.toNat ≤ 57 ∨ c.toNat = 95 := by
  have hmark : c = '_' ↔ c.toNat = 95 := ⟨fun h => h ▸ rfl, fun h => Char.toNat_inj.mp h⟩
  simp only [isPrefixChar, isSlugChar, Bool.or_eq_true, isAsciiLower_iff, isAsciiDigit_iff, beq_iff_eq, hmark,
    or_assoc]

theorem small_capital {c : Char} (h : isPrefixChar c = true) : small (capital c) = c := by
  have h := isPrefixChar_iff.mp h
  unfold small capital
  by_cases hl : isAsciiLower c = true
  · have hc := isAsciiLower_iff.mp hl
    have hn : (Char.ofNat (c.toNat - 32)).toNat = c.toNat - 32 := toNat_ofNat_of_lt (by omega)
    have hu : isAsciiUpper (Char.ofNat (c.toNat - 32)) = true := isAsciiUpper_iff.mpr (by omega)
    rw [if_pos hl, if_pos hu, hn, Nat.sub_add_cancel (by omega), Char.ofNat_toNat]
  · have hu : ¬ isAsciiUpper c = true := fun hu => by
      have := isAsciiUpper_iff.mp hu
      omega
    rw [if_neg hl, if_neg hu]

theorem upperChar_eq {c : Char} (h : isPrefixChar c = true) : upperChar c = [capital c] := by
  have h := isPrefixChar_iff.mp h
  rw [upperChar, if_pos (by omega), capital]

theorem toList_upper {s : String} (h : ∀ c ∈ s.toList, isPrefixChar c = true) :
    (upper s).toList = s.toList.map capital := by
  rw [upper, String.toList_ofList, List.map_eq_flatMap]
  exact List.flatMap_congr fun c hc => upperChar_eq (h c hc)

theorem map_small_capital {s : List Char} (h : ∀ c ∈ s, isPrefixChar c = true) : (s.map capital).map small = s := by
  rw [List.map_map]
  exact (List.map_congr_left fun c hc => small_capital (h c hc)).trans (List.map_id s)

theorem upper_append (s t : String) : upper (s ++ t) = upper s ++ upper t := by
  simp [upper]

/-- What goes on from a prefix in capitals goes on from the prefix. -/
theorem upper_eq_append_iff {p q t : String} (hp : ∀ c ∈ p.toList, isPrefixChar c = true)
    (hq : ∀ c ∈ q.toList, isPrefixChar c = true) : upper q = upper p ++ t ↔ ∃ e, q = p ++ e ∧ t = upper e := by
  constructor
  · intro h
    have hcapitals : q.toList.map capital = p.toList.map capital ++ t.toList := by
      rw [← toList_upper hp, ← toList_upper hq, h, String.toList_append]
    have hsmall : q.toList = p.toList ++ t.toList.map small := by
      rw [← map_small_capital hq, hcapitals, List.map_append, map_small_capital hp]
    have he : ∀ c ∈ (String.ofList (t.toList.map small)).toList, isPrefixChar c = true := by
      intro c hc
      rw [String.toList_ofList] at hc
      exact hq c (hsmall ▸ List.mem_append_right _ hc)
    refine ⟨String.ofList (t.toList.map small), String.toList_inj.mp (by simpa using hsmall), ?_⟩
    rw [← String.toList_inj, toList_upper he, String.toList_ofList]
    rw [hsmall, List.map_append] at hcapitals
    exact (List.append_cancel_left hcapitals).symm
  · rintro ⟨e, rfl, rfl⟩
    exact upper_append p e

theorem upper_eq_join_iff {p q t : String} (hp : ∀ c ∈ p.toList, isPrefixChar c = true)
    (hq : ∀ c ∈ q.toList, isPrefixChar c = true) :
    upper q = upper p ++ "_" ++ t ↔ ∃ e, q = p ++ "_" ++ e ∧ t = upper e := by
  have hmark : upper (p ++ "_") = upper p ++ "_" := upper_append p "_"
  rw [← hmark]
  refine upper_eq_append_iff (fun c hc => ?_) hq
  rw [String.toList_append] at hc
  rcases List.mem_append.mp hc with hc | hc
  · exact hp c hc
  · obtain rfl := List.mem_singleton.mp hc
    decide

theorem upper_injective {p q : String} (hp : ∀ c ∈ p.toList, isPrefixChar c = true)
    (hq : ∀ c ∈ q.toList, isPrefixChar c = true) (h : upper p = upper q) : p = q := by
  have h : p.toList.map capital = q.toList.map capital := by
    rw [← toList_upper hp, ← toList_upper hq, h]
  rw [← String.toList_inj, ← map_small_capital hp, ← map_small_capital hq, h]

end ToolServer.Naming
