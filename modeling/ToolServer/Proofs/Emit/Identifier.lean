import ToolServer.Emit.Identifier
import ToolServer.Proofs.Naming.Distinct

/-!
# Free identifiers

An identifier is a name or has an underscore in it, and so is one that had to give way to a taken one. A word without
underscores is therefore chosen for the name that it is, and only where it is free.
-/

namespace ToolServer.Emit

open Decimal Text

/-! ## One identifier -/

theorem map_eq_self_of_no_mark {keep : Char → Bool} {mark : Char} : ∀ {s : List Char},
    mark ∉ s.map (fun c => if keep c then c else mark) → s.map (fun c => if keep c then c else mark) = s
  | [], _ => rfl
  | c :: s, h => by
    rw [List.map_cons, List.mem_cons, not_or] at h
    obtain ⟨hc, hs⟩ := h
    have hkeep : keep c = true := by
      by_contra hkeep
      simp [hkeep] at hc
    rw [List.map_cons, map_eq_self_of_no_mark hs, if_pos hkeep]

theorem identifier_eq_self {name : String} (h : '_' ∉ (identifier name).toList) : identifier name = name := by
  have hmap : '_' ∉ name.toList.map (fun c => if isIdentifierChar c then c else '_') →
      name.toList.map (fun c => if isIdentifierChar c then c else '_') = name.toList := map_eq_self_of_no_mark
  unfold identifier at h ⊢
  generalize name.toList.map (fun c => if isIdentifierChar c then c else '_') = cs at h hmap ⊢
  cases cs with
  | nil => exact absurd h (by decide)
  | cons c rest =>
    simp only at h ⊢
    by_cases hkeyword : keywords.contains
        (String.ofList (if isAsciiDigit c then 'p' :: '_' :: c :: rest else c :: rest)) = true
    · rw [if_pos hkeyword, String.toList_append] at h
      exact absurd (List.mem_append_right _ (by decide)) h
    · rw [if_neg hkeyword] at h ⊢
      rw [String.toList_ofList] at h
      by_cases hdigit : isAsciiDigit c = true
      · rw [if_pos hdigit] at h
        exact absurd (by simp) h
      · rw [if_neg hdigit] at h ⊢
        rw [hmap h, String.ofList_toList]

theorem free_form_injective (base : String) : Function.Injective fun i => base ++ "_" ++ natText (i + 2) := by
  intro i j h
  have h := congrArg String.toList h
  simp only [String.toList_append, natText, String.toList_ofList] at h
  exact Nat.add_right_cancel (digits_injective (List.append_cancel_left h))

theorem exists_freeIdentifier (taken : List String) (base : String) :
    freeIdentifier taken base ∉ taken ∧
      (freeIdentifier taken base = base ∨ ∃ rest, freeIdentifier taken base = base ++ "_" ++ rest) := by
  obtain ⟨i, hi, hfree⟩ := Naming.exists_form_free (free_form_injective base) taken
  unfold freeIdentifier
  simp only
  generalize hforms : base :: (base ++ "_") ::
    (List.range (taken.length + 1)).map (fun i => base ++ "_" ++ natText (i + 2)) = forms
  have hform : ∀ r ∈ forms, r = base ∨ ∃ rest, r = base ++ "_" ++ rest := by
    rw [← hforms]
    refine List.forall_mem_cons.mpr ⟨.inl rfl, List.forall_mem_cons.mpr ⟨.inr ⟨"", by simp⟩, ?_⟩⟩
    exact List.forall_mem_map.mpr fun i _ => .inr ⟨_, rfl⟩
  have hmem : base ++ "_" ++ natText (i + 2) ∈ forms := by
    rw [← hforms]
    exact List.mem_cons_of_mem _ (List.mem_cons_of_mem _
      (List.mem_map_of_mem (f := fun i => base ++ "_" ++ natText (i + 2)) (List.mem_range.mpr hi)))
  cases hfind : forms.find? (!taken.contains ·) with
  | none => simpa [hfree] using List.find?_eq_none.mp hfind _ hmem
  | some r =>
    have hr : r ∉ taken := by simpa using List.find?_some hfind
    exact ⟨hr, hform r (List.mem_of_find?_eq_some hfind)⟩

theorem freeIdentifier_of_not_mem {taken : List String} {base : String} (h : base ∉ taken) :
    freeIdentifier taken base = base := by
  simp [freeIdentifier, h]

theorem freeIdentifier_eq_self {taken : List String} {base : String}
    (h : '_' ∉ (freeIdentifier taken base).toList) : freeIdentifier taken base = base := by
  rcases (exists_freeIdentifier taken base).2 with heq | ⟨rest, heq⟩
  · exact heq
  · rw [heq] at h
    simp at h

/-- A word without underscores is chosen for itself alone, and where it is free. -/
theorem freeIdentifier_eq_word_iff {taken : List String} {name word : String} (hword : '_' ∉ word.toList)
    (hself : identifier word = word) : freeIdentifier taken (identifier name) = word ↔ name = word ∧ word ∉ taken := by
  constructor
  · intro h
    have hbase : freeIdentifier taken (identifier name) = identifier name := freeIdentifier_eq_self (h ▸ hword)
    have hname : identifier name = name := identifier_eq_self (hbase ▸ h ▸ hword)
    exact ⟨hname.symm.trans (hbase.symm.trans h), h ▸ (exists_freeIdentifier taken (identifier name)).1⟩
  · rintro ⟨rfl, hfree⟩
    rw [hself, freeIdentifier_of_not_mem hfree]

/-! ## The identifiers of names -/

theorem names_identifiersFrom : ∀ (names taken : List String), (identifiersFrom taken names).map (·.1) = names
  | [], _ => rfl
  | name :: rest, taken => by
    rw [identifiersFrom, List.map_cons, names_identifiersFrom rest]

theorem identifiersFrom_free : ∀ {names taken : List String}, ∀ e ∈ identifiersFrom taken names, e.2 ∉ taken
  | [], _, e, he => by cases he
  | name :: names, taken, e, he => by
    rw [identifiersFrom] at he
    rcases List.mem_cons.mp he with rfl | he
    · exact (exists_freeIdentifier taken (identifier name)).1
    · exact fun hmem => identifiersFrom_free e he (List.mem_cons_of_mem _ hmem)

theorem identifierOf_eq_none_iff {names taken : List String} {word : String} :
    (identifiersFrom taken names).findRev? (·.1 == word) = none ↔ word ∉ names := by
  have hkeys : word ∈ names ↔ ∃ e ∈ identifiersFrom taken names, e.1 = word := by
    rw [← List.mem_map, names_identifiersFrom]
  rw [List.findRev?_eq_find?_reverse, List.find?_eq_none, hkeys, not_exists]
  simp only [List.mem_reverse, beq_iff_eq, not_and]

theorem mem_of_identifierOf {names taken : List String} {word : String} {e : String × String}
    (h : (identifiersFrom taken names).findRev? (·.1 == word) = some e) :
    e ∈ identifiersFrom taken names ∧ e.1 = word := by
  rw [List.findRev?_eq_find?_reverse] at h
  exact ⟨List.mem_reverse.mp (List.mem_of_find?_eq_some h), by simpa using List.find?_some h⟩

section
variable {word : String} (hword : '_' ∉ word.toList) (hself : identifier word = word)
include hword hself

theorem eq_word_of_mem_identifiersFrom : ∀ {names taken : List String} {name : String},
    (name, word) ∈ identifiersFrom taken names → name = word
  | [], _, _, h => by cases h
  | first :: names, taken, name, h => by
    rw [identifiersFrom] at h
    rcases List.mem_cons.mp h with h | h
    · obtain ⟨rfl, hchosen⟩ := Prod.mk.inj h
      exact ((freeIdentifier_eq_word_iff hword hself).mp hchosen.symm).1
    · exact eq_word_of_mem_identifiersFrom h

/-- The last identifier of a word is the word just when it is the only one: an earlier one has taken it. -/
theorem identifierOf_eq_word_iff : ∀ {names taken : List String}, word ∉ taken →
    (((identifiersFrom taken names).findRev? (·.1 == word)).map (·.2) = some word ↔ names.count word = 1)
  | [], _, _ => by simp [identifiersFrom]
  | name :: names, taken, hfree => by
    rw [identifiersFrom, List.findRev?]
    by_cases hname : name = word
    · subst hname
      rw [(freeIdentifier_eq_word_iff hword hself).mpr ⟨rfl, hfree⟩, List.count_cons_self]
      cases hlast : (identifiersFrom (name :: taken) names).findRev? (·.1 == name) with
      | none => simp [List.count_eq_zero.mpr (identifierOf_eq_none_iff.mp hlast)]
      | some e =>
        have hne : e.2 ≠ name := fun h =>
          identifiersFrom_free e (mem_of_identifierOf hlast).1 (h ▸ List.mem_cons_self ..)
        have hmem : name ∈ names := by
          by_contra hnot
          rw [identifierOf_eq_none_iff.mpr hnot] at hlast
          cases hlast
        have hpos : 0 < names.count name := List.count_pos_iff.mpr hmem
        simp only [Option.map_some, Option.some.injEq, hne, false_iff]
        omega
    · have hchosen : word ∉ freeIdentifier taken (identifier name) :: taken := by
        intro hmem
        rcases List.mem_cons.mp hmem with h | h
        · exact hname ((freeIdentifier_eq_word_iff hword hself).mp h.symm).1
        · exact hfree h
      rw [List.count_cons_of_ne hname, ← identifierOf_eq_word_iff hchosen]
      cases (identifiersFrom (freeIdentifier taken (identifier name) :: taken) names).findRev? (·.1 == word) with
      | none => simp [hname]
      | some e => rfl

end

end ToolServer.Emit
