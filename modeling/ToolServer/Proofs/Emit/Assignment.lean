import ToolServer.Program.Lexer
import ToolServer.Proofs.Emit.Identifier
import ToolServer.Proofs.Ordered

/-!
# The identifiers of names

Names get identifiers one after the other, each by a search for the first free form of its own one. Every search
comes to an end, for the forms that are numbered differ. What it ends with is free and no word that the language
keeps for itself: no such word has an underscore behind another character. So names have identifiers of their own:
`identifiers_distinct`.
-/

namespace ToolServer.Emit

open Decimal Text

/-! ## Identifiers -/

/-- An identifier in ASCII that the language does not keep for itself. -/
structure IsIdentifier (word : String) : Prop where
  ascii : ∀ c ∈ word.toList, c.toNat < 0x80
  name : Program.isName word.toList = true
  keyword : word ∉ Program.keywords
  softKeyword : word ∉ Program.softKeywords

def isPlain : List Char → Bool
  | [] => false
  | c :: cs => !isAsciiDigit c && (c :: cs).all isIdentifierChar

theorem toNat_of_isIdentifierChar {c : Char} (h : isIdentifierChar c = true) : c.toNat < 0x80 := by
  simp only [isIdentifierChar, isAsciiLetter, Bool.or_eq_true, isAsciiLower_iff, isAsciiUpper_iff, isAsciiDigit_iff,
    beq_iff_eq] at h
  rcases h with ((h | h) | h) | rfl
  · omega
  · omega
  · omega
  · decide

theorem isNamePart_of_isIdentifierChar {c : Char} (h : isIdentifierChar c = true) : Program.isNamePart c = true := by
  have hascii := toNat_of_isIdentifierChar h
  simp only [Program.isNamePart, Program.isNameStart, if_pos hascii]
  simp only [isIdentifierChar] at h
  grind

theorem isName_of_isPlain : ∀ {cs : List Char}, isPlain cs = true → Program.isName cs = true
  | [], h => by cases h
  | c :: cs, h => by
    simp only [isPlain, List.all_cons, Bool.and_eq_true, Bool.not_eq_true'] at h
    obtain ⟨hdigit, hc, hcs⟩ := h
    have hstart : Program.isNameStart c = true := by
      rw [Program.isNameStart, if_pos (toNat_of_isIdentifierChar hc)]
      simpa [isIdentifierChar, hdigit] using hc
    have hrest : ∀ d ∈ cs, Program.isNamePart d = true := fun d hd =>
      isNamePart_of_isIdentifierChar (List.all_eq_true.mp hcs d hd)
    exact Bool.and_eq_true_iff.mpr ⟨hstart, List.all_eq_true.mpr hrest⟩

theorem isIdentifierChar_of_isPlain : ∀ {cs : List Char}, isPlain cs = true → ∀ c ∈ cs, isIdentifierChar c = true
  | [], h => by cases h
  | _ :: _, h => List.all_eq_true.mp (Bool.and_eq_true_iff.mp h).2

theorem isIdentifier_of_isPlain {word : String} (h : isPlain word.toList = true) (hkeyword : word ∉ keywords) :
    IsIdentifier word where
  ascii c hc := toNat_of_isIdentifierChar (isIdentifierChar_of_isPlain h c hc)
  name := isName_of_isPlain h
  keyword hmem := hkeyword (List.mem_append_left _ hmem)
  softKeyword hmem := hkeyword (List.mem_append_right _ hmem)

theorem isPlain_append : ∀ {cs ds : List Char}, isPlain cs = true → (∀ d ∈ ds, isIdentifierChar d = true) →
    isPlain (cs ++ ds) = true
  | [], _, h, _ => by cases h
  | c :: cs, ds, h, hds => by
    obtain ⟨hdigit, hcs⟩ := Bool.and_eq_true_iff.mp h
    rw [List.cons_append, isPlain, ← List.cons_append, List.all_append, hdigit, hcs, List.all_eq_true.mpr hds]
    rfl

/-- With an underscore behind it an identifier is no keyword, whatever follows. -/
theorem isIdentifier_underscore {base : String} (h : isPlain base.toList = true) (rest : String)
    (hrest : ∀ c ∈ rest.toList, isIdentifierChar c = true) : IsIdentifier (base ++ "_" ++ rest) := by
  have hkeywords : ∀ word ∈ keywords, '_' ∈ word.toList → word.toList.length = 1 := by decide
  have htext : (base ++ "_" ++ rest).toList = base.toList ++ '_' :: rest.toList := by simp
  refine isIdentifier_of_isPlain ?_ fun hmem => ?_
  · rw [htext]
    exact isPlain_append h (List.forall_mem_cons.mpr ⟨by decide, hrest⟩)
  · -- the one keyword with an underscore has nothing before it
    have hlength := hkeywords _ hmem (by simp [htext])
    cases hbase : base.toList with
    | nil =>
      rw [hbase] at h
      cases h
    | cons c cs =>
      rw [htext, hbase] at hlength
      simp at hlength

theorem isIdentifier_mark {base : String} (h : isPlain base.toList = true) : IsIdentifier (base ++ "_") := by
  simpa using isIdentifier_underscore h "" (List.forall_mem_nil _)

theorem isIdentifier_ite {word : String} (h : isPlain word.toList = true) :
    isPlain (if keywords.contains word then word ++ "_" else word).toList = true ∧
      IsIdentifier (if keywords.contains word then word ++ "_" else word) := by
  split
  · rw [String.toList_append]
    exact ⟨isPlain_append h (List.all_eq_true.mp rfl), isIdentifier_mark h⟩
  · rename_i hkeyword
    exact ⟨h, isIdentifier_of_isPlain h (by simpa using hkeyword)⟩

theorem isIdentifier_identifier (name : String) :
    isPlain (identifier name).toList = true ∧ IsIdentifier (identifier name) := by
  have hchars : ∀ c ∈ name.toList.map (fun c => if isIdentifierChar c then c else '_'), isIdentifierChar c = true := by
    refine List.forall_mem_map.mpr fun c _ => ?_
    split
    · assumption
    · decide
  unfold identifier
  generalize name.toList.map (fun c => if isIdentifierChar c then c else '_') = cs at hchars
  have hfront : isPlain ['p', '_'] = true := by decide
  cases cs with
  | nil =>
    have hempty : isPlain "p_".toList = true := by decide
    exact isIdentifier_ite hempty
  | cons c rest =>
    refine isIdentifier_ite ?_
    rw [String.toList_ofList]
    by_cases hdigit : isAsciiDigit c = true
    · rw [if_pos hdigit]
      exact isPlain_append hfront hchars
    · rw [if_neg hdigit, isPlain, List.all_eq_true.mpr hchars]
      simpa using hdigit

/-! ## One search -/

def firstForm (taken : List String) (base : String) : String := if base ∈ taken then base ++ "_" else base

/-- A search that tries a word, and goes on with a number if the word is taken, ends with a free one. -/
inductive Search (taken : List String) (base : String) : String → Nat → String → Prop
  | free {word n} : word ∉ taken → Search taken base word n word
  | next {word n r} : word ∈ taken → Search taken base (base ++ "_" ++ natText n) (n + 1) r →
      Search taken base word n r

section
variable {taken : List String} {base : String}

theorem Search.unique {word r r' : String} {n : Nat} (h : Search taken base word n r)
    (h' : Search taken base word n r') : r = r' := by
  induction h with
  | free hfree =>
    cases h' with
    | free _ => rfl
    | next htaken _ => exact absurd htaken hfree
  | next htaken _ ih =>
    cases h' with
    | free hfree => exact absurd htaken hfree
    | next _ h' => exact ih h'

theorem Search.form {word r : String} {n : Nat} (h : Search taken base word n r) :
    r = word ∨ ∃ m, r = base ++ "_" ++ natText m := by
  induction h with
  | free _ => exact .inl rfl
  | next _ _ ih => exact .inr (ih.elim (fun h => ⟨_, h⟩) id)

/-- A search that finds every form taken goes on to the first number that makes one free. -/
theorem search_of_least {m : Nat} (hfree : base ++ "_" ++ natText m ∉ taken) : ∀ {d n : Nat} {word : String},
    n + d = m → word ∈ taken → (∀ i, n ≤ i → i < m → base ++ "_" ++ natText i ∈ taken) →
    Search taken base word n (base ++ "_" ++ natText m)
  | 0, n, word, hm, hword, _ => by
    obtain rfl : n = m := hm
    exact .next hword (.free hfree)
  | d + 1, n, word, hm, hword, htaken => by
    have hn : base ++ "_" ++ natText n ∈ taken := htaken n (Nat.le_refl n) (by omega)
    exact .next hword (search_of_least (d := d) hfree (by omega) hn fun i hi => htaken i (by omega))

/-- Where an identifier and the one with an underscore are taken, the first free number counts. -/
theorem freeIdentifier_numbered (hbase : base ∈ taken) (hmark : base ++ "_" ∈ taken) :
    ∃ m, 2 ≤ m ∧ freeIdentifier taken base = base ++ "_" ++ natText m ∧ base ++ "_" ++ natText m ∉ taken ∧
      ∀ i, 2 ≤ i → i < m → base ++ "_" ++ natText i ∈ taken := by
  unfold freeIdentifier
  dsimp only
  rw [List.find?_cons_of_neg (by simpa using hbase), List.find?_cons_of_neg (by simpa using hmark), List.find?_map]
  cases h : (List.range (taken.length + 1)).find?
      ((!taken.contains ·) ∘ fun i => base ++ "_" ++ natText (i + 2)) with
  | none =>
    obtain ⟨i, hi, hfree⟩ := Naming.exists_form_free (free_form_injective base) taken
    simpa [hfree] using List.find?_range_eq_none.mp h i hi
  | some m =>
    obtain ⟨hfree, -, hleast⟩ := List.find?_range_eq_some.mp h
    refine ⟨m + 2, Nat.le_add_left 2 m, rfl, by simpa using hfree, fun i hi him => ?_⟩
    obtain ⟨j, rfl⟩ := Nat.exists_eq_add_of_le' hi
    simpa using hleast j (by omega)

theorem search_freeIdentifier (taken : List String) (base : String) :
    Search taken base (firstForm taken base) 2 (freeIdentifier taken base) := by
  unfold firstForm
  by_cases hbase : base ∈ taken
  · rw [if_pos hbase]
    by_cases hmark : base ++ "_" ∈ taken
    · obtain ⟨m, hm, heq, hfree, htaken⟩ := freeIdentifier_numbered hbase hmark
      rw [heq]
      exact search_of_least hfree (Nat.add_sub_cancel' hm) hmark htaken
    · have heq : freeIdentifier taken base = base ++ "_" := by simp [freeIdentifier, hbase, hmark]
      rw [heq]
      exact .free hmark
  · rw [if_neg hbase, freeIdentifier_of_not_mem hbase]
    exact .free hbase

theorem isIdentifier_of_search {name r : String}
    (h : Search taken (identifier name) (firstForm taken (identifier name)) 2 r) : IsIdentifier r := by
  obtain ⟨hplain, hself⟩ := isIdentifier_identifier name
  rcases h.form with rfl | ⟨m, rfl⟩
  · unfold firstForm
    split
    · exact isIdentifier_mark hplain
    · exact hself
  · refine isIdentifier_underscore hplain _ fun c hc => ?_
    have hdigit := isAsciiDigit_of_mem_digits c (by simpa [natText] using hc)
    simp [isIdentifierChar, hdigit]

end

/-! ## All names -/

/-- The names that were gone through and what was chosen for them. -/
inductive Assigns : List String → List String → List (String × String) → Prop
  | nil {taken} : Assigns taken [] []
  | cons {taken name names r pairs} : Search taken (identifier name) (firstForm taken (identifier name)) 2 r →
      Assigns (r :: taken) names pairs → Assigns taken (name :: names) ((name, r) :: pairs)

/-- Every run comes to an end, and there is one end alone. -/
theorem assigns_iff : ∀ {names taken : List String} {pairs : List (String × String)},
    Assigns taken names pairs ↔ pairs = identifiersFrom taken names
  | [], taken, pairs => by
    constructor
    · intro h
      cases h
      rfl
    · rintro rfl
      exact .nil
  | name :: names, taken, pairs => by
    have hsearch := search_freeIdentifier taken (identifier name)
    constructor
    · intro h
      cases h with
      | cons hr hrest =>
        obtain rfl := hr.unique hsearch
        rw [assigns_iff.mp hrest, identifiersFrom]
    · rintro rfl
      exact .cons hsearch (assigns_iff.mpr rfl)

theorem Assigns.isIdentifier {names taken : List String} {pairs : List (String × String)}
    (h : Assigns taken names pairs) : ∀ e ∈ pairs, IsIdentifier e.2 := by
  induction h with
  | nil => exact List.forall_mem_nil _
  | cons hr _ ih => exact List.forall_mem_cons.mpr ⟨isIdentifier_of_search hr, ih⟩

theorem identifiersFrom_nodup : ∀ (names taken : List String), ((identifiersFrom taken names).map (·.2)).Nodup
  | [], _ => List.nodup_nil
  | name :: names, taken => by
    rw [identifiersFrom, List.map_cons]
    refine List.nodup_cons.mpr ⟨fun hmem => ?_, identifiersFrom_nodup names _⟩
    obtain ⟨e, he, heq⟩ := List.mem_map.mp hmem
    exact identifiersFrom_free e he (heq ▸ List.mem_cons_self ..)

def identifierTable (reserved names : List String) : List (String × String) :=
  Ordered.ofPairs (identifiersFrom reserved names)

theorem mem_of_get?_identifierTable {reserved names : List String} {name word : String}
    (h : Ordered.get? name (identifierTable reserved names) = some word) :
    (name, word) ∈ identifiersFrom reserved names := by
  rw [identifierTable, Ordered.get?_ofPairs] at h
  obtain ⟨e, he, rfl⟩ := Option.map_eq_some_iff.mp h
  obtain ⟨hmem, rfl⟩ := mem_of_identifierOf he
  exact hmem

/-- **Every name has an identifier, and no two names have one in common.** The run over the names comes to an end,
whatever is reserved, and an identifier that it chooses is neither reserved nor kept by the language. -/
theorem identifiers_distinct (reserved names : List String) :
    (∀ pairs, Assigns reserved names pairs ↔ pairs = identifiersFrom reserved names) ∧
    (∀ name, Ordered.contains name (identifierTable reserved names) = true ↔ name ∈ names) ∧
    (∀ name ∈ names, ∃ word, Ordered.get? name (identifierTable reserved names) = some word ∧ word ∉ reserved ∧
      IsIdentifier word) ∧
    ∀ a ∈ names, ∀ b ∈ names, a ≠ b →
      Ordered.get? a (identifierTable reserved names) ≠ Ordered.get? b (identifierTable reserved names) := by
  have hkeys : ∀ name, Ordered.contains name (identifierTable reserved names) = true ↔ name ∈ names := fun name => by
    rw [identifierTable, Ordered.contains_ofPairs, names_identifiersFrom]
  have hsome : ∀ name ∈ names, ∃ word, Ordered.get? name (identifierTable reserved names) = some word :=
    fun name hname => Ordered.contains_iff.mp ((hkeys name).mpr hname)
  refine ⟨fun _ => assigns_iff, hkeys, fun name hname => ?_, fun a ha b hb hne heq => ?_⟩
  · obtain ⟨word, hword⟩ := hsome name hname
    have hmem := mem_of_get?_identifierTable hword
    exact ⟨word, hword, identifiersFrom_free _ hmem, (assigns_iff.mpr rfl).isIdentifier _ hmem⟩
  · obtain ⟨word, hword⟩ := hsome a ha
    have ha' := mem_of_get?_identifierTable hword
    have hb' := mem_of_get?_identifierTable (heq ▸ hword)
    have hpair := List.inj_on_of_nodup_map (identifiersFrom_nodup names reserved) ha' hb' rfl
    exact hne (Prod.mk.inj hpair).1

end ToolServer.Emit
