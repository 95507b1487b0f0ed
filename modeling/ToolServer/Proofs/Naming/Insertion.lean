import ToolServer.Proofs.Naming.Distinct

/-!
# One more name

Names that were made distinct keep their choices when a name comes in that none of them is, wherever it stands:
a search for a free number passes only numbers whose names are taken, and the new name is the end of no search.
-/

namespace ToolServer.Naming

/-- The second list has the members of the first and at most one other. -/
structure OneMore (x : String) (l l' : List String) : Prop where
  kept : ∀ a ∈ l, a ∈ l'
  new : ∀ a ∈ l', a = x ∨ a ∈ l

namespace OneMore

variable {x : String} {l l' m m' : List String}

theorem refl (x : String) (l : List String) : OneMore x l l := ⟨fun _ h => h, fun _ h => .inr h⟩

theorem append (h : OneMore x l l') (hm : OneMore x m m') : OneMore x (l ++ m) (l' ++ m') := by
  constructor
  · intro a ha
    rcases List.mem_append.mp ha with ha | ha
    · exact List.mem_append_left _ (h.kept a ha)
    · exact List.mem_append_right _ (hm.kept a ha)
  · intro a ha
    rcases List.mem_append.mp ha with ha | ha
    · exact (h.new a ha).imp_right (List.mem_append_left _)
    · exact (hm.new a ha).imp_right (List.mem_append_right _)

theorem insert (x : String) (l m : List String) : OneMore x (l ++ m) (l ++ x :: m) := by
  apply append (refl x l)
  constructor
  · intro a ha
    exact List.mem_cons_of_mem _ ha
  · intro a ha
    exact List.mem_cons.mp ha

theorem mem_iff (h : OneMore x l l') {a : String} (hne : a ≠ x) : a ∈ l' ↔ a ∈ l :=
  ⟨fun ha => (h.new a ha).resolve_left hne, h.kept a⟩

/-- A name that is taken in addition changes no free form but the one that is that name. -/
theorem freeName_eq (h : OneMore x l l') {name : String} (hne : freeName l name ≠ x) :
    freeName l' name = freeName l name := by
  obtain ⟨n, hn, -, heq, hfree, hleast⟩ := Naming.freeName_eq l name
  obtain ⟨k, hk, -, heq', hfree', hleast'⟩ := Naming.freeName_eq l' name
  rw [heq] at hne
  rw [heq, heq']
  rcases Nat.lt_trichotomy k n with hkn | hkn | hkn
  · exact absurd (h.kept _ (hleast k hk hkn)) hfree'
  · rw [hkn]
  · exact absurd ((h.mem_iff hne).mp (hleast' n hn hkn)) hfree

theorem distinctFrom_eq {given given' : List String} (h : OneMore x given given') :
    ∀ {names used used' : List String}, OneMore x used used' → x ∉ names → x ∉ distinctFrom given used names →
      distinctFrom given' used' names = distinctFrom given used names
  | [], _, _, _, _, _ => rfl
  | name :: names, used, used', hused, hnames, hx => by
    obtain ⟨hname, hnames⟩ := List.ne_and_not_mem_of_not_mem_cons hnames
    rw [distinctFrom] at hx
    obtain ⟨hchosen, hx⟩ := List.ne_and_not_mem_of_not_mem_cons hx
    have hmem : name ∈ used' ↔ name ∈ used := hused.mem_iff (Ne.symm hname)
    have hsame : (if used'.contains name then freeName (used' ++ given') name else name) =
        if used.contains name then freeName (used ++ given) name else name := by
      simp only [List.contains_iff_mem] at hchosen ⊢
      by_cases hin : name ∈ used
      · rw [if_pos hin] at hchosen
        rw [if_pos hin, if_pos (hmem.mpr hin)]
        exact (hused.append h).freeName_eq (Ne.symm hchosen)
      · rw [if_neg hin, if_neg (mt hmem.mp hin)]
    rw [distinctFrom, distinctFrom, hsame]
    generalize (if used.contains name then freeName (used ++ given) name else name) = chosen at hx ⊢
    have hused : OneMore x (chosen :: used) (chosen :: used') := (refl x [chosen]).append hused
    rw [h.distinctFrom_eq hused hnames hx]

end OneMore

/-! ## Insertion -/

theorem distinctFrom_append {given : List String} : ∀ {as bs used : List String},
    distinctFrom given used (as ++ bs) = distinctFrom given used as ++
      distinctFrom given ((distinctFrom given used as).reverse ++ used) bs
  | [], _, _ => rfl
  | name :: as, bs, used => by
    rw [List.cons_append, distinctFrom, distinctFrom, distinctFrom_append, List.reverse_cons, List.append_assoc]
    rfl

theorem mem_distinctFrom_self {given : List String} {name : String} : ∀ {names used : List String},
    name ∈ names → name ∈ used ∨ name ∈ distinctFrom given used names
  | first :: names, used, h => by
    rw [distinctFrom]
    generalize hc : (if used.contains first then freeName (used ++ given) first else first) = chosen
    rcases List.mem_cons.mp h with hname | hname
    · by_cases hused : name ∈ used
      · exact .inl hused
      · rw [← hname, if_neg (by simpa using hused)] at hc
        exact .inr (hc ▸ List.mem_cons_self ..)
    · rcases @mem_distinctFrom_self given name names (chosen :: used) hname with hmem | hmem
      · rcases List.mem_cons.mp hmem with heq | hused
        · exact .inr (heq ▸ List.mem_cons_self ..)
        · exact .inl hused
      · exact .inr (List.mem_cons_of_mem _ hmem)

/-- **A new name takes its place among the chosen ones and changes no other.** -/
theorem distinct_insert {as bs : List String} {x : String} (h : x ∉ distinct (as ++ bs)) :
    ∃ cs ds, distinct (as ++ bs) = cs ++ ds ∧ cs.length = as.length ∧ distinct (as ++ x :: bs) = cs ++ x :: ds := by
  have hnone : x ∉ as ++ bs := by
    intro hmem
    rcases @mem_distinctFrom_self (as ++ bs) x (as ++ bs) [] hmem with hused | hmem
    · cases hused
    · exact h hmem
  have hgiven := OneMore.insert x as bs
  unfold distinct at h ⊢
  rw [distinctFrom_append, List.mem_append, not_or, List.append_nil] at h
  rw [List.mem_append, not_or] at hnone
  have hbefore : distinctFrom (as ++ x :: bs) [] as = distinctFrom (as ++ bs) [] as :=
    hgiven.distinctFrom_eq (.refl x []) hnone.1 h.1
  refine ⟨_, _, distinctFrom_append, length_distinctFrom, ?_⟩
  rw [distinctFrom_append, hbefore, distinctFrom, List.append_nil]
  generalize distinctFrom (as ++ bs) [] as = chosen at h ⊢
  rw [if_neg (by simpa using h.1)]
  have hused : OneMore x chosen.reverse (x :: chosen.reverse) := OneMore.insert x [] chosen.reverse
  rw [hgiven.distinctFrom_eq hused hnone.2 h.2]

end ToolServer.Naming
