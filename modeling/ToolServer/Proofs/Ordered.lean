import Mathlib.Data.List.Induction
import ToolServer.Ordered

/-!
# Laws of ordered maps

What is found after storing, where the pairs of a map that was put together come from, what becomes of a map
whose values are changed, and what stays of a list when only the first element of each key is stored.
-/

namespace ToolServer.Ordered

section
variable {α β : Type} [BEq α]

/-- Storing brings in one pair, under the key or under an equal one that was there. -/
theorem mem_put {k : α} {v : β} : ∀ {m : List (α × β)} {e : α × β}, e ∈ put k v m →
    e ∈ m ∨ e.2 = v ∧ (e.1 = k ∨ (e.1 == k) = true ∧ ∃ w, (e.1, w) ∈ m)
  | [], e, h => by
    obtain rfl := List.mem_singleton.mp h
    exact .inr ⟨rfl, .inl rfl⟩
  | (j, w) :: m, e, h => by
    unfold put at h
    split at h
    · rename_i hj
      rcases List.mem_cons.mp h with rfl | h
      · exact .inr ⟨rfl, .inr ⟨hj, w, List.mem_cons_self ..⟩⟩
      · exact .inl (List.mem_cons_of_mem _ h)
    · rcases List.mem_cons.mp h with rfl | h
      · exact .inl (List.mem_cons_self ..)
      · rcases mem_put h with h | ⟨hv, h⟩
        · exact .inl (List.mem_cons_of_mem _ h)
        · exact .inr ⟨hv, h.imp_right fun ⟨hk, x, hx⟩ => ⟨hk, x, List.mem_cons_of_mem _ hx⟩⟩

theorem mem_putAll {P : α → Prop} {Q : β → Prop} : ∀ {more m : List (α × β)},
    (∀ e ∈ m, P e.1 ∧ Q e.2) → (∀ e ∈ more, P e.1 ∧ Q e.2) → ∀ e ∈ putAll m more, P e.1 ∧ Q e.2
  | [], _, hm, _ => hm
  | (k, v) :: more, m, hm, hmore => by
    obtain ⟨hk, hv⟩ := hmore _ (List.mem_cons_self ..)
    refine mem_putAll (m := put k v m) (fun e he => ?_)
      fun e he => hmore e (List.mem_cons_of_mem _ he)
    rcases mem_put he with he | ⟨rfl, rfl | ⟨-, w, he⟩⟩
    · exact hm e he
    · exact ⟨hk, hv⟩
    · exact ⟨(hm _ he).1, hv⟩

/-- Where equal keys are one key, putting pairs together brings in no new pair. -/
theorem mem_of_mem_putAll : ∀ {more m : List (α × β)} {e : α × β},
    (∀ e ∈ m, ∀ k, (e.1 == k) = true → e.1 = k) → (∀ e ∈ more, ∀ k, (e.1 == k) = true → e.1 = k) →
      e ∈ putAll m more → e ∈ m ∨ e ∈ more
  | [], _, _, _, _, h => .inl h
  | (k, v) :: more, m, e, hm, hmore, h => by
    have hput : ∀ e ∈ put k v m, e ∈ m ∨ e = (k, v) := fun e he => by
      rcases mem_put he with he | ⟨rfl, rfl | ⟨hk, w, he⟩⟩
      · exact .inl he
      · exact .inr rfl
      · exact .inr (by rw [← hm _ he k hk])
    have hm' : ∀ e ∈ put k v m, ∀ j, (e.1 == j) = true → e.1 = j := fun e he => by
      rcases hput e he with he | rfl
      · exact hm e he
      · exact hmore _ (List.mem_cons_self ..)
    rcases mem_of_mem_putAll hm' (fun e he => hmore e (List.mem_cons_of_mem _ he)) h with h | h
    · rcases hput e h with h | rfl
      · exact .inl h
      · exact .inr (List.mem_cons_self ..)
    · exact .inr (List.mem_cons_of_mem _ h)

theorem mem_of_mem_ofPairs {pairs : List (α × β)} {e : α × β}
    (h : ∀ e ∈ pairs, ∀ k, (e.1 == k) = true → e.1 = k) (he : e ∈ ofPairs pairs) : e ∈ pairs :=
  (mem_of_mem_putAll (fun _ h => by cases h) h he).resolve_left (by simp)

/-- A key keeps its place at the front. -/
theorem putAll_cons : ∀ (more : List (α × β)) (k : α) (v : β) (m : List (α × β)),
    ∃ w n, putAll ((k, v) :: m) more = (k, w) :: n
  | [], _, v, m => ⟨v, m, rfl⟩
  | (j, u) :: more, k, v, m => by
    by_cases hkj : (k == j) = true
    · obtain ⟨w, n, h⟩ := putAll_cons more k u m
      refine ⟨w, n, ?_⟩
      rw [← h]
      exact congrArg (putAll · more) (if_pos hkj)
    · obtain ⟨w, n, h⟩ := putAll_cons more k v (put j u m)
      refine ⟨w, n, ?_⟩
      rw [← h]
      exact congrArg (putAll · more) (if_neg hkj)

end

/-! ## Maps whose values are changed -/

section
variable {α β γ : Type} [BEq α] (g : β → γ)

def mapValues (m : List (α × β)) : List (α × γ) := m.map fun e => (e.1, g e.2)

theorem put_mapValues (k : α) (v : β) (m : List (α × β)) :
    put k (g v) (mapValues g m) = mapValues g (put k v m) := by
  induction m with
  | nil => rfl
  | cons e m ih =>
    obtain ⟨j, w⟩ := e
    unfold mapValues at ih ⊢
    by_cases hj : (j == k) = true
    · simp [put, hj]
    · simp [put, hj, ih]

theorem putAll_mapValues (more m : List (α × β)) :
    putAll (mapValues g m) (mapValues g more) = mapValues g (putAll m more) := by
  induction more generalizing m with
  | nil => rfl
  | cons e more ih =>
    have hput := put_mapValues g e.1 e.2 m
    show putAll (put e.1 (g e.2) (mapValues g m)) (mapValues g more) = mapValues g (putAll (put e.1 e.2 m) more)
    rw [hput, ih]

theorem ofPairs_mapValues (pairs : List (α × β)) : ofPairs (mapValues g pairs) = mapValues g (ofPairs pairs) :=
  putAll_mapValues g pairs []

theorem get?_mapValues (k : α) (m : List (α × β)) : get? k (mapValues g m) = (get? k m).map g := by
  induction m with
  | nil => rfl
  | cons e m ih =>
    unfold mapValues at ih ⊢
    by_cases hj : (e.1 == k) = true
    · simp [get?, hj]
    · simp [get?, hj, ih]

theorem contains_mapValues (k : α) (m : List (α × β)) : contains k (mapValues g m) = contains k m := by
  simp [contains, mapValues, Function.comp_def]

end

/-! ## Distinct keys -/

section
variable {α β : Type} [BEq α]

def Distinct (m : List (α × β)) : Prop := m.Pairwise fun e f => (e.1 == f.1) = false

instance (m : List (α × β)) : Decidable (Distinct m) := inferInstanceAs (Decidable (m.Pairwise _))

theorem distinct_filter {m : List (α × β)} (h : Distinct m) (p : α × β → Bool) : Distinct (m.filter p) :=
  List.Pairwise.filter p h

theorem distinct_iff_keys {m : List (α × β)} : Distinct m ↔ (m.map (·.1)).Pairwise fun j k => (j == k) = false := by
  rw [Distinct, List.pairwise_map]

theorem mem_of_get? {k : α} {v : β} {m : List (α × β)} (h : get? k m = some v) :
    ∃ j, (j == k) = true ∧ (j, v) ∈ m := by
  fun_induction get? k m with
  | case1 => cases h
  | case2 j w m hj => exact ⟨j, hj, by simp_all⟩
  | case3 j w m hj ih =>
    obtain ⟨i, hi, hmem⟩ := ih h
    exact ⟨i, hi, List.mem_cons_of_mem _ hmem⟩

theorem pair_mem_of_get? [LawfulBEq α] {k : α} {v : β} {m : List (α × β)} (h : get? k m = some v) :
    (k, v) ∈ m := by
  obtain ⟨j, hj, hmem⟩ := mem_of_get? h
  exact eq_of_beq hj ▸ hmem

theorem contains_iff {k : α} {m : List (α × β)} : contains k m = true ↔ ∃ v, get? k m = some v := by
  fun_induction get? k m with
  | case1 => simp [contains]
  | case2 j w m hj => simp [contains, hj]
  | case3 j w m hj ih => simpa [contains, hj] using ih

theorem get?_of_mem [PartialEquivBEq α] {j k : α} {v : β} {m : List (α × β)} (hm : Distinct m)
    (h : (j, v) ∈ m) (hj : (j == k) = true) : get? k m = some v := by
  fun_induction get? k m with
  | case1 => cases h
  | case2 i w m hi =>
    rcases List.mem_cons.mp h with h | h
    · rw [(Prod.mk.inj h).2]
    · have hne : (i == j) = false := (List.pairwise_cons.mp hm).1 _ h
      rw [PartialEquivBEq.trans hi (PartialEquivBEq.symm hj)] at hne
      cases hne
  | case3 i w m hi ih =>
    rcases List.mem_cons.mp h with h | h
    · rw [(Prod.mk.inj h).1] at hj
      exact absurd hj hi
    · exact ih (List.pairwise_cons.mp hm).2 h

theorem get?_append (k : α) : ∀ m n : List (α × β), get? k (m ++ n) = (get? k m).or (get? k n)
  | [], _ => rfl
  | (j, w) :: m, n => by
    rw [List.cons_append, get?, get?, get?_append k m n]
    split <;> rfl

theorem get?_put [PartialEquivBEq α] (j k : α) (v : β) : ∀ m : List (α × β),
    get? j (put k v m) = if k == j then some v else get? j m
  | [] => rfl
  | (i, w) :: m => by
    rw [put]
    split
    · rename_i hik
      rw [get?, get?]
      by_cases hkj : (k == j) = true
      · rw [if_pos hkj, if_pos (PartialEquivBEq.trans hik hkj)]
      · have hij : ¬ (i == j) = true := fun h => hkj (PartialEquivBEq.trans (PartialEquivBEq.symm hik) h)
        rw [if_neg hij, if_neg hkj, if_neg hij]
    · rename_i hik
      rw [get?, get?, get?_put j k v m]
      by_cases hij : (i == j) = true
      · have hkj : ¬ (k == j) = true := fun h => hik (PartialEquivBEq.trans hij (PartialEquivBEq.symm h))
        rw [if_pos hij, if_neg hkj, if_pos hij]
      · rw [if_neg hij, if_neg hij]

/-- What is put over a map counts before the map. -/
theorem get?_putAll_of_distinct [PartialEquivBEq α] (k : α) : ∀ {more m : List (α × β)}, Distinct more →
    get? k (putAll m more) = (get? k more).or (get? k m)
  | [], _, _ => rfl
  | (j, v) :: more, m, h => by
    obtain ⟨hj, hmore⟩ := List.pairwise_cons.mp h
    have hput : get? k (putAll (put j v m) more) = (get? k more).or (get? k (put j v m)) :=
      get?_putAll_of_distinct k hmore
    rw [get?_put] at hput
    refine hput.trans ?_
    rw [get?]
    by_cases hjk : (j == k) = true
    · have hnone : get? k more = none := by
        cases hget : get? k more with
        | none => rfl
        | some w =>
          obtain ⟨i, hik, hmem⟩ := mem_of_get? hget
          have hne : (j == i) = false := hj _ hmem
          rw [PartialEquivBEq.trans hjk (PartialEquivBEq.symm hik)] at hne
          cases hne
      rw [hnone, if_pos hjk, if_pos hjk]
      rfl
    · rw [if_neg hjk, if_neg hjk]

/-- A map whose keys are distinct is what its pairs are put together to. -/
theorem ofPairs_of_distinct {pairs : List (α × β)} (h : Distinct pairs) : ofPairs pairs = pairs := by
  have hput : ∀ (k : α) (v : β) (m : List (α × β)), (∀ e ∈ m, (e.1 == k) = false) → put k v m = m ++ [(k, v)] := by
    intro k v m
    induction m with
    | nil => exact fun _ => rfl
    | cons e m ih =>
      intro hm
      obtain ⟨he, hm⟩ := List.forall_mem_cons.mp hm
      rw [put, he, ih hm]
      rfl
  have hall : ∀ more m : List (α × β), Distinct (m ++ more) → putAll m more = m ++ more := by
    intro more
    induction more with
    | nil => exact fun m _ => (List.append_nil m).symm
    | cons e more ih =>
      intro m hm
      have hfree : ∀ f ∈ m, (f.1 == e.1) = false := fun f hf =>
        (List.pairwise_append.mp hm).2.2 f hf e (List.mem_cons_self ..)
      rw [List.append_cons, ← ih (m ++ [e]) (by rwa [← List.append_cons]), ← hput e.1 e.2 m hfree]
      rfl
  exact hall pairs [] h

theorem distinct_put [PartialEquivBEq α] (k : α) (v : β) : ∀ {m : List (α × β)}, Distinct m → Distinct (put k v m)
  | [], _ => List.pairwise_singleton ..
  | (j, w) :: m, hm => by
    obtain ⟨hj, hm⟩ := List.pairwise_cons.mp hm
    unfold put
    split
    · exact List.pairwise_cons.mpr ⟨hj, hm⟩
    · rename_i hjk
      refine List.pairwise_cons.mpr ⟨fun e he => ?_, distinct_put k v hm⟩
      rcases mem_put he with he | ⟨-, he | ⟨-, u, he⟩⟩
      · exact hj e he
      · simpa [he] using hjk
      · exact hj (e.1, u) he

theorem distinct_putAll [PartialEquivBEq α] :
    ∀ (more : List (α × β)) {m : List (α × β)}, Distinct m → Distinct (putAll m more)
  | [], _, hm => hm
  | (k, v) :: more, _, hm => distinct_putAll more (distinct_put k v hm)

theorem distinct_ofPairs [PartialEquivBEq α] (pairs : List (α × β)) : Distinct (ofPairs pairs) :=
  distinct_putAll pairs List.Pairwise.nil

end

variable {α β : Type} [BEq α] [LawfulBEq α]

theorem get?_put_self (k : α) (v : β) : ∀ m : List (α × β), get? k (put k v m) = some v
  | [] => by simp [put, get?]
  | (j, w) :: m => by
    by_cases h : j = k
    · simp [put, get?, h]
    · simp [put, get?, h, get?_put_self k v m]

theorem get?_put_of_ne {j k : α} (h : j ≠ k) (v : β) : ∀ m : List (α × β), get? j (put k v m) = get? j m
  | [] => by simp [put, get?, Ne.symm h]
  | (i, w) :: m => by
    by_cases hi : i = k
    · subst hi; simp [put, get?, Ne.symm h]
    · simp [put, get?, hi, get?_put_of_ne h v m]

/-- Of the pairs that are put with one key the last one counts. -/
theorem get?_putAll (k : α) : ∀ more m : List (α × β),
    get? k (putAll m more) = ((more.findRev? (·.1 == k)).map (·.2)).or (get? k m)
  | [], m => rfl
  | (j, v) :: more, m => by
    have ih := get?_putAll k more (put j v m)
    refine ih.trans ?_
    rw [List.findRev?]
    cases h : more.findRev? (·.1 == k) with
    | some e => rfl
    | none =>
      by_cases hj : j = k
      · subst hj
        simp [get?_put_self]
      · simp [get?_put_of_ne (Ne.symm hj), hj]

theorem get?_ofPairs (k : α) (pairs : List (α × β)) :
    get? k (ofPairs pairs) = (pairs.findRev? (·.1 == k)).map (·.2) := by
  rw [ofPairs, get?_putAll, get?, Option.or_none]

theorem get?_filter (p : α → Bool) (k : α) : ∀ m : List (α × β),
    get? k (m.filter fun e => p e.1) = if p k then get? k m else none
  | [] => by simp [get?]
  | (j, v) :: m => by
    by_cases hj : j = k
    · subst hj
      by_cases hp : p j
      · simp [get?, hp]
      · simp [hp, get?_filter p j m]
    · by_cases hp : p j
      · simp [get?, hp, hj, get?_filter p k m]
      · simp [get?, hp, hj, get?_filter p k m]

theorem mem_of_ofPairs {pairs : List (α × β)} {e : α × β} (h : e ∈ ofPairs pairs) : e ∈ pairs :=
  mem_of_mem_ofPairs (fun _ _ _ h => eq_of_beq h) h

/-- Of a map with distinct keys a part has the values that are chosen. -/
theorem get?_filter_of_distinct (p : β → Bool) (k : α) : ∀ {m : List (α × β)}, Distinct m →
    get? k (m.filter fun e => p e.2) = (get? k m).filter p
  | [], _ => rfl
  | (j, v) :: m, h => by
    obtain ⟨hj, hm⟩ := List.pairwise_cons.mp h
    have ih := get?_filter_of_distinct p k hm
    by_cases hjk : j = k
    · subst hjk
      have hnone : get? j m = none := by
        cases hget : get? j m with
        | none => rfl
        | some w => exact absurd (hj _ (pair_mem_of_get? hget)) (by simp)
      by_cases hv : p v
      · simp [get?, hv, Option.filter]
      · simp [get?, hv, ih, hnone, Option.filter]
    · by_cases hv : p v
      · simp [get?, hv, hjk, ih]
      · simp [get?, hv, hjk, ih]

theorem filter_put (p : α → Bool) (k : α) (v : β) : ∀ m : List (α × β), (put k v m).filter (fun e => p e.1) =
    if p k then put k v (m.filter fun e => p e.1) else m.filter fun e => p e.1
  | [] => by cases h : p k <;> simp [put, h]
  | (j, w) :: m => by
    have ih := filter_put p k v m
    by_cases hj : j = k
    · subst hj
      by_cases hp : p j
      · simp [put, hp]
      · simp [put, hp]
    · by_cases hk : p k
      · by_cases hp : p j
        · simp [put, hj, hk, hp, ih]
        · simp [put, hj, hk, hp, ih]
      · by_cases hp : p j
        · simp [put, hj, hk, hp, ih]
        · simp [put, hj, hk, hp, ih]

theorem filter_putAll (p : α → Bool) : ∀ more m : List (α × β), (putAll m more).filter (fun e => p e.1) =
    putAll (m.filter fun e => p e.1) (more.filter fun e => p e.1)
  | [], _ => rfl
  | (k, v) :: more, m => by
    refine (filter_putAll p more (put k v m)).trans ?_
    rw [filter_put]
    by_cases hk : p k
    · rw [if_pos hk, List.filter_cons, if_pos hk]
      rfl
    · rw [if_neg hk, List.filter_cons, if_neg hk]

/-- Pairs that are chosen by their keys are put together as they are among the others. -/
theorem filter_ofPairs (p : α → Bool) (pairs : List (α × β)) :
    (ofPairs pairs).filter (fun e => p e.1) = ofPairs (pairs.filter fun e => p e.1) :=
  filter_putAll p pairs []

theorem get?_ofPairs_append (k : α) (pairs more : List (α × β)) :
    get? k (ofPairs (pairs ++ more)) = (get? k (ofPairs more)).or (get? k (ofPairs pairs)) := by
  rw [ofPairs, putAll, List.foldl_append]
  exact (get?_putAll k more (ofPairs pairs)).trans (congrArg (Option.or · _) (get?_ofPairs k more).symm)

theorem lookup_eq_get? (k : α) : ∀ m : List (α × β), m.lookup k = get? k m
  | [] => rfl
  | (j, v) :: m => by
    rw [List.lookup_cons, get?, Bool.beq_comm, lookup_eq_get? k m]
    cases j == k <;> rfl

theorem contains_put {j k : α} {v : β} {m : List (α × β)} :
    contains j (put k v m) = true ↔ j = k ∨ contains j m = true := by
  rw [contains_iff, contains_iff]
  by_cases h : j = k
  · subst h
    simp [get?_put_self]
  · simp [get?_put_of_ne h, h]

theorem contains_putAll {k : α} : ∀ {more m : List (α × β)},
    contains k (putAll m more) = true ↔ contains k m = true ∨ k ∈ more.map (·.1)
  | [], m => by simp [putAll]
  | (j, v) :: more, m => by
    rw [List.map_cons, List.mem_cons, ← or_assoc, or_comm (b := k = j), ← contains_put (v := v)]
    exact contains_putAll (m := put j v m)

theorem contains_ofPairs {k : α} {pairs : List (α × β)} :
    contains k (ofPairs pairs) = true ↔ k ∈ pairs.map (·.1) := by
  rw [ofPairs, contains_putAll]
  simp [contains]

theorem distinct_iff_nodup {m : List (α × β)} : Distinct m ↔ (m.map (·.1)).Nodup := by
  rw [List.nodup_iff_pairwise_ne, List.pairwise_map]
  simp [Distinct]

theorem mem_keys_iff {k : α} {m : List (α × β)} : k ∈ m.map (·.1) ↔ contains k m = true := by
  simp [contains]

/-! ## First elements -/

section
variable {key : β → α}

/-- The elements of a list, of those with one key the first. -/
def firsts (key : β → α) (es : List β) : List β :=
  (es.foldl (fun m e => putNew (key e) e m) []).map (·.2)

theorem contains_foldl_putNew (k : α) (es : List β) :
    contains k (es.foldl (fun m e => putNew (key e) e m) []) = es.any (key · == k) := by
  induction es using List.reverseRecOn with
  | nil => rfl
  | append_singleton es e ih =>
    rw [List.foldl_append, List.foldl_cons, List.foldl_nil, List.any_append, ← ih, List.any_cons, List.any_nil,
      Bool.or_false]
    generalize es.foldl (fun m e => putNew (key e) e m) [] = m
    unfold putNew
    by_cases h : contains (key e) m
    · by_cases hk : key e = k
      · subst hk
        simp [h]
      · simp [h, hk]
    · rw [if_neg h]
      simp [contains]

theorem firsts_snoc (es : List β) (e : β) :
    firsts key (es ++ [e]) = if es.any (key · == key e) then firsts key es else firsts key es ++ [e] := by
  unfold firsts
  rw [List.foldl_append, List.foldl_cons, List.foldl_nil, ← contains_foldl_putNew]
  unfold putNew
  split
  · rfl
  · rw [List.map_append, List.map_cons, List.map_nil]

theorem mem_of_mem_firsts {es : List β} {e : β} (h : e ∈ firsts key es) : e ∈ es := by
  induction es using List.reverseRecOn with
  | nil => exact h
  | append_singleton es f ih =>
    rw [firsts_snoc] at h
    split at h
    · exact List.mem_append_left _ (ih h)
    · rcases List.mem_append.mp h with h | h
      · exact List.mem_append_left _ (ih h)
      · exact List.mem_append_right _ h

theorem firsts_pairwise (es : List β) : (firsts key es).Pairwise fun e f => key e ≠ key f := by
  induction es using List.reverseRecOn with
  | nil => exact List.Pairwise.nil
  | append_singleton es f ih =>
    rw [firsts_snoc]
    split
    · exact ih
    · rename_i hnew
      refine List.pairwise_append.mpr ⟨ih, List.pairwise_singleton .., fun e he g hg hkey => hnew ?_⟩
      obtain rfl := List.mem_singleton.mp hg
      exact List.any_eq_true.mpr ⟨e, mem_of_mem_firsts he, beq_iff_eq.mpr hkey⟩

/-- Of those with its key a first element is the only one. -/
theorem filter_firsts_key {es : List β} {e : β} (h : e ∈ firsts key es) :
    (firsts key es).filter (key · == key e) = [e] := by
  have hpair : (firsts key es).Pairwise fun e f => key e ≠ key f := firsts_pairwise es
  generalize firsts key es = fs at h hpair
  induction fs with
  | nil => cases h
  | cons f fs ih =>
    obtain ⟨hf, hfs⟩ := List.pairwise_cons.mp hpair
    rcases List.mem_cons.mp h with rfl | h
    · have hnone : fs.filter (key · == key e) = [] :=
        List.filter_eq_nil_iff.mpr fun g hg => by simpa using (hf g hg).symm
      simp [hnone]
    · rw [List.filter_cons_of_neg (by simpa using hf e h), ih h hfs]

/-- A part that is chosen by keys has the first elements of its keys. -/
theorem filter_firsts {p : β → Bool} (hp : ∀ e f, key e = key f → p e = p f) (es : List β) :
    (firsts key es).filter p = firsts key (es.filter p) := by
  induction es using List.reverseRecOn with
  | nil => rfl
  | append_singleton es e ih =>
    have hany : p e = true → (es.filter p).any (key · == key e) = es.any (key · == key e) := by
      intro he
      rw [List.any_filter]
      congr
      funext f
      by_cases hf : key f = key e
      · simp [hf, hp f e hf, he]
      · simp [hf]
    rw [firsts_snoc, List.filter_append]
    by_cases he : p e
    · rw [List.filter_cons_of_pos he, List.filter_nil, firsts_snoc, hany he, ← ih]
      split
      · rfl
      · rw [List.filter_append, List.filter_cons_of_pos he, List.filter_nil]
    · rw [List.filter_cons_of_neg he, List.filter_nil, List.append_nil, ← ih]
      split
      · rfl
      · rw [List.filter_append, List.filter_cons_of_neg he, List.filter_nil, List.append_nil]

theorem map_firsts {γ δ : Type} [BEq δ] [LawfulBEq δ] {key' : γ → δ} {g : β → γ} (es : List β)
    (h : ∀ e ∈ es, ∀ f ∈ es, key' (g e) = key' (g f) ↔ key e = key f) :
    (firsts key es).map g = firsts key' (es.map g) := by
  induction es using List.reverseRecOn with
  | nil => rfl
  | append_singleton es e ih =>
    have hany : (es.map g).any (key' · == key' (g e)) = es.any (key · == key e) := by
      rw [List.any_map, Bool.eq_iff_iff, List.any_eq_true, List.any_eq_true]
      refine exists_congr fun f => and_congr_right fun hf => ?_
      simpa using h f (List.mem_append_left _ hf) e (by simp)
    have ih := ih fun e he f hf => h e (List.mem_append_left _ he) f (List.mem_append_left _ hf)
    rw [List.map_append, List.map_cons, List.map_nil, firsts_snoc, firsts_snoc, hany, ← ih]
    split
    · rfl
    · rw [List.map_append, List.map_cons, List.map_nil]

theorem findRev?_firsts (k : α) (es : List β) :
    (firsts key es).findRev? (key · == k) = es.find? (key · == k) := by
  induction es using List.reverseRecOn with
  | nil => rfl
  | append_singleton es e ih =>
    rw [firsts_snoc, List.find?_append]
    split
    · rename_i hany
      rw [ih]
      by_cases hk : key e = k
      · subst hk
        obtain ⟨f, hf, hkey⟩ := List.any_eq_true.mp hany
        obtain ⟨f, hf⟩ := Option.isSome_iff_exists.mp (List.find?_isSome (p := (key · == key e)).mpr ⟨f, hf, hkey⟩)
        rw [hf]
        rfl
      · simp [hk]
    · rename_i hany
      rw [List.findRev?_eq_find?_reverse, List.reverse_append, List.reverse_singleton, List.singleton_append,
        List.find?_cons, ← List.findRev?_eq_find?_reverse, ih]
      by_cases hk : key e = k
      · subst hk
        have hnone : es.find? (key · == key e) = none := by
          simpa using hany
        simp [hnone]
      · rw [beq_eq_false_iff_ne.mpr hk]
        simp [hk]

end

end ToolServer.Ordered
