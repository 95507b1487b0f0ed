import ToolServer.Proofs.Reference.History
import ToolServer.Proofs.Reference.Related

/-!
# Resolving again

A call stores values only for references of which nothing was remembered before. So between calls nothing that is
remembered changes, and a node gets the value again that it got. A value without references is what it is resolved to.
-/

namespace ToolServer.Reference

open Document

/-! ## What stays remembered -/

def KeptIn (m m' : Memory) : Prop := ∀ q w, m.get? q = some w → m'.get? q = some w

theorem KeptIn.refl (m : Memory) : KeptIn m m := fun _ _ h => h

theorem KeptIn.trans {m m' m'' : Memory} (h : KeptIn m m') (h' : KeptIn m' m'') : KeptIn m m'' :=
  fun q w hq => h' q w (h q w hq)

theorem keptIn_warn (m : Memory) (x : Warning) : KeptIn m (m.warn x) :=
  fun q w h => by rwa [Memory.get?_warn]

/-- What is remembered has a node in the document behind it. -/
abbrev Grounded (root : Value) (m : Memory) : Prop := Remembers root (fun _ _ => True) m

theorem closed_true (root : Value) : Closed root fun _ _ => True :=
  ⟨⟨fun _ => trivial, fun _ => trivial, fun _ _ _ => trivial⟩, fun _ _ _ => trivial, fun _ => trivial⟩

/-- A step that changes nothing remembered, and that a memory with all that it has left repeats: such a memory
gives its result again and is left as it is. -/
structure Repeats {β : Type} (root : Value) (f : Memory → β × Memory) : Prop where
  keeps : ∀ m, KeptIn m (f m).2
  again : ∀ m m', KeptIn (f m).2 m' → Grounded root m' →
    (f m').1 = (f m).1 ∧ ∀ q, (f m').2.get? q = m'.get? q

section
variable {α β γ : Type} {root : Value}

namespace Repeats

theorem pure (b : β) : Repeats root fun m => (b, m) where
  keeps := KeptIn.refl
  again _ _ _ _ := ⟨rfl, fun _ => rfl⟩

theorem warn (b : β) (x : Warning) : Repeats root fun m => (b, m.warn x) where
  keeps m := keptIn_warn m x
  again _ _ _ _ := ⟨rfl, fun q => Memory.get?_warn _ x q⟩

theorem map {f : Memory → β × Memory} (h : Repeats root f) (g : β → γ) :
    Repeats root fun m => (g (f m).1, (f m).2) where
  keeps := h.keeps
  again m m' hk hm' := by
    obtain ⟨hvalue, hsame⟩ := h.again m m' hk hm'
    exact ⟨congrArg g hvalue, hsame⟩

/-- What the first step left is still there when the others are done. -/
theorem cons {f : Memory → β × Memory} {fs : Memory → List β × Memory} (h : Repeats root f) (hs : Repeats root fs) :
    Repeats root fun m => ((f m).1 :: (fs (f m).2).1, (fs (f m).2).2) where
  keeps m := (h.keeps m).trans (hs.keeps _)
  again m m' hk hm' := by
    obtain ⟨hvalue, hsame⟩ := h.again m m' ((hs.keeps _).trans hk) hm'
    have hk' : KeptIn (fs (f m).2).2 (f m').2 := fun q w hq => (hsame q).trans (hk q w hq)
    have hm'' : Grounded root (f m').2 := fun q w hq => hm' q w ((hsame q).symm.trans hq)
    obtain ⟨hvalues, hsame'⟩ := hs.again (f m).2 (f m').2 hk' hm''
    refine ⟨?_, fun q => (hsame' q).trans (hsame q)⟩
    show (f m').1 :: (fs (f m').2).1 = (f m).1 :: (fs (f m).2).1
    rw [hvalue, hvalues]

theorem mapWith {f : α → Memory → β × Memory} : ∀ {xs : List α}, (∀ x ∈ xs, Repeats root (f x)) →
    Repeats root (Reference.mapWith f xs)
  | [], _ => pure []
  | x :: _, h => cons (h x (List.mem_cons_self ..)) (mapWith fun y hy => h y (List.mem_cons_of_mem _ hy))

theorem ref {es : Entries} {r : String} (he : refOf? es = some r) {room : Nat}
    (h : ∀ t, Repeats root (resolveIn root room t)) : Repeats root (resolveIn root (room + 1) (Value.map es)) where
  keeps m := by
    cases hm : m.get? r with
    | some u =>
      rw [resolveIn_known he hm]
      exact KeptIn.refl m
    | none =>
      cases hf : follow root r with
      | none =>
        rw [resolveIn_dangling he hm hf]
        exact keptIn_warn m _
      | some t =>
        rw [resolveIn_target he hm hf]
        intro q w hq
        have hne : q ≠ r := by
          intro heq
          rw [heq, hm] at hq
          cases hq
        rw [Memory.get?_put_of_ne _ hne]
        apply (h t).keeps
        rwa [Memory.get?_put_of_ne _ hne]
  again m m' hk hm' := by
    cases hm : m.get? r with
    | some u =>
      rw [resolveIn_known he hm] at hk ⊢
      rw [resolveIn_known he (hk r u hm)]
      exact ⟨rfl, fun _ => rfl⟩
    | none =>
      cases hf : follow root r with
      | none =>
        have hnone : m'.get? r = none := by
          cases hr : m'.get? r with
          | none => rfl
          | some u =>
            obtain ⟨t, ht, -⟩ := hm' r u hr
            rw [hf] at ht
            cases ht
        rw [resolveIn_dangling he hm hf, resolveIn_dangling he hnone hf]
        exact ⟨rfl, fun q => Memory.get?_warn _ _ q⟩
      | some t =>
        -- whatever stood for the reference meanwhile, its value is remembered in the end
        rw [resolveIn_target he hm hf] at hk ⊢
        rw [resolveIn_known he (hk r _ (Memory.get?_put_self ..))]
        exact ⟨rfl, fun _ => rfl⟩

theorem resolveIn (root : Value) : ∀ (room : Nat) (v : Value), Repeats root (Reference.resolveIn root room v)
  | 0, v => by
    rw [show Reference.resolveIn root 0 v = fun m => (strip v, m.warn .tooDeep) from funext fun m => resolveIn_zero v]
    exact warn (strip v) .tooDeep
  | room + 1, v => by
    cases shape v with
    | leaf hv =>
      rw [show Reference.resolveIn root (room + 1) v = fun m => (v, m) from funext fun m => resolveIn_leaf hv]
      exact pure v
    | list vs => exact (mapWith fun v _ => resolveIn root room v).map Value.list
    | map he =>
      rw [show Reference.resolveIn root (room + 1) (.map _) = _ from funext fun m => resolveIn_map he]
      exact (mapWith fun e _ => (resolveIn root room e.2).map (e.1, ·)).map Value.map
    | ref he => exact ref he (resolveIn root room)

end Repeats

/-- Each of several steps is repeated by a memory with all that they have left. -/
theorem mapWith_eq_map {f : α → Memory → β × Memory} (h : ∀ x, Repeats root (f x)) {m' : Memory}
    (hm' : Grounded root m') : ∀ (xs : List α) (m : Memory), KeptIn (mapWith f xs m).2 m' →
      (mapWith f xs m).1 = xs.map fun x => (f x m').1
  | [], _, _ => rfl
  | x :: xs, m, hk => by
    have hrest : Repeats root (mapWith f xs) := .mapWith fun y _ => h y
    rw [mapWith_cons] at hk ⊢
    rw [List.map_cons, mapWith_eq_map h hm' xs _ hk, ((h x).again m m' ((hrest.keeps _).trans hk) hm').1]

end

theorem resolveAll_related {root : Value} {R : Value → Value → Prop} (hR : Closed root R) (nodes : List Value) :
    List.Forall₂ R nodes (resolveAll root nodes).1 ∧ Remembers root R (resolveAll root nodes).2 :=
  mapWith_related (f := resolve root) nodes (fun v _ m hm => resolveIn_related hR _ v m hm) .empty remembers_empty

/-- Every value is the one that the memory gives which the calls leave in the end. -/
theorem resolveAll_eq_map (root : Value) (nodes : List Value) :
    (resolveAll root nodes).1 = nodes.map fun v => (resolve root v (resolveAll root nodes).2).1 :=
  mapWith_eq_map (Repeats.resolveIn root (maxDepth + 1)) (resolveAll_related (closed_true root) nodes).2
    nodes .empty (KeptIn.refl _)

/-! ## Values without references -/

/-- No map has anything under `$ref`, but for maps inside pairs. -/
inductive Bare : Value → Prop
  | leaf {v} : IsLeaf v → Bare v
  | list {vs} : (∀ v ∈ vs, Bare v) → Bare (.list vs)
  | map {es} : (∀ e ∈ es, e.1 ≠ .text "$ref") → (∀ e ∈ es, Bare e.2) → Bare (.map es)

theorem stripItems_eq_self : ∀ {vs : List Value}, (∀ v ∈ vs, strip v = v) → stripItems vs = vs
  | [], _ => rfl
  | v :: vs, h => by
    obtain ⟨hv, hvs⟩ := List.forall_mem_cons.mp h
    rw [stripItems, hv, stripItems_eq_self hvs]

theorem stripEntries_eq_self : ∀ {es : Entries}, (∀ e ∈ es, e.1 ≠ .text "$ref") → (∀ e ∈ es, strip e.2 = e.2) →
    stripEntries es = es
  | [], _, _ => rfl
  | (k, v) :: es, hkeys, h => by
    obtain ⟨hk, hkeys⟩ := List.forall_mem_cons.mp hkeys
    obtain ⟨hv, h⟩ := List.forall_mem_cons.mp h
    rw [stripEntries, if_neg (mt Scalar.beq_text_iff.mp hk), hv, stripEntries_eq_self hkeys h]

theorem Bare.strip_eq {v : Value} (h : Bare v) : strip v = v := by
  induction h with
  | leaf hv => exact strip_leaf hv
  | list _ ih => rw [strip, stripItems_eq_self ih]
  | map hkeys _ ih => rw [strip, stripEntries_eq_self hkeys ih]

/-- Without references nothing is left out, however deep. -/
theorem Bare.resolveIn_eq {root v : Value} (h : Bare v) : ∀ (room : Nat) (m : Memory),
    (resolveIn root room v m).1 = v := by
  induction h with
  | leaf hv => exact fun room m => resolveIn_fst_leaf hv room m
  | @list vs hvs ih =>
    intro room m
    cases room with
    | zero =>
      rw [resolveIn_zero]
      exact (Bare.list hvs).strip_eq
    | succ room =>
      rw [resolveIn_list]
      exact congrArg Value.list (mapWith_eq_self (fun v hv => ih v hv room) m)
  | @map es hkeys hes ih =>
    intro room m
    cases room with
    | zero =>
      rw [resolveIn_zero]
      exact (Bare.map hkeys hes).strip_eq
    | succ room =>
      rw [resolveIn_map (refOf?_of_no_ref hkeys)]
      refine congrArg Value.map (mapWith_eq_self (f := resolveEntry root room) (fun e he s => ?_) m)
      show (e.1, (resolveIn root room e.2 s).1) = e
      rw [ih e he room s]

def TextRefs (v : Value) : Prop := EachEntry (fun e => e.1 = .text "$ref" → ∃ r, e.2 = .text r) v

/-- What is resolved has no reference left: a reference that is no text would stay where it stands. -/
theorem closed_bare {root : Value} (hroot : TextRefs root) : Closed root fun v w => TextRefs v → Bare w where
  leaf h _ := .leaf h
  list hws hv := by
    refine .list fun w hw => ?_
    obtain ⟨v, hmem, hvw, -⟩ := exists_of_forall₂ hws w hw
    exact hvw (hv.part (.of_item hmem))
  map {es es' fs} hsub he hfs hv := by
    have hes : ∀ e ∈ es, (e.1 = .text "$ref" → ∃ r, e.2 = .text r) ∧ TextRefs e.2 := EachEntry.map_iff.mp hv
    have hno : ∀ e ∈ es', e.1 ≠ .text "$ref" := by
      intro e hmem hkey
      obtain ⟨u, hu⟩ := Entries.get?_of_mem (hkey ▸ hmem : (Scalar.text "$ref", e.2) ∈ es')
      obtain ⟨r, rfl⟩ := (hes _ (hsub.mem (Entries.mem_of_get? hu))).1 rfl
      rw [refOf?, hu] at he
      cases he
    refine .map (fun f hf => ?_) fun f hf => ?_
    · obtain ⟨e, hmem, hkey, -⟩ := exists_of_forall₂ hfs f hf
      exact hkey ▸ hno e hmem
    · obtain ⟨e, hmem, -, hef⟩ := exists_of_forall₂ hfs f hf
      exact hef (hes e (hsub.mem hmem)).2
  ref _ hf hw _ := hw (hroot.part (within_of_follow hf))
  placeholder {r t} _ _ := by
    refine .map (fun e he => ?_) fun e he => ?_
    · simp only [List.mem_cons, List.not_mem_nil, or_false] at he
      rcases he with rfl | rfl <;> simp
    · simp only [List.mem_cons, List.not_mem_nil, or_false] at he
      rcases he with rfl | rfl <;> exact .leaf trivial

/-! ## Calls -/

/-- **A node gets the same value in every call, and what was resolved is resolved to itself.** -/
theorem resolve_repeats (root : Value) (nodes : List Value) :
    (∀ i j : Nat, nodes[i]? = nodes[j]? → (resolveAll root nodes).1[i]? = (resolveAll root nodes).1[j]?) ∧
    ((∀ v ∈ root :: nodes, TextRefs v) → ∀ w ∈ (resolveAll root nodes).1, ∀ m, (resolve root w m).1 = w) := by
  constructor
  · intro i j h
    rw [resolveAll_eq_map, List.getElem?_map, List.getElem?_map, h]
  · intro h w hw m
    obtain ⟨hroot, hnodes⟩ := List.forall_mem_cons.mp h
    obtain ⟨hall, -⟩ := resolveAll_related (closed_bare hroot) nodes
    obtain ⟨v, hv, hvw⟩ := exists_of_forall₂ hall w hw
    exact (hvw (hnodes v hv)).resolveIn_eq _ m

/-- A knot that is asked for at one reference, at the other, and at the first one again. -/
theorem resolve_repeats_knot :
    [refTo "#/a", refTo "#/b", refTo "#/a"][0]? = [refTo "#/a", refTo "#/b", refTo "#/a"][2]? ∧
    (∀ v ∈ [knot, refTo "#/a", refTo "#/b", refTo "#/a"], TextRefs v) ∧
    (resolveAll knot [refTo "#/a", refTo "#/b", refTo "#/a"]).1[0]? =
      (resolveAll knot [refTo "#/a", refTo "#/b", refTo "#/a"]).1[2]? ∧
    .map [(.text "a", placeholder "#/a")] ∈ (resolveAll knot [refTo "#/a", refTo "#/b", refTo "#/a"]).1 ∧
    ∀ m, (resolve knot (.map [(.text "a", placeholder "#/a")]) m).1 = .map [(.text "a", placeholder "#/a")] := by
  have htexts : ∀ v ∈ [knot, refTo "#/a", refTo "#/b", refTo "#/a"], TextRefs v := by
    simp [knot, refTo, TextRefs, EachEntry.map_iff, EachEntry.of_scalar]
  have hsecond : (resolveAll knot [refTo "#/a", refTo "#/b", refTo "#/a"]).1[1]? =
      some (.map [(.text "a", placeholder "#/a")]) := by decide +kernel
  obtain ⟨hsame, hagain⟩ := resolve_repeats knot [refTo "#/a", refTo "#/b", refTo "#/a"]
  have hmem := List.mem_of_getElem? hsecond
  exact ⟨rfl, htexts, hsame 0 2 rfl, hmem, hagain htexts _ hmem⟩

end ToolServer.Reference
