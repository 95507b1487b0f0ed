import ToolServer.Proofs.Api.Parts
import ToolServer.Proofs.Reference.Run

/-!
# Following tours

Work on a document follows a tour through its parts: it succeeds if and only if all parts of the tour have their
form. Each step follows the tour that is named after it; `descriptionOf_follows` puts them together.
-/

namespace ToolServer.Api

open Document Schema
open Reference (Memory)

/-! ## Work and tours -/

/-- Work succeeds if and only if all parts of a tour have their form, and then it ends with the memory of the
tour. -/
structure Follows {α : Type} (x : Work α) (t : Tour) : Prop where
  isOk : ∀ m, (∃ a, (x.run m).1 = .ok a) ↔ ∀ p ∈ (t m).1, p.WellFormed
  memory : ∀ m a, (x.run m).1 = .ok a → (x.run m).2 = (t m).2

theorem Tour.andThen_nothing (t : Tour) : t.andThen .nothing = t := by
  funext m
  simp [Tour.andThen, Tour.nothing]

theorem Tour.all_part {α : Type} (p : α → Part) (xs : List α) :
    Tour.all (fun x => .part (p x)) xs = fun m => (xs.map p, m) := by
  induction xs with
  | nil => rfl
  | cons x xs ih =>
    rw [Tour.all, ih]
    rfl

theorem ok_of_bind {α β : Type} {x : Work α} {f : α → Work β} {m : Memory} {b : β}
    (h : ((x >>= f).run m).1 = .ok b) :
    ∃ a, (x.run m).1 = .ok a ∧ ((f a).run (x.run m).2).1 = .ok b := by
  rw [run_bind] at h
  cases hx : x.run m with
  | mk r m' =>
    rw [hx] at h
    cases r with
    | error e => cases h
    | ok a => exact ⟨a, rfl, h⟩

theorem run_of_ok {α β : Type} {x : Work α} {f : α → Work β} {m : Memory} {a : α} (h : (x.run m).1 = .ok a) :
    (x >>= f).run m = (f a).run (x.run m).2 := by
  rw [run_bind]
  cases hx : x.run m with
  | mk r m' =>
    rw [hx] at h
    cases h
    rfl

namespace Follows

variable {α β : Type} {x : Work α} {s t : Tour}

theorem pure (a : α) : Follows (Pure.pure a : Work α) .nothing where
  isOk _ := ⟨fun _ => List.forall_mem_nil _, fun _ => ⟨a, rfl⟩⟩
  memory _ _ _ := rfl

theorem bind {f : α → Work β} (hx : Follows x s) (hf : ∀ m a, (x.run m).1 = .ok a → Follows (f a) t) :
    Follows (x >>= f) (s.andThen t) where
  isOk m := by
    rw [Tour.andThen, List.forall_mem_append, ← hx.isOk]
    constructor
    · rintro ⟨b, h⟩
      obtain ⟨a, ha, hb⟩ := ok_of_bind h
      refine ⟨⟨a, ha⟩, ?_⟩
      rw [← hx.memory m a ha]
      exact ((hf m a ha).isOk _).mp ⟨b, hb⟩
    · rintro ⟨⟨a, ha⟩, h⟩
      rw [← hx.memory m a ha] at h
      obtain ⟨b, hb⟩ := ((hf m a ha).isOk _).mpr h
      exact ⟨b, by rw [run_of_ok ha]; exact hb⟩
  memory m b h := by
    obtain ⟨a, ha, hb⟩ := ok_of_bind h
    rw [run_of_ok ha, (hf m a ha).memory _ b hb, hx.memory m a ha]
    rfl

theorem map (hx : Follows x t) (g : α → β) : Follows (x >>= fun a => Pure.pure (g a)) t := by
  have h := hx.bind (t := .nothing) fun _ a _ => pure (g a)
  rwa [Tour.andThen_nothing] at h

/-- A step that succeeds for a part of its form only. -/
theorem part {p : Part} (hof : ∀ m a, (x.run m).1 = .ok a → p.WellFormed) (hx : p.WellFormed → Follows x t) :
    Follows x ((Tour.part p).andThen t) where
  isOk m := by
    constructor
    · rintro ⟨a, ha⟩
      have hp : p.WellFormed := hof m a ha
      exact List.forall_mem_cons.mpr ⟨hp, ((hx hp).isOk m).mp ⟨a, ha⟩⟩
    · intro h
      obtain ⟨hp, h⟩ := List.forall_mem_cons.mp h
      exact ((hx hp).isOk m).mpr h
  memory m a ha := (hx (hof m a ha)).memory m a ha

theorem plainly {y : Except Fault α} {p : Part} (h : (∃ a, y = .ok a) ↔ p.WellFormed) :
    Follows (Api.plainly y) (.part p) where
  isOk _ := h.trans ⟨fun hp _ hq => List.mem_singleton.mp hq ▸ hp, fun hq => hq p (List.mem_singleton_self p)⟩
  memory _ _ _ := rfl

theorem plainly_all {γ : Type} {y : Except Fault α} {p : γ → Part} {xs : List γ}
    (h : (∃ a, y = .ok a) ↔ ∀ x ∈ xs, (p x).WellFormed) :
    Follows (Api.plainly y) (.all (fun x => .part (p x)) xs) where
  isOk _ := by
    rw [Tour.all_part, List.forall_mem_map]
    exact h
  memory _ _ _ := by
    rw [Tour.all_part]
    rfl

theorem plainly_bind {y : Except Fault α} {p : Part} {f : α → Work β} (h : (∃ a, y = .ok a) ↔ p.WellFormed)
    (hf : ∀ a, y = .ok a → Follows (f a) t) : Follows (Api.plainly y >>= f) ((Tour.part p).andThen t) :=
  (plainly h).bind fun _ a ha => hf a ha

theorem ok_bind {y : Except Fault α} {a : α} {f : α → Work β} (h : y = .ok a) (hf : Follows (f a) t) :
    Follows (Api.plainly y >>= f) t := by
  subst h
  exact hf

theorem ite_bind {c : Prop} [Decidable c] {y : Work α} {u : Tour} {f : α → Work β} (hx : Follows x s)
    (hy : Follows y t) (hf : ∀ a, Follows (f a) u) :
    Follows (if c then x >>= f else y >>= f) ((if c then s else t).andThen u) := by
  split
  · exact hx.bind fun _ a _ => hf a
  · exact hy.bind fun _ a _ => hf a

theorem resolved {root v : Value} {f : Value → Work β} {t : Value → Tour} (h : ∀ w, Follows (f w) (t w)) :
    Follows (Api.resolved root v >>= f) (.resolving root v t) where
  isOk _ := (h _).isOk _
  memory _ a ha := (h _).memory _ a ha

theorem collect {f : α → Work (Option β)} {t : α → Tour} : ∀ {xs : List α},
    (∀ x ∈ xs, Follows (f x) (t x)) → Follows (Api.collect f xs) (.all t xs)
  | [], _ => pure []
  | x :: xs, h => by
    obtain ⟨hx, hxs⟩ := List.forall_mem_cons.mp h
    exact hx.bind fun _ o _ => (collect hxs).map _

end Follows

/-! ## Schemas -/

def flatOf (v : Value) : Except Fault Entries := do
  match ← flatten v with
  | .map entries => return entries
  | _ => return objectSchema

theorem flatOf_isOk {v : Value} : (∃ s, flatOf v = .ok s) ↔ Flattens v := by
  rw [flatOf, exists_bind_ok_iff, ← flatten_isOk]
  refine exists_congr fun w => and_iff_left ?_
  cases w with
  | map es => exact ⟨es, rfl⟩
  | _ => exact ⟨objectSchema, rfl⟩

theorem flatOf_keys {v : Value} {s : Entries} (h : flatOf v = .ok s) :
    EachKey IsText s ↔ (Part.storedSchema v).WellFormed := by
  obtain ⟨w, hw, hs⟩ := bind_eq_ok_iff.mp h
  cases v with
  | map es =>
    obtain ⟨fs, rfl, hkeys⟩ := eachKey_flatten (P := IsText) (fun name => ⟨name, rfl⟩) hw
    cases hs
    exact hkeys.trans ⟨fun h es' hes => Value.map.inj hes ▸ h, fun h => h es rfl⟩
  | _ =>
    cases hw
    cases hs
    exact iff_of_true (fun e he => List.mem_singleton.mp he ▸ ⟨"type", rfl⟩) fun es hes => by cases hes

theorem schemaOf_map (root : Value) (es : Entries) :
    schemaOf root (.map es) = resolved root (.map es) >>= fun w => plainly (flatOf w) := by
  have h (w : Value) : (do
      match ← plainly (flatten w) with
      | .map entries => return entries
      | _ => return objectSchema : Work Entries) = plainly (flatOf w) := by
    unfold flatOf
    cases flatten w with
    | error e => rfl
    | ok r => cases r <;> rfl
  exact congrArg (resolved root (.map es) >>= ·) (funext h)

section
variable {β : Type} {root : Value} {record : RecordKind} {g : Entries → β}

/-- A schema that says a type and nothing else is stored whatever the document. -/
theorem typeOnly_follows (type : String) : Follows ((Pure.pure [(.text "type", .text type)] : Work Entries) >>=
    fun s => do return g (← plainly (checked record (textKeyed? s)))) .nothing := by
  rw [pure_bind]
  exact .ok_bind rfl (.pure _)

theorem stored_follows (v : Value) : Follows (schemaOf root v >>= fun s => do
    return g (← plainly (checked record (textKeyed? s)))) (.stored root v) := by
  cases v with
  | map es =>
    rw [schemaOf_map, bind_assoc]
    exact .resolved fun w => .plainly_bind flatOf_isOk fun s hs =>
      (Follows.plainly (checked_isOk.trans (textKeyed_isOk.trans (flatOf_keys hs)))).map g
  | _ =>
    exact typeOnly_follows "object"

theorem contentSchema_follows {p : Part} {media : Value}
    (hp : p.WellFormed ↔ MayLack "schema" (orElse media noEntries)) :
    Follows (contentSchema root media >>= fun s => do return g (← plainly (checked record (textKeyed? s))))
      ((Tour.part p).andThen (match Entries.get? (entriesIn media) "schema" with
        | some schema => .stored root schema
        | none => .nothing)) := by
  unfold contentSchema
  split
  · rename_i es hes
    rw [entriesIn_eq (membersOr_of_map hes)]
    refine .part (fun _ _ _ => hp.mpr (hes ▸ .inl ⟨es, rfl⟩)) fun _ => ?_
    cases Entries.get? es "schema" with
    | some schema => exact stored_follows schema
    | none => exact typeOnly_follows "string"
  · rename_i hmap
    have hentries : entriesIn media = [] := by
      unfold entriesIn membersOr
      cases hv : orElse media noEntries with
      | map es => exact absurd hv (hmap es)
      | _ => rfl
    -- What is no map is only asked for the word: it has no schema, or there is a fault.
    rw [hentries, bind_assoc]
    refine .part (fun m a ha => hp.mpr ?_) fun h => ?_
    · obtain ⟨b, hb, ha⟩ := ok_of_bind ha
      cases b with
      | true => cases ha
      | false => exact .inr hb
    · rcases hp.mp h with ⟨es, hes⟩ | hno
      · exact absurd hes (hmap es)
      · refine .ok_bind hno ?_
        exact typeOnly_follows "string"

theorem parameterSchema_follows (p : Entries) :
    Follows (parameterSchema root p >>= fun s => do return g (← plainly (checked record (textKeyed? s))))
      ((Tour.part (.parameter p)).andThen (match Entries.get? p "schema" with
        | some schema => .stored root schema
        | none =>
          match Entries.get? (entriesIn (firstMedia (Entries.get p "content"))) "schema" with
          | some schema => .stored root schema
          | none => .nothing)) := by
  unfold parameterSchema
  cases hschema : Entries.get? p "schema" with
  | some schema =>
    refine .part (fun _ _ _ hnone => ?_) fun _ => stored_follows schema
    rw [hschema] at hnone
    cases hnone
  | none =>
    have hform : (Part.parameter p).WellFormed ↔
        MayLack "schema" (orElse (firstMedia (Entries.get p "content")) noEntries) :=
      ⟨fun h => h hschema, fun h _ => h⟩
    dsimp only
    split
    · rename_i key media rest hcontent
      rw [hcontent] at hform ⊢
      exact contentSchema_follows hform
    · rename_i hno
      have hmedia : firstMedia (Entries.get p "content") = .null := by
        unfold firstMedia
        split
        · rename_i key media rest hcontent
          exact absurd hcontent (hno key media rest)
        · rfl
      rw [hmedia] at hform ⊢
      exact .part (fun _ _ _ => hform.mpr (.inl ⟨[], rfl⟩)) fun _ => typeOnly_follows "string"

end

section
variable {root : Value}

theorem parameterOf_follows (raw : Value) : Follows (parameterOf root raw) (.parameter root raw) := by
  refine .resolved fun w => ?_
  cases w with
  | map p =>
    dsimp only
    by_cases hname : (Entries.get p "name").isTruthy = true
    · simp only [hname, Bool.not_true, Bool.false_eq_true, if_false, if_true]
      exact parameterSchema_follows p
    · simp only [hname, Bool.not_false, Bool.false_eq_true, if_false, if_true]
      exact .pure none
  | _ => exact .pure none

theorem parametersOf_follows (raw : Value) : Follows (parametersOf root raw) (.parameters root raw) :=
  .plainly_bind elementsOr_isOk fun _ hvs => elementsIn_eq hvs ▸ .collect fun v _ => parameterOf_follows v

theorem requestBodyOf_follows (raw : Value) : Follows (requestBodyOf root raw) (.requestBody root raw) := by
  refine .resolved fun w => ?_
  cases w with
  | map b =>
    dsimp only
    refine .part (fun m a ha => ?_) fun ⟨hcontent, hmedia⟩ => ?_
    · obtain ⟨vs, -, ha⟩ := ok_of_bind ha
      obtain ⟨es, hes, ha⟩ := ok_of_bind ha
      obtain ⟨media, hm, -⟩ := ok_of_bind ha
      have hes : membersOr (Entries.get b "content") = .ok es := hes
      refine ⟨membersOr_isOk.mp ⟨es, hes⟩, ?_⟩
      rw [firstMedia_eq hes]
      exact membersOr_isOk.mp ⟨media, hm⟩
    · obtain ⟨es, hes⟩ := membersOr_isOk.mpr hcontent
      obtain ⟨media, hm⟩ := membersOr_isOk.mpr hmedia
      have helements : (orElse (Entries.get b "content") noEntries).elements = .ok (es.map fun e => .scalar e.1) := by
        rw [members_gives _ es hes]
        rfl
      refine .ok_bind helements (.ok_bind hes ?_)
      rw [Tour.ofMedia, entriesIn_eq hm]
      rw [firstMedia_eq hes] at hm
      exact .ok_bind hm (stored_follows _)
  | _ => exact .pure none

theorem responseOf_follows (e : Scalar × Value) : Follows (responseOf root e) (.response root e.2) := by
  refine .resolved fun w => ?_
  cases w with
  | map r =>
    dsimp only
    refine .part (fun m a ha => ?_) fun ⟨hcontent, hmedia⟩ => ?_
    · obtain ⟨vs, hvs, ha⟩ := ok_of_bind ha
      have hvs : elementsOr (Entries.get r "content") = .ok vs := (elements_orElse _).symm.trans hvs
      refine ⟨elementsOr_isOk.mp ⟨vs, hvs⟩, fun name hname => ?_⟩
      rw [firstName, elementsIn_eq hvs] at hname
      rw [hname] at ha
      obtain ⟨es, hes, ha⟩ := ok_of_bind ha
      obtain ⟨media, hm, -⟩ := ok_of_bind ha
      have hes : membersOr (Entries.get r "content") = .ok es := hes
      refine ⟨membersOr_isOk.mp ⟨es, hes⟩, ?_⟩
      rw [mediaNamed, entriesIn_eq hes]
      exact membersOr_isOk.mp ⟨media, hm⟩
    · obtain ⟨vs, hvs⟩ := elementsOr_isOk.mpr hcontent
      have hname : firstName (Entries.get r "content") = vs.head?.bind shown? := by
        rw [firstName, elementsIn_eq hvs]
      refine .ok_bind ((elements_orElse _).trans hvs) ?_
      rw [hname] at hmedia ⊢
      cases hfirst : vs.head?.bind shown? with
      | none => exact .pure _
      | some name =>
        obtain ⟨hcontent, hmedia⟩ := hmedia name hfirst
        obtain ⟨es, hes⟩ := membersOr_isOk.mpr hcontent
        obtain ⟨media, hm⟩ := membersOr_isOk.mpr hmedia
        dsimp only
        rw [Tour.ofMedia, entriesIn_eq hm]
        rw [mediaNamed, entriesIn_eq hes] at hm
        exact .ok_bind hes (.ok_bind hm (stored_follows _))
  | _ => exact .pure none

theorem responsesOf_follows (raw : Value) : Follows (responsesOf root raw) (.responses root raw) :=
  .plainly_bind membersOr_isOk fun _ hes => entriesIn_eq hes ▸ (Follows.collect fun e _ => responseOf_follows e).map _

end

/-! ## Operations -/

section
variable {doc : Entries}

theorem endpointOf_follows (path method : String) (ofPath : List Parameter) (o : Entries) :
    Follows (endpointOf doc path method ofPath o) (.operation doc o) :=
  (parametersOf_follows _).bind fun _ _ _ =>
    .ite_bind (requestBodyOf_follows _) (.pure none) fun _ =>
      .plainly_bind elementsOr_isOk fun _ _ =>
        (responsesOf_follows _).bind fun _ _ _ => (Follows.plainly securityOf_isOk).map _

theorem pathEndpoints_follows (e : Scalar × Value) : Follows (pathEndpoints doc e) (.path doc e.2) := by
  refine .resolved fun w => ?_
  cases w with
  | map item =>
    refine (parametersOf_follows _).bind fun ofPath _ _ => .collect fun method _ => ?_
    cases Entries.get item method with
    | map o => exact (endpointOf_follows _ _ _ o).map some
    | _ => exact .pure none
  | _ => exact .pure []

theorem schemesOf_follows (root : Value) (raw : Entries) :
    Follows (schemesOf root raw) (.all (fun e => .scheme root e.2) raw) :=
  .collect fun e _ => .resolved fun w => by
    cases w with
    | map d => exact (Follows.plainly schemeOf_isOk).map some
    | _ => exact .pure none

end

/-! ## Named schemas -/

section
variable {root : Value}

def flattened (v : Value) : Entries := (flatOf v).toOption.getD []

theorem flatOf_of_flattens {v : Value} (h : Flattens v) : flatOf v = .ok (flattened v) := by
  obtain ⟨s, hs⟩ := flatOf_isOk.mpr h
  rw [flattened, hs]
  rfl

theorem schemaOf_run (e : Scalar × Value) (m : Memory) : (schemaOf root e.2).run m =
    (flatOf (Tour.nameSchema root e m).1.2, (Tour.nameSchema root e m).2) := by
  obtain ⟨k, v⟩ := e
  cases v with
  | map es =>
    rw [schemaOf_map]
    rfl
  | _ => rfl

theorem namedSchema_run {e : Scalar × Value} {m : Memory} (h : Flattens (Tour.nameSchema root e m).1.2) :
    (namedSchema root e).run m = (.ok (some (e.1.display, flattened (Tour.nameSchema root e m).1.2)),
      (Tour.nameSchema root e m).2) := by
  unfold namedSchema
  rw [run_bind, schemaOf_run, flatOf_of_flattens h]
  rfl

theorem nameSchema_name (e : Scalar × Value) (m : Memory) : (Tour.nameSchema root e m).1.1 = e.1.display := by
  unfold Tour.nameSchema
  split
  · rfl
  · rfl

theorem namedSchemas_run : ∀ {raw : Entries} {m : Memory},
    (∀ n ∈ (Reference.mapWith (Tour.nameSchema root) raw m).1, Flattens n.2) →
      (collect (namedSchema root) raw).run m =
        (.ok (Ordered.mapValues flattened (Reference.mapWith (Tour.nameSchema root) raw m).1),
          (Reference.mapWith (Tour.nameSchema root) raw m).2)
  | [], _, _ => rfl
  | e :: raw, m, h => by
    rw [Reference.mapWith_cons] at h ⊢
    obtain ⟨hn, hraw⟩ := List.forall_mem_cons.mp h
    rw [collect, run_bind, namedSchema_run hn]
    dsimp only
    rw [run_bind, namedSchemas_run hraw, ← nameSchema_name]
    rfl

theorem flattens_of_namedSchemas : ∀ {raw : Entries} {m : Memory} {ss : List (String × Entries)},
    ((collect (namedSchema root) raw).run m).1 = .ok ss →
      ∀ n ∈ (Reference.mapWith (Tour.nameSchema root) raw m).1, Flattens n.2
  | [], _, _, _ => List.forall_mem_nil _
  | e :: raw, m, ss, h => by
    obtain ⟨y, hy, h⟩ := ok_of_bind h
    obtain ⟨ss, hss, -⟩ := ok_of_bind h
    obtain ⟨s, hs, -⟩ := ok_of_bind hy
    rw [schemaOf_run] at hs
    have hn : Flattens (Tour.nameSchema root e m).1.2 := flatOf_isOk.mp ⟨s, hs⟩
    rw [namedSchema_run hn] at hss
    rw [Reference.mapWith_cons]
    exact List.forall_mem_cons.mpr ⟨hn, flattens_of_namedSchemas hss⟩

theorem naming_follows {β : Type} {raw : Entries} {k : List (String × Entries) → Work β}
    {t : List (String × Value) → Tour}
    (hk : ∀ named, (∀ n ∈ named, Flattens n.2) → Follows (k (Ordered.mapValues flattened named)) (t named)) :
    Follows (collect (namedSchema root) raw >>= k)
      (.naming root raw fun named => (Tour.all (fun n => .part (.schema n.2)) named).andThen (t named)) := by
  -- A run that fails may have named only some of the schemas; one that succeeds has named all.
  have hof {m : Memory} {b : β} (h : ((collect (namedSchema root) raw >>= k).run m).1 = .ok b) :
      ∀ n ∈ (Reference.mapWith (Tour.nameSchema root) raw m).1, Flattens n.2 := by
    obtain ⟨ss, hss, -⟩ := ok_of_bind h
    exact flattens_of_namedSchemas hss
  have hrun {m : Memory} (h : ∀ n ∈ (Reference.mapWith (Tour.nameSchema root) raw m).1, Flattens n.2) :
      (collect (namedSchema root) raw >>= k).run m =
        (k (Ordered.mapValues flattened (Reference.mapWith (Tour.nameSchema root) raw m).1)).run
          (Reference.mapWith (Tour.nameSchema root) raw m).2 := by
    rw [run_bind, namedSchemas_run h]
  constructor
  · intro m
    rw [Tour.naming, Tour.andThen, Tour.all_part, List.forall_mem_append, List.forall_mem_map]
    constructor
    · rintro ⟨b, hb⟩
      have h := hof hb
      exact ⟨h, ((hk _ h).isOk _).mp ⟨b, hrun h ▸ hb⟩⟩
    · rintro ⟨h, hparts⟩
      rw [hrun h]
      exact ((hk _ h).isOk _).mpr hparts
  · intro m b hb
    have h := hof hb
    rw [hrun h] at hb ⊢
    rw [(hk _ h).memory _ b hb, Tour.naming, Tour.andThen, Tour.all_part]

end

theorem storedSchemas_isOk {named : List (String × Value)} (h : ∀ n ∈ named, Flattens n.2) :
    (∃ ss, checked .description ((Ordered.ofPairs (Ordered.mapValues flattened named)).mapM fun s =>
        (textKeyed? s.2).map (s.1, ·)) = .ok ss) ↔
      ∀ n ∈ Ordered.ofPairs named, (Part.storedSchema n.2).WellFormed := by
  rw [checked_isOk, exists_mapM_some_iff, Ordered.ofPairs_mapValues, Ordered.mapValues, List.forall_mem_map]
  refine forall₂_congr fun n hn => ?_
  have hflat : Flattens n.2 := h n (Ordered.mem_of_ofPairs hn)
  rw [← flatOf_keys (flatOf_of_flattens hflat), ← textKeyed_isOk]
  constructor
  · rintro ⟨s, hs⟩
    obtain ⟨t, ht, -⟩ := Option.map_eq_some_iff.mp hs
    exact ⟨t, ht⟩
  · rintro ⟨t, ht⟩
    exact ⟨_, Option.map_eq_some_iff.mpr ⟨t, ht, rfl⟩⟩

/-- **A description is read if and only if all parts that are read have their form.** -/
theorem descriptionOf_follows (doc paths : Entries) : Follows (descriptionOf doc paths) (.document doc paths) := by
  refine .plainly_bind elementsOr_isOk fun _ _ => .plainly_bind membersOr_isOk fun components hc => ?_
  rw [entriesIn_eq hc]
  refine .plainly_bind membersOr_isOk fun rawSchemes hschemes => ?_
  rw [entriesIn_eq hschemes]
  refine (schemesOf_follows _ _).bind fun _ _ _ => .plainly_bind membersOr_isOk fun rawSchemas hschemas => ?_
  rw [entriesIn_eq hschemas]
  refine naming_follows fun named hnamed => ?_
  have hpaths : Follows (collect (fun entry => some <$> pathEndpoints doc entry) paths)
      (.all (fun e => .path doc e.2) paths) :=
    .collect fun e _ => (map_eq_pure_bind some (pathEndpoints doc e)).symm ▸ (pathEndpoints_follows e).map some
  exact hpaths.bind fun _ _ _ => .plainly_bind membersOr_isOk fun info _ =>
    (Follows.plainly_all (storedSchemas_isOk hnamed)).map _

end ToolServer.Api
