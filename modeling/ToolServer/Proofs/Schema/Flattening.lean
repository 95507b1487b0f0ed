import ToolServer.Proofs.Document.Within
import ToolServer.Proofs.Ordered
import ToolServer.Proofs.Outcome
import ToolServer.Schema.Flatten

/-!
# Laws of flattening

A law says what holds of values before flattening and what after it. It has to be kept where one entry is
flattened and where branches are merged; then it is kept by flattening as a whole.
-/

namespace ToolServer.Schema

open Document

inductive Holds : Scalar × Value → Value → Prop
  | property {ps p} : p ∈ ps → Holds (.text "properties", .map ps) p.2
  | single {name v} : name ∈ schemaKeys → Holds (.text name, v) v
  | choice {name vs v} : name ∈ schemaListKeys → v ∈ vs → Holds (.text name, .list vs) v

def schemaPlaces : List String := "properties" :: schemaKeys ++ schemaListKeys

inductive Position : Value → Value → Prop
  | root {v} : Position v v
  | inner {es e v w} : e ∈ es → Holds e v → Position v w → Position (.map es) w

theorem Holds.within {e : Scalar × Value} {v : Value} (h : Holds e v) : Within e.2 v := by
  cases h with
  | property hp => exact .of_entry hp
  | single _ => exact .refl
  | choice _ hv => exact .of_item hv

theorem Holds.place {name : String} {v w : Value} (h : Holds (.text name, v) w) : name ∈ schemaPlaces := by
  cases h with
  | property _ => exact List.mem_cons_self ..
  | single h => exact List.mem_cons_of_mem _ (List.mem_append_left _ h)
  | choice h _ => exact List.mem_cons_of_mem _ (List.mem_append_right _ h)

theorem Position.within {v w : Value} (h : Position v w) : Within v w := by
  induction h with
  | root => exact .refl
  | inner he hv _ ih => exact .entry he (hv.within.trans ih)

/-- What holds of values and of the entries of maps before flattening, and of values, entries of schemas,
properties and required names after it. -/
structure Law where
  before : Value → Prop
  given : Scalar × Value → Prop
  after : Value → Prop
  entry : Scalar × Value → Prop
  property : Scalar × Value → Prop
  name : Value → Prop
  items {vs} : before (.list vs) → ∀ v ∈ vs, before v
  entries {es} : before (.map es) → ∀ e ∈ es, given e
  value {e} : given e → before e.2
  other {v} : before v → (∀ es, v ≠ .map es) → after v
  map {es} : after (.map es) ↔ ∀ e ∈ es, entry e
  unchanged {e} : given e → e.1 ≠ .text "allOf" → (∀ w, ¬ Holds e w) → entry e
  single {k v w} : given (k, v) → k ≠ .text "allOf" → isOneOf schemaKeys k = true → after w → entry (k, w)
  choice {k vs ws} : given (k, .list vs) → k ≠ .text "allOf" → isOneOf schemaListKeys k = true →
    (∀ w ∈ ws, after w) → entry (k, .list ws)
  member {k v w} : given (k, v) → after w → property (k, w)
  properties {ps} : (∀ p ∈ ps, property p) → entry (.text "properties", .map ps)
  declared {v} : entry (.text "properties", v) → Gives v.toEntries (fun ps => ∀ p ∈ ps, property p)
  put {k j v w} : property (k, v) → property (j, w) → property (k, w)
  required {vs} : (∀ v ∈ vs, name v) → entry (.text "required", .list vs)
  names {v} : entry (.text "required", v) → Gives v.elements (fun vs => ∀ w ∈ vs, name w)
  object : entry (.text "type", .text "object")

namespace Law

variable (L : Law)

/-! ## Merging -/

structure Merged (m : Merge) : Prop where
  schema : ∀ e ∈ m.schema, L.entry e
  properties : ∀ p ∈ m.properties, L.property p
  required : ∀ v ∈ m.required, L.name v

theorem mem_put_text {name : String} {v : Value} {es : Entries} {e : Scalar × Value}
    (h : e ∈ Ordered.put (.text name) v es) : e ∈ es ∨ e = (.text name, v) := by
  rcases Ordered.mem_put h with h | ⟨rfl, h | ⟨h, -⟩⟩
  · exact .inl h
  · exact .inr (by rw [← h])
  · exact .inr (by rw [← Scalar.beq_text_iff.mp h])

theorem put_entry {name : String} {v : Value} {es : Entries} (hv : L.entry (.text name, v))
    (hes : ∀ e ∈ es, L.entry e) : ∀ e ∈ Ordered.put (.text name) v es, L.entry e := by
  intro e he
  rcases mem_put_text he with he | rfl
  · exact hes e he
  · exact hv

theorem putAll_property : ∀ {more ps : Entries}, (∀ p ∈ ps, L.property p) → (∀ p ∈ more, L.property p) →
    ∀ p ∈ Ordered.putAll ps more, L.property p
  | [], _, hps, _ => hps
  | (k, v) :: more, ps, hps, hmore => by
    obtain ⟨hv, hmore⟩ := List.forall_mem_cons.mp hmore
    have hput : ∀ p ∈ Ordered.put k v ps, L.property p := by
      intro p hp
      rcases Ordered.mem_put hp with hp | ⟨hpv, hk | ⟨-, w, hp⟩⟩
      · exact hps p hp
      · rwa [show p = (k, v) from Prod.ext hk hpv]
      · rw [show p = (p.1, v) from Prod.ext rfl hpv]
        exact L.put (hps _ hp) hv
    have hall := putAll_property hput hmore
    exact hall

section
variable {es : Entries} (hes : ∀ e ∈ es, L.entry e)
include hes

theorem requiredNames : Gives ((Entries.get? es "required").getD (.list [])).elements
    (fun vs => ∀ v ∈ vs, L.name v) := by
  cases h : Entries.get? es "required" with
  | none => exact .ok fun v hv => by cases hv
  | some v => exact L.names (hes _ (Entries.mem_of_get? h))

theorem start_merged : Gives (Merge.start es) L.Merged := by
  have hps : Gives ((Entries.get? es "properties").getD (.map [])).toEntries
      (fun ps => ∀ p ∈ ps, L.property p) := by
    cases h : Entries.get? es "properties" with
    | none => exact .ok fun p hp => by cases hp
    | some v => exact L.declared (hes _ (Entries.mem_of_get? h))
  exact hps.bind fun ps hps => (L.requiredNames hes).bind fun vs hvs => .ok ⟨hes, hps, hvs⟩

theorem adopt_entry {schema : Entries} (hs : ∀ e ∈ schema, L.entry e) (name : String) :
    ∀ e ∈ Merge.adopt es schema name, L.entry e := by
  unfold Merge.adopt
  split
  · rename_i v hv
    split
    · exact hs
    · intro e he
      rcases List.mem_append.mp he with he | he
      · exact hs e he
      · obtain rfl := List.mem_singleton.mp he
        exact hes _ (Entries.mem_of_get? hv)
  · exact hs

theorem foldl_adopt_entry : ∀ (names : List String) {schema : Entries}, (∀ e ∈ schema, L.entry e) →
    ∀ e ∈ names.foldl (Merge.adopt es) schema, L.entry e
  | [], _, hs => hs
  | name :: names, _, hs => foldl_adopt_entry names (L.adopt_entry hes hs name)

end

theorem foldl_addRequired {P : Value → Prop} : ∀ (names : List Value) {required : List Value},
    (∀ v ∈ required, P v) → (∀ v ∈ names, P v) → ∀ v ∈ names.foldl Merge.addRequired required, P v
  | [], _, hr, _ => hr
  | name :: names, required, hr, hn => by
    refine foldl_addRequired names (fun v hv => ?_) fun v hv => hn v (List.mem_cons_of_mem _ hv)
    unfold Merge.addRequired at hv
    split at hv
    · exact hr v hv
    · rcases List.mem_append.mp hv with hv | hv
      · exact hr v hv
      · exact hn v (List.mem_singleton.mp hv ▸ List.mem_cons_self ..)

variable {L}

theorem Merged.add {m : Merge} (hm : L.Merged m) {b : Value} (hb : L.after b) : Gives (m.add b) L.Merged := by
  cases b with
  | map branch =>
    have hes : ∀ e ∈ branch, L.entry e := L.map.mp hb
    have join (ps : Entries) (declares : Bool) (hps : ∀ p ∈ ps, L.property p) :
        Gives (do
          let names ← ((Entries.get? branch "required").getD (.list [])).elements
          return {
            schema := (branchKeys ++ ["description"]).foldl (Merge.adopt branch) m.schema
            properties := ps, declares
            required := names.foldl Merge.addRequired m.required : Merge }) L.Merged :=
      (L.requiredNames hes).bind fun vs hvs => .ok ⟨L.foldl_adopt_entry hes _ hm.schema, hps,
        foldl_addRequired vs hm.required hvs⟩
    simp only [Merge.add]
    split
    · rename_i more hmore
      exact (L.declared (hes _ (Entries.mem_of_get? hmore))).bind fun ps hps =>
        join _ true (L.putAll_property hm.properties hps)
    · exact join _ _ hm.properties
  | _ => exact .ok hm

theorem Merged.finish {m : Merge} (hm : L.Merged m) : ∀ e ∈ m.finish, L.entry e := by
  have htype : ∀ e ∈ (if m.declares || !(Entries.has m.schema "type") then
      Ordered.put (.text "type") (.text "object") m.schema else m.schema), L.entry e := by
    split
    · exact L.put_entry L.object hm.schema
    · exact hm.schema
  unfold Merge.finish
  simp only
  split
  · split
    · exact L.put_entry (L.properties hm.properties) htype
    · exact htype
  · refine L.put_entry (L.required hm.required) ?_
    split
    · exact L.put_entry (L.properties hm.properties) htype
    · exact htype

/-! ## Flattening -/

theorem isOneOf_text {names : List String} {name : String} :
    isOneOf names (.text name) = true ↔ name ∈ names :=
  List.contains_iff_mem

theorem compose_skip {kept es : List (Scalar × Value)} {k : Scalar} {v : Value} (hv : ∀ vs, v ≠ .list vs) :
    compose kept ((k, v) :: es) = compose kept es := by
  cases v with
  | list vs => exact absurd rfl (hv vs)
  | _ => rw [compose]; simp

variable (L)

mutual
/-- **What is kept in each part is kept by flattening.** -/
theorem flatten_after : ∀ {v : Value}, L.before v → Gives (flatten v) L.after
  | .map es, hv => by
    have hes : ∀ e ∈ es, L.given e := L.entries hv
    rw [flatten]
    exact (flattenEntries_entry hes).bind fun kept hk => (compose_entry hk hes).bind fun out ho =>
      .ok (L.map.mpr ho)
  | .list vs, hv => by rw [flatten]; exact .ok (L.other hv fun es h => by cases h); simp
  | .scalar s, hv => by rw [flatten]; exact .ok (L.other hv fun es h => by cases h); simp
  | .set ms, hv => by rw [flatten]; exact .ok (L.other hv fun es h => by cases h); simp
  | .pair a b, hv => by rw [flatten]; exact .ok (L.other hv fun es h => by cases h); simp

theorem flattenEntries_entry : ∀ {es : List (Scalar × Value)}, (∀ e ∈ es, L.given e) →
    Gives (flattenEntries es) (fun fs => ∀ f ∈ fs, L.entry f)
  | [], _ => .ok fun f hf => by cases hf
  | (k, v) :: es, h => by
    obtain ⟨hk, h⟩ := List.forall_mem_cons.mp h
    have ih := flattenEntries_entry h
    rw [flattenEntries]
    split
    · exact ih
    · rename_i hall
      have hno : k ≠ .text "allOf" := fun h => hall (Scalar.beq_text_iff.mpr h)
      have join {w : Value} (hw : L.entry (k, w)) : Gives (do return (k, w) :: (← flattenEntries es))
          (fun fs => ∀ f ∈ fs, L.entry f) :=
        ih.bind fun fs hfs => .ok (List.forall_mem_cons.mpr ⟨hw, hfs⟩)
      simp only
      split
      · rename_i hs
        exact (flatten_after (L.value hk)).bind fun w hw => join (L.single hk hno hs hw)
      · rename_i hs
        exact (flattenInside_entry hk hno hs).bind fun w hw => join hw

theorem flattenInside_entry : ∀ {k : Scalar} {v : Value}, L.given (k, v) → k ≠ .text "allOf" →
    ¬ isOneOf schemaKeys k = true → Gives (flattenInside k v) (fun w => L.entry (k, w))
  | k, .list vs, hk, hno, hs => by
    rw [flattenInside]
    split
    · rename_i hl
      exact (flattenItems_after (L.items (L.value hk))).bind fun ws hws => .ok (L.choice hk hno hl hws)
    · rename_i hl
      refine .ok (L.unchanged hk hno fun w hw => ?_)
      cases hw with
      | single h => exact hs (isOneOf_text.mpr h)
      | choice h _ => exact hl (isOneOf_text.mpr h)
  | k, .map es, hk, hno, hs => by
    rw [flattenInside]
    split
    · rename_i hp
      rw [Scalar.beq_text_iff.mp hp]
      exact (flattenValues_property (L.entries (L.value hk))).bind fun fs hfs => .ok (L.properties hfs)
    · rename_i hp
      refine .ok (L.unchanged hk hno fun w hw => ?_)
      cases hw with
      | property _ => exact hp (Scalar.beq_text_iff.mpr rfl)
      | single h => exact hs (isOneOf_text.mpr h)
  | k, .scalar _, hk, hno, hs => .ok (L.unchanged hk hno fun w hw => by
      cases hw with | single h => exact hs (isOneOf_text.mpr h))
  | k, .set _, hk, hno, hs => .ok (L.unchanged hk hno fun w hw => by
      cases hw with | single h => exact hs (isOneOf_text.mpr h))
  | k, .pair .., hk, hno, hs => .ok (L.unchanged hk hno fun w hw => by
      cases hw with | single h => exact hs (isOneOf_text.mpr h))

theorem flattenItems_after : ∀ {vs : List Value}, (∀ v ∈ vs, L.before v) →
    Gives (flattenItems vs) (fun ws => ∀ w ∈ ws, L.after w)
  | [], _ => .ok fun w hw => by cases hw
  | v :: vs, h => by
    obtain ⟨hv, h⟩ := List.forall_mem_cons.mp h
    rw [flattenItems]
    exact (flatten_after hv).bind fun w hw => (flattenItems_after h).bind fun ws hws =>
      .ok (List.forall_mem_cons.mpr ⟨hw, hws⟩)

theorem flattenValues_property : ∀ {es : List (Scalar × Value)}, (∀ e ∈ es, L.given e) →
    Gives (flattenValues es) (fun fs => ∀ f ∈ fs, L.property f)
  | [], _ => .ok fun f hf => by cases hf
  | (k, v) :: es, h => by
    obtain ⟨hk, h⟩ := List.forall_mem_cons.mp h
    rw [flattenValues]
    exact (flatten_after (L.value hk)).bind fun w hw => (flattenValues_property h).bind fun fs hfs =>
      .ok (List.forall_mem_cons.mpr ⟨L.member hk hw, hfs⟩)

theorem compose_entry : ∀ {kept es : List (Scalar × Value)}, (∀ e ∈ kept, L.entry e) → (∀ e ∈ es, L.given e) →
    Gives (compose kept es) (fun fs => ∀ f ∈ fs, L.entry f)
  | kept, [], hk, _ => by rw [compose]; exact .ok hk
  | kept, (k, .list vs) :: es, hk, h => by
    obtain ⟨hvs, h⟩ := List.forall_mem_cons.mp h
    rw [compose]
    split
    · exact (L.start_merged hk).bind fun m hm =>
        (mergeBranches_merged hm (L.items (L.value hvs))).bind fun m' hm' => .ok hm'.finish
    · exact compose_entry hk h
  | kept, (k, .map _) :: es, hk, h => by
    rw [compose_skip (by simp)]
    exact compose_entry hk (List.forall_mem_cons.mp h).2
  | kept, (k, .scalar _) :: es, hk, h => by
    rw [compose_skip (by simp)]
    exact compose_entry hk (List.forall_mem_cons.mp h).2
  | kept, (k, .set _) :: es, hk, h => by
    rw [compose_skip (by simp)]
    exact compose_entry hk (List.forall_mem_cons.mp h).2
  | kept, (k, .pair ..) :: es, hk, h => by
    rw [compose_skip (by simp)]
    exact compose_entry hk (List.forall_mem_cons.mp h).2

theorem mergeBranches_merged : ∀ {m : Merge} {vs : List Value}, L.Merged m → (∀ v ∈ vs, L.before v) →
    Gives (mergeBranches m vs) L.Merged
  | m, [], hm, _ => by rw [mergeBranches]; exact .ok hm
  | m, v :: vs, hm, h => by
    obtain ⟨hv, h⟩ := List.forall_mem_cons.mp h
    rw [mergeBranches]
    exact (flatten_after hv).bind fun b hb => (hm.add hb).bind fun m' hm' => mergeBranches_merged hm' h
end

end Law

end ToolServer.Schema
