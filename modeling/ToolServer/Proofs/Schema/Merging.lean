import ToolServer.Proofs.Document.Equality
import ToolServer.Proofs.Schema.Joining

/-!
# What merging gives

Branches that are merged into a schema, all with properties in a map and required names in a list. Of the properties
of one name the last one counts, of the other keys the first; names stand in the order in which they first came.
`merges_merged` says so for the schema that merging ends with.
-/

namespace ToolServer.Document

theorem Scalar.text_beq_iff {s : String} {k : Scalar} : (Scalar.text s == k) = true ↔ k = .text s :=
  ⟨fun h => (eq_of_text_beq h).symm, fun h => h ▸ beq_text_iff.mpr rfl⟩

theorem Entries.has_eq_isSome (es : Entries) (name : String) : es.has name = (es.get? name).isSome := by
  rw [Bool.eq_iff_iff, Option.isSome_iff_exists]
  exact Ordered.contains_iff

end ToolServer.Document

namespace ToolServer.Schema

open Document Ordered

/-! ## New elements -/

section
variable {α β : Type} [BEq α]

/-- A list, and after it what is new in another one, in order and each element once. -/
def withNew (l new : List α) : List α := l ++ (new.filter fun a => !l.contains a).eraseDups

def addNew (l : List α) (a : α) : List α := if l.contains a then l else l ++ [a]

theorem foldl_addNew : ∀ new l : List α, new.foldl addNew l = withNew l new
  | [], l => by simp [withNew]
  | a :: new, l => by
    rw [List.foldl_cons, foldl_addNew new, addNew, withNew, withNew]
    by_cases ha : l.contains a = true
    · rw [if_pos ha, List.filter_cons_of_neg (by simp [ha])]
    · have hsplit : (fun b => !(l ++ [a]).contains b) = fun b => (!b == a) && !l.contains b := by
        funext b
        rw [List.contains_append, List.contains_cons, List.contains_nil, Bool.or_false, Bool.not_or, Bool.and_comm]
      rw [if_neg ha, List.filter_cons_of_pos (by simpa using ha), List.eraseDups_cons, List.filter_filter, hsplit,
        List.append_assoc, List.singleton_append]

theorem keys_put [PartialEquivBEq α] (k : α) (v : β) : ∀ m : List (α × β),
    (put k v m).map (·.1) = addNew (m.map (·.1)) k
  | [] => rfl
  | (j, w) :: m => by
    have hsymm : (k == j) = (j == k) := by
      rw [Bool.eq_iff_iff]
      exact ⟨PartialEquivBEq.symm, PartialEquivBEq.symm⟩
    have ih := keys_put k v m
    unfold addNew at ih ⊢
    rw [put, List.map_cons, List.contains_cons, hsymm]
    by_cases hj : (j == k) = true
    · rw [if_pos hj, hj, Bool.true_or, if_pos rfl, List.map_cons]
    · rw [if_neg hj, List.map_cons, ih]
      simp only [Bool.not_eq_true] at hj
      rw [hj, Bool.false_or]
      split <;> rfl

theorem keys_putAll [PartialEquivBEq α] (more m : List (α × β)) :
    (putAll m more).map (·.1) = withNew (m.map (·.1)) (more.map (·.1)) := by
  rw [← foldl_addNew, List.foldl_map]
  refine (List.foldl_hom (List.map Prod.fst) ?_).symm
  exact fun m e => (keys_put e.1 e.2 m).symm

end

/-! ## Schemas to be merged -/

def propertiesOf (es : Entries) : Entries :=
  match Entries.get? es "properties" with
  | some (.map ps) => ps
  | _ => []

theorem has_of_properties {es : Entries} (h : propertiesOf es ≠ []) : Entries.has es "properties" = true := by
  rw [Entries.has_eq_isSome]
  unfold propertiesOf at h
  cases hget : Entries.get? es "properties" with
  | none => exact absurd (by rw [hget]) h
  | some v => rfl

def requiredOf (es : Entries) : List Value :=
  match Entries.get? es "required" with
  | some (.list vs) => vs
  | _ => []

/-- No key comes twice; properties are a map and required names a list, where they are given. -/
structure Shaped (es : Entries) : Prop where
  keys : Distinct es
  properties : ∀ v, Entries.get? es "properties" = some v → ∃ ps, v = .map ps ∧ Distinct ps
  required : ∀ v, Entries.get? es "required" = some v → ∃ vs, v = .list vs

def isMapping : Value → Bool
  | .map ps => decide (Distinct ps)
  | _ => false

def isList : Value → Bool
  | .list _ => true
  | _ => false

theorem shaped_iff {es : Entries} : Distinct es ∧ (Entries.get? es "properties").all isMapping = true ∧
    (Entries.get? es "required").all isList = true ↔ Shaped es := by
  rw [Option.all_eq_true, Option.all_eq_true]
  constructor
  · rintro ⟨hkeys, hproperties, hrequired⟩
    refine ⟨hkeys, fun v hv => ?_, fun v hv => ?_⟩
    · cases v with
      | map ps => exact ⟨ps, rfl, of_decide_eq_true (hproperties _ hv)⟩
      | _ => exact absurd (hproperties _ hv) Bool.false_ne_true
    · cases v with
      | list vs => exact ⟨vs, rfl⟩
      | _ => exact absurd (hrequired _ hv) Bool.false_ne_true
  · intro h
    refine ⟨h.keys, fun v hv => ?_, fun v hv => ?_⟩
    · obtain ⟨ps, rfl, hdistinct⟩ := h.properties v hv
      exact decide_eq_true hdistinct
    · obtain ⟨vs, rfl⟩ := h.required v hv
      rfl

instance (es : Entries) : Decidable (Shaped es) := decidable_of_iff _ shaped_iff

def mapsOf (bs : List Value) : List Entries := bs.filterMap fun
  | .map es => some es
  | _ => none

theorem mem_mapsOf {bs : List Value} {es : Entries} : es ∈ mapsOf bs ↔ .map es ∈ bs := by
  rw [mapsOf, List.mem_filterMap]
  constructor
  · rintro ⟨b, hb, h⟩
    split at h
    · cases h
      exact hb
    · cases h
  · exact fun h => ⟨_, h, rfl⟩

section
variable {es : Entries} (h : Shaped es)
include h

theorem Shaped.distinct_properties : Distinct (propertiesOf es) := by
  unfold propertiesOf
  split
  · rename_i ps hps
    obtain ⟨qs, hqs, hdistinct⟩ := h.properties _ hps
    exact Value.map.inj hqs ▸ hdistinct
  · exact List.Pairwise.nil

theorem Shaped.get?_properties : Entries.get? es "properties" =
    if Entries.has es "properties" then some (.map (propertiesOf es)) else none := by
  unfold propertiesOf
  rw [Entries.has_eq_isSome]
  cases hget : Entries.get? es "properties" with
  | none => rfl
  | some v =>
    obtain ⟨ps, rfl, -⟩ := h.properties v hget
    rfl

theorem Shaped.toEntries : ((Entries.get? es "properties").getD (.map [])).toEntries = .ok (propertiesOf es) := by
  unfold propertiesOf
  cases hget : Entries.get? es "properties" with
  | none => rfl
  | some v =>
    obtain ⟨ps, rfl, -⟩ := h.properties v hget
    rfl

theorem Shaped.elements : ((Entries.get? es "required").getD (.list [])).elements = .ok (requiredOf es) := by
  unfold requiredOf
  cases hget : Entries.get? es "required" with
  | none => rfl
  | some v =>
    obtain ⟨vs, rfl⟩ := h.required v hget
    rfl

end

namespace Merge

def begun (outer : Entries) : Merge where
  schema := outer
  properties := propertiesOf outer
  required := requiredOf outer
  declares := !(propertiesOf outer).isEmpty

def join (m : Merge) (branch : Entries) : Merge where
  schema := (branchKeys ++ ["description"]).foldl (adopt branch) m.schema
  properties := putAll m.properties (propertiesOf branch)
  required := (requiredOf branch).foldl addRequired m.required
  declares := m.declares || Entries.has branch "properties"

theorem start_eq {outer : Entries} (h : Shaped outer) : start outer = .ok (begun outer) :=
  bind_eq_ok_iff.mpr ⟨_, h.toEntries, bind_eq_ok_iff.mpr ⟨_, h.elements, rfl⟩⟩

theorem add_eq {branch : Entries} (h : Shaped branch) (m : Merge) : m.add (.map branch) = .ok (m.join branch) := by
  have hproperties := h.toEntries
  rw [add, join, Entries.has_eq_isSome]
  cases hget : Entries.get? branch "properties" with
  | none =>
    rw [hget] at hproperties
    rw [← Except.ok.inj hproperties]
    refine bind_eq_ok_iff.mpr ⟨_, rfl, bind_eq_ok_iff.mpr ⟨_, h.elements, ?_⟩⟩
    rw [Option.isSome_none, Bool.or_false]
    rfl
  | some more =>
    rw [hget] at hproperties
    refine bind_eq_ok_iff.mpr ⟨_, hproperties, bind_eq_ok_iff.mpr ⟨_, rfl, bind_eq_ok_iff.mpr ⟨_, h.elements, ?_⟩⟩⟩
    rw [Option.isSome_some, Bool.or_true]
    rfl

/-- Merging flattened branches succeeds, and only the maps among them count. -/
theorem foldlM_add : ∀ {bs : List Value}, (∀ es, .map es ∈ bs → Shaped es) → ∀ m : Merge,
    bs.foldlM add m = .ok ((mapsOf bs).foldl join m)
  | [], _, m => rfl
  | b :: bs, h, m => by
    have hbs : ∀ es, .map es ∈ bs → Shaped es := fun es hes => h es (List.mem_cons_of_mem _ hes)
    rw [List.foldlM_cons]
    cases b with
    | map es => exact bind_eq_ok_iff.mpr ⟨_, add_eq (h es (List.mem_cons_self ..)) m, foldlM_add hbs _⟩
    | _ => exact bind_eq_ok_iff.mpr ⟨m, rfl, foldlM_add hbs m⟩

/-! ## Properties and required names -/

theorem properties_join (branches : List Entries) (m : Merge) : (branches.foldl join m).properties =
    branches.foldl (fun ps b => putAll ps (propertiesOf b)) m.properties :=
  (List.foldl_hom properties fun _ _ => rfl).symm

theorem get?_properties_join (k : Scalar) : ∀ {branches : List Entries}, (∀ b ∈ branches, Shaped b) → ∀ m : Merge,
    Ordered.get? k (branches.foldl join m).properties =
      (branches.reverse.findSome? fun b => Ordered.get? k (propertiesOf b)).or (Ordered.get? k m.properties)
  | [], _, m => rfl
  | b :: branches, h, m => by
    obtain ⟨hb, hbranches⟩ := List.forall_mem_cons.mp h
    have hput : Ordered.get? k (m.join b).properties =
        (Ordered.get? k (propertiesOf b)).or (Ordered.get? k m.properties) :=
      get?_putAll_of_distinct k hb.distinct_properties
    rw [List.foldl_cons, get?_properties_join k hbranches, hput, List.reverse_cons, List.findSome?_append,
      List.findSome?_singleton, Option.or_assoc]

theorem keys_properties_join (branches : List Entries) (m : Merge) : (branches.foldl join m).properties.map (·.1) =
    withNew (m.properties.map (·.1)) (branches.flatMap fun b => (propertiesOf b).map (·.1)) := by
  rw [properties_join, ← foldl_addNew, List.foldl_flatMap]
  refine (List.foldl_hom (List.map Prod.fst) ?_).symm
  exact fun ps b => (foldl_addNew ..).trans (keys_putAll (propertiesOf b) ps).symm

theorem required_join (branches : List Entries) (m : Merge) : (branches.foldl join m).required =
    withNew m.required (branches.flatMap requiredOf) := by
  rw [← foldl_addNew, List.foldl_flatMap]
  exact (List.foldl_hom required fun _ _ => rfl).symm

theorem declares_join : ∀ (branches : List Entries) (m : Merge), (branches.foldl join m).declares =
    (m.declares || branches.any (Entries.has · "properties"))
  | [], m => (Bool.or_false _).symm
  | b :: branches, m => by
    rw [List.foldl_cons, declares_join branches, List.any_cons, ← Bool.or_assoc]
    rfl

/-! ## Other keys -/

theorem get?_adopt_text (branch schema : Entries) (name : String) (k : Scalar) :
    Ordered.get? k (adopt branch schema name) =
      if k = .text name then (Ordered.get? k schema).or (Ordered.get? k branch) else Ordered.get? k schema := by
  have happend (v : Value) : Ordered.get? k (schema ++ [(.text name, v)]) =
      (Ordered.get? k schema).or (if k = .text name then some v else none) := by
    rw [Ordered.get?_append, Ordered.get?, Ordered.get?]
    simp only [Scalar.text_beq_iff]
  unfold adopt
  rw [Entries.has_eq_isSome]
  by_cases hk : k = .text name
  · subst hk
    rw [if_pos rfl]
    cases hbranch : Entries.get? branch name with
    | none => rw [show Ordered.get? (.text name) branch = none from hbranch, Option.or_none]
    | some v =>
      rw [show Ordered.get? (.text name) branch = some v from hbranch]
      dsimp only
      split
      · rename_i hsome
        obtain ⟨w, hw⟩ := Option.isSome_iff_exists.mp hsome
        rw [show Ordered.get? (.text name) schema = some w from hw]
        rfl
      · rw [happend, if_pos rfl]
  · rw [if_neg hk]
    split
    · split
      · rfl
      · rw [happend, if_neg hk, Option.or_none]
    · rfl

theorem get?_foldl_adopt_text (branch : Entries) (k : Scalar) : ∀ (words : List String) (schema : Entries),
    Ordered.get? k (words.foldl (adopt branch) schema) =
      if isOneOf words k then (Ordered.get? k schema).or (Ordered.get? k branch) else Ordered.get? k schema
  | [], schema => by cases k <;> rfl
  | word :: words, schema => by
    have hcons : isOneOf (word :: words) k = (k == .text word || isOneOf words k) := by
      cases k <;> rfl
    rw [List.foldl_cons, get?_foldl_adopt_text branch k words, get?_adopt_text, hcons]
    by_cases hk : k = .text word
    · rw [if_pos hk, Scalar.beq_text_iff.mpr hk, Bool.true_or, if_pos rfl]
      split
      · rw [Option.or_assoc, Option.or_self]
      · rfl
    · have hne : (k == .text word) = false := by
        rw [← Bool.not_eq_true, Scalar.beq_text_iff]
        exact hk
      rw [if_neg hk, hne, Bool.false_or]

theorem get?_schema_join (k : Scalar) : ∀ (branches : List Entries) (m : Merge),
    Ordered.get? k (branches.foldl join m).schema =
      if isOneOf (branchKeys ++ ["description"]) k then
        (m.schema :: branches).findSome? (Ordered.get? k ·) else Ordered.get? k m.schema
  | [], m => by
    rw [List.foldl_nil, List.findSome?_singleton, ite_self]
  | b :: branches, m => by
    have hjoin : Ordered.get? k (m.join b).schema = if isOneOf (branchKeys ++ ["description"]) k then
        (Ordered.get? k m.schema).or (Ordered.get? k b) else Ordered.get? k m.schema :=
      get?_foldl_adopt_text b k _ m.schema
    rw [List.foldl_cons, get?_schema_join k branches, List.findSome?_cons, List.findSome?_cons, List.findSome?_cons,
      hjoin]
    split
    · cases Ordered.get? k m.schema <;> rfl
    · rfl

theorem get?_finish (m : Merge) (k : Scalar) : Ordered.get? k m.finish =
    if ¬ m.required = [] ∧ k = .text "required" then some (.list m.required)
    else if m.declares = true ∧ k = .text "properties" then some (.map m.properties)
    else if (m.declares = true ∨ Entries.get? m.schema "type" = none) ∧ k = .text "type" then some (.text "object")
    else Ordered.get? k m.schema := by
  have hput (c : Prop) [Decidable c] (name : String) (v : Value) (es : Entries) :
      Ordered.get? k (if c then put (.text name) v es else es) =
        if c ∧ k = .text name then some v else Ordered.get? k es := by
    split
    · rename_i hc
      rw [get?_put]
      simp only [Scalar.text_beq_iff, hc, true_and]
    · rename_i hc
      simp only [hc, false_and, if_false]
  unfold finish
  dsimp only
  rw [← ite_not, hput, hput, hput, Entries.has_eq_isSome]
  simp only [List.isEmpty_iff, Bool.or_eq_true, Bool.not_eq_true', Option.isSome_eq_false_iff,
    Option.isNone_iff_eq_none]

theorem get?_finish_required (m : Merge) : Entries.get? m.finish "required" =
    if m.required = [] then Entries.get? m.schema "required" else some (.list m.required) :=
  (get?_finish m (.text "required")).trans (by simp [Entries.get?])

theorem get?_finish_properties (m : Merge) : Entries.get? m.finish "properties" =
    if m.declares = true then some (.map m.properties) else Entries.get? m.schema "properties" :=
  (get?_finish m (.text "properties")).trans (by simp [Entries.get?])

theorem get?_finish_type (m : Merge) : Entries.get? m.finish "type" =
    if m.declares = true ∨ Entries.get? m.schema "type" = none then some (.text "object")
    else Entries.get? m.schema "type" := by
  refine (get?_finish m (.text "type")).trans ?_
  rw [if_neg (by simp), if_neg (by simp)]
  exact if_congr (and_iff_left rfl) rfl rfl

theorem get?_finish_other (m : Merge) {k : Scalar} (hk : ∀ name ∈ ["required", "properties", "type"], k ≠ .text name) :
    Ordered.get? k m.finish = Ordered.get? k m.schema := by
  rw [get?_finish, if_neg fun h => hk _ (by decide) h.2, if_neg fun h => hk _ (by decide) h.2,
    if_neg fun h => hk _ (by decide) h.2]

/-! ## Keys -/

theorem distinct_foldl_adopt (branch : Entries) : ∀ (words : List String) {schema : Entries}, Distinct schema →
    Distinct (words.foldl (adopt branch) schema)
  | [], _, h => h
  | word :: words, schema, h => by
    refine distinct_foldl_adopt branch words ?_
    unfold adopt
    split
    · split
      · exact h
      · rename_i hfree
        refine List.pairwise_append.mpr ⟨h, List.pairwise_singleton .., fun e he f hf => ?_⟩
        obtain rfl := List.mem_singleton.mp hf
        rw [← Bool.not_eq_true]
        exact fun heq => hfree (List.any_eq_true.mpr ⟨e, he, heq⟩)
    · exact h

theorem distinct_join : ∀ (branches : List Entries) {m : Merge}, Distinct m.schema →
    Distinct (branches.foldl join m).schema
  | [], _, h => h
  | b :: branches, _, h => distinct_join branches (distinct_foldl_adopt b _ h)

theorem distinct_finish {m : Merge} (h : Distinct m.schema) : Distinct m.finish := by
  have hput (c : Prop) [Decidable c] (name : String) (v : Value) {es : Entries} (hes : Distinct es) :
      Distinct (if c then put (.text name) v es else es) := by
    split
    · exact distinct_put _ v hes
    · exact hes
  unfold finish
  dsimp only
  rw [← ite_not]
  exact hput _ _ _ (hput _ _ _ (hput _ _ _ h))

theorem distinct_properties_join : ∀ (branches : List Entries) {m : Merge}, Distinct m.properties →
    Distinct (branches.foldl join m).properties
  | [], _, h => h
  | b :: branches, _, h => distinct_properties_join branches (distinct_putAll (propertiesOf b) h)

/-- Where no properties are declared there are none. -/
theorem properties_eq_nil : ∀ (branches : List Entries) {m : Merge}, (m.declares = false → m.properties = []) →
    (branches.foldl join m).declares = false → (branches.foldl join m).properties = []
  | [], _, hm, h => hm h
  | b :: branches, m, hm, h => by
    refine properties_eq_nil branches (fun hjoin => ?_) h
    obtain ⟨hdeclares, hno⟩ := Bool.or_eq_false_iff.mp hjoin
    have hb : propertiesOf b = [] := by
      rw [Entries.has_eq_isSome, Option.isSome_eq_false_iff, Option.isNone_iff_eq_none] at hno
      unfold propertiesOf
      rw [hno]
    show putAll m.properties (propertiesOf b) = []
    rw [hm hdeclares, hb]
    rfl

end Merge

/-! ## The merged schema -/

/-- What makes a merged schema an object: it has properties, a branch declares some, or no type was given. -/
def MadeObject (outer : Entries) (branches : List Entries) : Prop :=
  propertiesOf outer ≠ [] ∨ (∃ b ∈ branches, Entries.has b "properties" = true) ∨
    ∀ b ∈ outer :: branches, Entries.get? b "type" = none

def mergedKeys : List String := ["properties", "required"] ++ (branchKeys ++ ["description"])

structure Merges (outer : Entries) (branches : List Entries) (out : Entries) : Prop where
  property : ∀ k, get? k (propertiesOf out) =
    (branches.reverse.findSome? fun b => get? k (propertiesOf b)).or (get? k (propertiesOf outer))
  names : (propertiesOf out).map (·.1) =
    withNew ((propertiesOf outer).map (·.1)) (branches.flatMap fun b => (propertiesOf b).map (·.1))
  properties : Entries.get? out "properties" =
    if (outer :: branches).any (Entries.has · "properties") then some (.map (propertiesOf out)) else none
  required : Entries.get? out "required" =
    if withNew (requiredOf outer) (branches.flatMap requiredOf) = [] then Entries.get? outer "required"
    else some (.list (withNew (requiredOf outer) (branches.flatMap requiredOf)))
  object : MadeObject outer branches → Entries.get? out "type" = some (.text "object")
  type : ¬ MadeObject outer branches →
    Entries.get? out "type" = (outer :: branches).findSome? (Entries.get? · "type")
  given : ∀ name ∈ branchKeys ++ ["description"], name ≠ "type" →
    Entries.get? out name = (outer :: branches).findSome? (Entries.get? · name)
  kept : ∀ k, isOneOf mergedKeys k = false → get? k out = get? k outer
  distinct : Distinct out

namespace Merge

def merged (outer : Entries) (branches : List Entries) : Merge := branches.foldl join (begun outer)

section
variable (outer : Entries) (branches : List Entries)

theorem merged_declares : (merged outer branches).declares = true ↔
    propertiesOf outer ≠ [] ∨ ∃ b ∈ branches, Entries.has b "properties" = true := by
  rw [merged, declares_join, Bool.or_eq_true, List.any_eq_true]
  refine or_congr_left ?_
  simp [begun]

theorem any_of_declares (h : (merged outer branches).declares = true) :
    (outer :: branches).any (Entries.has · "properties") = true := by
  rw [List.any_cons]
  rcases (merged_declares outer branches).mp h with hne | hb
  · rw [has_of_properties hne, Bool.true_or]
  · rw [List.any_eq_true.mpr hb, Bool.or_true]

theorem merged_schema (k : Scalar) : Ordered.get? k (merged outer branches).schema =
    if isOneOf (branchKeys ++ ["description"]) k then (outer :: branches).findSome? (Ordered.get? k ·)
    else Ordered.get? k outer :=
  get?_schema_join k branches (begun outer)

theorem merged_schema_of_mem {name : String} (h : name ∈ branchKeys ++ ["description"]) :
    Entries.get? (merged outer branches).schema name = (outer :: branches).findSome? (Entries.get? · name) :=
  (merged_schema outer branches (.text name)).trans (if_pos (Law.isOneOf_text.mpr h))

theorem merged_schema_of_not_mem {name : String} (h : name ∉ branchKeys ++ ["description"]) :
    Entries.get? (merged outer branches).schema name = Entries.get? outer name :=
  (merged_schema outer branches (.text name)).trans (if_neg (mt Law.isOneOf_text.mp h))

theorem merged_properties (h : (merged outer branches).declares = false) :
    (merged outer branches).properties = [] :=
  properties_eq_nil branches (by simp [begun]) h

theorem get?_properties_finish {outer : Entries} (houter : Shaped outer) (branches : List Entries) :
    Entries.get? (merged outer branches).finish "properties" =
      if (outer :: branches).any (Entries.has · "properties") then some (.map (merged outer branches).properties)
      else none := by
  have hfinish : Entries.get? (merged outer branches).finish "properties" =
      if (merged outer branches).declares then some (.map (merged outer branches).properties)
      else Entries.get? outer "properties" := by
    rw [get?_finish_properties, merged_schema_of_not_mem _ _ (by decide)]
  rw [hfinish]
  cases hdeclares : (merged outer branches).declares with
  | true =>
    rw [any_of_declares outer branches hdeclares]
    rfl
  | false =>
    have hno := mt (merged_declares outer branches).mpr (by rw [hdeclares]; exact Bool.false_ne_true)
    obtain ⟨hempty, hbranches⟩ := not_or.mp hno
    have hany : branches.any (Entries.has · "properties") = false := by
      rw [← Bool.not_eq_true, List.any_eq_true]
      exact hbranches
    rw [List.any_cons, hany, Bool.or_false, merged_properties outer branches hdeclares, houter.get?_properties,
      not_not.mp hempty]
    rfl

theorem propertiesOf_finish {outer : Entries} (houter : Shaped outer) (branches : List Entries) :
    propertiesOf (merged outer branches).finish = (merged outer branches).properties := by
  unfold propertiesOf
  rw [get?_properties_finish houter]
  cases hdeclares : (merged outer branches).declares with
  | true =>
    rw [any_of_declares outer branches hdeclares]
    rfl
  | false =>
    rw [merged_properties outer branches hdeclares]
    split
    · rename_i ps hps
      split at hps
      · exact (Value.map.inj (Option.some.inj hps)).symm
      · cases hps
    · rfl

theorem get?_type_finish : Entries.get? (merged outer branches).finish "type" =
    if (merged outer branches).declares = true ∨ (outer :: branches).findSome? (Entries.get? · "type") = none then
      some (.text "object") else (outer :: branches).findSome? (Entries.get? · "type") := by
  rw [get?_finish_type, merged_schema_of_mem _ _ (by decide)]

theorem madeObject_iff : MadeObject outer branches ↔ (merged outer branches).declares = true ∨
    (outer :: branches).findSome? (Entries.get? · "type") = none := by
  rw [merged_declares, List.findSome?_eq_none_iff, or_assoc]
  rfl

end

/-- **What merging ends with.** -/
theorem merges_merged {outer : Entries} {branches : List Entries} (houter : Shaped outer)
    (hbranches : ∀ b ∈ branches, Shaped b) : Merges outer branches (merged outer branches).finish where
  property k := by
    rw [propertiesOf_finish houter]
    exact get?_properties_join k hbranches (begun outer)
  names := by
    rw [propertiesOf_finish houter]
    exact keys_properties_join branches (begun outer)
  properties := by
    rw [propertiesOf_finish houter]
    exact get?_properties_finish houter branches
  required := by
    have hrequired : (merged outer branches).required = withNew (requiredOf outer) (branches.flatMap requiredOf) :=
      required_join branches (begun outer)
    rw [get?_finish_required, hrequired, merged_schema_of_not_mem _ _ (by decide)]
  object h := by
    rw [get?_type_finish, if_pos ((madeObject_iff outer branches).mp h)]
  type h := by
    rw [get?_type_finish, if_neg (mt (madeObject_iff outer branches).mpr h)]
  given name hname htype := by
    have hother : ∀ n ∈ ["required", "properties", "type"], Scalar.text name ≠ .text n := by
      rintro n hn hn'
      obtain rfl := Scalar.text.inj hn'
      have hapart : ∀ n ∈ ["required", "properties", "type"], n ∈ branchKeys ++ ["description"] → n = "type" := by
        decide
      exact htype (hapart name hn hname)
    exact (get?_finish_other _ hother).trans (merged_schema_of_mem _ _ hname)
  kept k hk := by
    have hmerged : ∀ n ∈ mergedKeys, k ≠ .text n := by
      rintro n hn rfl
      rw [Law.isOneOf_text.mpr hn] at hk
      cases hk
    have hadopted : ¬ isOneOf (branchKeys ++ ["description"]) k = true := by
      intro h
      cases k with
      | text name => exact hmerged name (List.mem_append_right _ (Law.isOneOf_text.mp h)) rfl
      | _ => cases h
    rw [get?_finish_other _ fun n hn => hmerged n (by revert n; decide), merged_schema, if_neg hadopted]
  distinct := distinct_finish (distinct_join branches houter.keys)

/-- A merged schema can be merged again. -/
theorem shaped_merged {outer : Entries} {branches : List Entries} (houter : Shaped outer)
    (hbranches : ∀ b ∈ branches, Shaped b) : Shaped (merged outer branches).finish where
  keys := (merges_merged houter hbranches).distinct
  properties v hv := by
    rw [get?_properties_finish houter] at hv
    split at hv
    · cases hv
      exact ⟨_, rfl, distinct_properties_join branches houter.distinct_properties⟩
    · cases hv
  required v hv := by
    rw [(merges_merged houter hbranches).required] at hv
    split at hv
    · exact houter.required v hv
    · cases hv
      exact ⟨_, rfl⟩

end Merge

end ToolServer.Schema
