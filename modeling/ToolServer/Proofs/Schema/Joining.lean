import ToolServer.Proofs.Schema.Flattening

/-!
# Schemas that can be flattened

Where schemas are joined, what stands under `properties` has to be a map or pairs, and what stands under `required`
has to have elements. `flatten_isOk`: nothing else stands in the way of flattening.
-/

namespace ToolServer.Document.Entries

theorem get?_cons (k : Scalar) (v : Value) (es : Entries) (name : String) :
    get? ((k, v) :: es) name = if k = .text name then some v else get? es name := by
  by_cases hk : k = .text name
  · rw [if_pos hk]
    exact if_pos (Scalar.beq_text_iff.mpr hk)
  · rw [if_neg hk]
    exact if_neg fun h => hk (Scalar.beq_text_iff.mp h)

theorem get?_put (word : String) (v : Value) (name : String) : ∀ es : Entries,
    get? (Ordered.put (.text word) v es) name = if word = name then some v else get? es name
  | [] => by
    rw [Ordered.put, get?_cons]
    simp only [Scalar.text.injEq]
  | (k, w) :: es => by
    rw [Ordered.put]
    by_cases hk : k = .text word
    · rw [if_pos (Scalar.beq_text_iff.mpr hk), get?_cons, get?_cons, hk]
      by_cases h : word = name
      · simp [h]
      · simp [h]
    · rw [if_neg fun h => hk (Scalar.beq_text_iff.mp h), get?_cons, get?_cons, get?_put word v name es]
      by_cases h : word = name
      · subst h
        simp [hk]
      · simp [h]

theorem get?_append_of_ne {word name : String} (h : word ≠ name) (v : Value) (es : Entries) :
    get? (es ++ [(.text word, v)]) name = get? es name := by
  have hnone : Ordered.get? (Scalar.text name) [(Scalar.text word, v)] = none :=
    if_neg fun hw => h (Scalar.text.inj (Scalar.eq_of_text_beq hw))
  have happend := Ordered.get?_append (Scalar.text name) es [(Scalar.text word, v)]
  rwa [hnone, Option.or_none] at happend

end ToolServer.Document.Entries

namespace ToolServer.Schema

open Document

/-! ## Schemas that are joined -/

def branchesOf? : Entries → Option (List Value)
  | [] => none
  | (k, .list vs) :: es => if k == .text "allOf" then some vs else branchesOf? es
  | _ :: es => branchesOf? es

theorem branchesOf?_skip {es : Entries} {k : Scalar} {v : Value} (hv : ∀ vs, v ≠ .list vs) :
    branchesOf? ((k, v) :: es) = branchesOf? es := by
  cases v with
  | list vs => exact absurd rfl (hv vs)
  | _ => rfl

inductive Inside (es : Entries) : Value → Prop
  | held {e v} : e ∈ es → Holds e v → Inside es v
  | branch {vs v} : branchesOf? es = some vs → v ∈ vs → Inside es v

/-- Flattening a value joins a schema with others: with its branches, or as a branch. -/
inductive Joined : Value → Entries → Prop
  | composed {es vs} : branchesOf? es = some vs → Joined (.map es) es
  | branch {es vs b} : branchesOf? es = some vs → .map b ∈ vs → Joined (.map es) b
  | inner {es v b} : Inside es v → Joined v b → Joined (.map es) b

/-- The properties of a schema can be listed, and so can its required names. -/
structure Joinable (es : Entries) : Prop where
  properties : ∀ v, Entries.get? es "properties" = some v → ∃ ps, v.toEntries = .ok ps
  required : ∀ v, Entries.get? es "required" = some v → ∃ vs, v.elements = .ok vs

def Flattens (v : Value) : Prop := ∀ es, Joined v es → Joinable es

def JoinsAs (v : Value) : Prop := ∀ es, v = .map es → Joinable es

theorem joinsAs_map_iff {es : Entries} : JoinsAs (.map es) ↔ Joinable es :=
  ⟨fun h => h es rfl, fun h _ hfs => Value.map.inj hfs ▸ h⟩

theorem flattens_of_no_map {v : Value} (hv : ∀ es, v ≠ .map es) : Flattens v := by
  intro es h
  cases h with
  | composed => exact absurd rfl (hv _)
  | branch => exact absurd rfl (hv _)
  | inner => exact absurd rfl (hv _)

theorem flattens_map_iff {es : Entries} : Flattens (.map es) ↔
    (∀ e ∈ es, ∀ v, Holds e v → Flattens v) ∧
      ∀ vs, branchesOf? es = some vs → Joinable es ∧ ∀ v ∈ vs, Flattens v ∧ JoinsAs v := by
  constructor
  · intro h
    refine ⟨fun e he v hv b hb => h b (.inner (.held he hv) hb), fun vs hvs => ⟨h es (.composed hvs), fun v hv => ?_⟩⟩
    exact ⟨fun b hb => h b (.inner (.branch hvs hv) hb), fun b hb => h b (.branch hvs (hb ▸ hv))⟩
  · rintro ⟨hheld, hbranches⟩ b hb
    cases hb with
    | composed hvs => exact (hbranches _ hvs).1
    | branch hvs hb => exact ((hbranches _ hvs).2 _ hb).2 b rfl
    | inner hin hb =>
      cases hin with
      | held he hv => exact hheld _ he _ hv b hb
      | branch hvs hv => exact ((hbranches _ hvs).2 _ hv).1 b hb

/-! ## Merging -/

theorem joinable_congr {es fs : Entries}
    (hproperties : Entries.get? fs "properties" = Entries.get? es "properties")
    (hrequired : Entries.get? fs "required" = Entries.get? es "required") : Joinable fs ↔ Joinable es :=
  ⟨fun h => ⟨fun v hv => h.properties v (hproperties.trans hv), fun v hv => h.required v (hrequired.trans hv)⟩,
    fun h => ⟨fun v hv => h.properties v (hproperties.symm.trans hv),
      fun v hv => h.required v (hrequired.symm.trans hv)⟩⟩

section
variable {α : Type} {f : Value → Except Fault α} {es : Entries} {name : String}

/-- What is done with a value under a name, or with one in its place, succeeds if it does with what is there. -/
theorem getD_isOk {d : Value} (hd : ∃ a, f d = .ok a) : (∃ a, f ((Entries.get? es name).getD d) = .ok a) ↔
    ∀ v, Entries.get? es name = some v → ∃ a, f v = .ok a := by
  cases Entries.get? es name with
  | none => exact ⟨fun _ v hv => (by cases hv), fun _ => hd⟩
  | some v => exact ⟨fun h w hw => Option.some.inj hw ▸ h, fun h => h v rfl⟩

end

theorem declared_isOk {es : Entries} : (∃ ps, ((Entries.get? es "properties").getD (.map [])).toEntries = .ok ps) ↔
    ∀ v, Entries.get? es "properties" = some v → ∃ ps, v.toEntries = .ok ps :=
  getD_isOk ⟨[], rfl⟩

theorem required_isOk {es : Entries} : (∃ vs, ((Entries.get? es "required").getD (.list [])).elements = .ok vs) ↔
    ∀ v, Entries.get? es "required" = some v → ∃ vs, v.elements = .ok vs :=
  getD_isOk ⟨[], rfl⟩

theorem start_isOk {es : Entries} : (∃ m, Merge.start es = .ok m) ↔ Joinable es := by
  rw [Merge.start, exists_bind_ok_iff]
  constructor
  · rintro ⟨ps, hps, h⟩
    exact ⟨declared_isOk.mp ⟨ps, hps⟩, required_isOk.mp (exists_map_ok_iff.mp h)⟩
  · intro h
    obtain ⟨ps, hps⟩ := declared_isOk.mpr h.properties
    exact ⟨ps, hps, exists_map_ok_iff.mpr (required_isOk.mpr h.required)⟩

theorem start_schema {es : Entries} {m : Merge} (h : Merge.start es = .ok m) : m.schema = es := by
  obtain ⟨ps, -, h⟩ := bind_eq_ok_iff.mp h
  obtain ⟨names, -, h⟩ := bind_eq_ok_iff.mp h
  cases h
  rfl

theorem add_isOk {m : Merge} {b : Value} : (∃ m', m.add b = .ok m') ↔ JoinsAs b := by
  cases b with
  | map es =>
    rw [joinsAs_map_iff, Merge.add]
    cases hmore : Entries.get? es "properties" with
    | none =>
      refine exists_map_ok_iff.trans (required_isOk.trans ⟨fun h => ⟨fun v hv => ?_, h⟩, Joinable.required⟩)
      rw [hmore] at hv
      cases hv
    | some more =>
      have hproperties : (∃ ps, more.toEntries = .ok ps) ↔
          ∀ v, Entries.get? es "properties" = some v → ∃ ps, v.toEntries = .ok ps := by
        rw [hmore]
        exact ⟨fun h w hw => Option.some.inj hw ▸ h, fun h => h more rfl⟩
      rw [exists_bind_ok_iff]
      constructor
      · rintro ⟨ps, hps, h⟩
        exact ⟨hproperties.mp ⟨ps, hps⟩, required_isOk.mp (exists_map_ok_iff.mp h)⟩
      · intro h
        obtain ⟨ps, hps⟩ := hproperties.mpr h.properties
        exact ⟨ps, hps, exists_map_ok_iff.mpr (required_isOk.mpr h.required)⟩
  | _ => exact ⟨fun _ es hes => (by cases hes), fun _ => ⟨m, rfl⟩⟩

/-! ## What merging leaves alone -/

theorem get?_adopt (branch schema : Entries) {word name : String} (h : word ≠ name) :
    Entries.get? (Merge.adopt branch schema word) name = Entries.get? schema name := by
  unfold Merge.adopt
  split
  · split
    · rfl
    · exact Entries.get?_append_of_ne h _ schema
  · rfl

theorem get?_foldl_adopt (branch : Entries) {name : String} : ∀ (words : List String) (schema : Entries),
    name ∉ words → Entries.get? (words.foldl (Merge.adopt branch) schema) name = Entries.get? schema name
  | [], _, _ => rfl
  | word :: words, schema, h => by
    obtain ⟨hne, h⟩ := not_or.mp (List.mem_cons.not.mp h)
    rw [List.foldl_cons, get?_foldl_adopt branch words _ h, get?_adopt branch schema (Ne.symm hne)]

theorem add_schema {m m' : Merge} {b : Value} (h : m.add b = .ok m') :
    m'.schema = m.schema ∨
      ∃ branch, m'.schema = (branchKeys ++ ["description"]).foldl (Merge.adopt branch) m.schema := by
  cases b with
  | map branch =>
    rw [Merge.add] at h
    refine .inr ⟨branch, ?_⟩
    split at h
    · obtain ⟨ps, -, h⟩ := bind_eq_ok_iff.mp h
      obtain ⟨declared, -, h⟩ := bind_eq_ok_iff.mp h
      obtain ⟨names, -, h⟩ := bind_eq_ok_iff.mp h
      cases h
      rfl
    · obtain ⟨declared, -, h⟩ := bind_eq_ok_iff.mp h
      obtain ⟨names, -, h⟩ := bind_eq_ok_iff.mp h
      cases h
      rfl
  | _ =>
    cases h
    exact .inl rfl

theorem mergeBranches_schema {Q : Entries → Prop} (hadopt : ∀ branch schema,
    Q ((branchKeys ++ ["description"]).foldl (Merge.adopt branch) schema) ↔ Q schema) :
    ∀ {vs : List Value} {m m' : Merge}, mergeBranches m vs = .ok m' → (Q m'.schema ↔ Q m.schema)
  | [], m, m', h => by
    rw [mergeBranches] at h
    cases h
    exact Iff.rfl
  | v :: vs, m, m', h => by
    rw [mergeBranches] at h
    obtain ⟨b, -, h⟩ := bind_eq_ok_iff.mp h
    obtain ⟨n, hn, h⟩ := bind_eq_ok_iff.mp h
    refine (mergeBranches_schema hadopt h).trans ?_
    rcases add_schema hn with hn | ⟨branch, hn⟩
    · rw [hn]
    · rw [hn]
      exact hadopt branch m.schema

theorem joinable_foldl_adopt (branch schema : Entries) :
    Joinable ((branchKeys ++ ["description"]).foldl (Merge.adopt branch) schema) ↔ Joinable schema :=
  joinable_congr (get?_foldl_adopt branch _ schema (by decide)) (get?_foldl_adopt branch _ schema (by decide))

theorem joinable_put_properties {es : Entries} (h : Joinable es) (ps : Entries) :
    Joinable (Ordered.put (.text "properties") (.map ps) es) where
  properties v hv := by
    rw [Entries.get?_put, if_pos rfl] at hv
    cases hv
    exact ⟨ps, rfl⟩
  required v hv := by
    rw [Entries.get?_put, if_neg (by decide)] at hv
    exact h.required v hv

theorem joinable_put_required {es : Entries} (h : Joinable es) (vs : List Value) :
    Joinable (Ordered.put (.text "required") (.list vs) es) where
  properties v hv := by
    rw [Entries.get?_put, if_neg (by decide)] at hv
    exact h.properties v hv
  required v hv := by
    rw [Entries.get?_put, if_pos rfl] at hv
    cases hv
    exact ⟨vs, rfl⟩

theorem joinable_finish {m : Merge} (h : Joinable m.schema) : Joinable m.finish := by
  have htype : Joinable (if m.declares || !(Entries.has m.schema "type") then
      Ordered.put (.text "type") (.text "object") m.schema else m.schema) := by
    split
    · refine (joinable_congr ?_ ?_).mpr h
      · rw [Entries.get?_put, if_neg (by decide)]
      · rw [Entries.get?_put, if_neg (by decide)]
    · exact h
  have hproperties (es : Entries) (hes : Joinable es) :
      Joinable (if m.declares then Ordered.put (.text "properties") (.map m.properties) es else es) := by
    split
    · exact joinable_put_properties hes _
    · exact hes
  unfold Merge.finish
  dsimp only
  split
  · exact hproperties _ htype
  · exact joinable_put_required (hproperties _ htype) _

/-! ## Flattened entries -/

def flattenUnder (k : Scalar) (v : Value) : Except Fault Value :=
  if isOneOf schemaKeys k then flatten v else flattenInside k v

theorem flattenEntries_cons {k : Scalar} (hk : k ≠ .text "allOf") (v : Value) (es : Entries) :
    flattenEntries ((k, v) :: es) = do
      let w ← flattenUnder k v
      let rest ← flattenEntries es
      return (k, w) :: rest := by
  rw [flattenEntries, if_neg fun h => hk (Scalar.beq_text_iff.mp h), flattenUnder]
  dsimp only
  split <;> rfl

theorem flattenInside_properties {v w : Value} (h : flattenInside (.text "properties") v = .ok w) :
    (∃ ps, w.toEntries = .ok ps) ↔ ∃ ps, v.toEntries = .ok ps := by
  cases v with
  | map es =>
    rw [flattenInside, if_pos (Scalar.beq_text_iff.mpr rfl)] at h
    obtain ⟨fs, -, h⟩ := bind_eq_ok_iff.mp h
    cases h
    exact ⟨fun _ => ⟨es, rfl⟩, fun _ => ⟨fs, rfl⟩⟩
  | list vs =>
    rw [flattenInside, if_neg (by decide)] at h
    cases h
    exact Iff.rfl
  | _ =>
    cases h
    exact Iff.rfl

theorem flattenInside_required {v w : Value} (h : flattenInside (.text "required") v = .ok w) : w = v := by
  cases v with
  | map es =>
    rw [flattenInside, if_neg (by decide)] at h
    cases h
    rfl
  | list vs =>
    rw [flattenInside, if_neg (by decide)] at h
    cases h
    rfl
  | _ =>
    cases h
    rfl

theorem get?_flattenEntries (name : String) (hname : name ≠ "allOf")
    (hkey : isOneOf schemaKeys (.text name) = false) : ∀ {es fs : Entries}, flattenEntries es = .ok fs →
      Entries.get? es name = none ∧ Entries.get? fs name = none ∨
        ∃ v w, Entries.get? es name = some v ∧ Entries.get? fs name = some w ∧ flattenInside (.text name) v = .ok w
  | [], fs, h => by
    cases h
    exact .inl ⟨rfl, rfl⟩
  | (k, v) :: es, fs, h => by
    by_cases hk : k = .text "allOf"
    · subst hk
      rw [flattenEntries, if_pos (Scalar.beq_text_iff.mpr rfl)] at h
      rw [Entries.get?_cons, if_neg fun he => hname (Scalar.text.inj he).symm]
      exact get?_flattenEntries name hname hkey h
    · rw [flattenEntries_cons hk] at h
      obtain ⟨w, hw, h⟩ := bind_eq_ok_iff.mp h
      obtain ⟨rest, hrest, h⟩ := bind_eq_ok_iff.mp h
      cases h
      rw [Entries.get?_cons, Entries.get?_cons]
      by_cases hk : k = .text name
      · rw [if_pos hk, if_pos hk]
        rw [hk, flattenUnder, if_neg (by simp [hkey])] at hw
        exact .inr ⟨v, w, rfl, rfl, hw⟩
      · rw [if_neg hk, if_neg hk]
        exact get?_flattenEntries name hname hkey hrest

theorem joinable_flattenEntries {es fs : Entries} (h : flattenEntries es = .ok fs) : Joinable fs ↔ Joinable es := by
  have hproperties : (∀ v, Entries.get? fs "properties" = some v → ∃ ps, v.toEntries = .ok ps) ↔
      ∀ v, Entries.get? es "properties" = some v → ∃ ps, v.toEntries = .ok ps := by
    rcases get?_flattenEntries "properties" (by decide) (by decide) h with ⟨he, hf⟩ | ⟨v, w, he, hf, hw⟩
    · simp [he, hf]
    · rw [he, hf]
      simpa using flattenInside_properties hw
  have hrequired : Entries.get? fs "required" = Entries.get? es "required" := by
    rcases get?_flattenEntries "required" (by decide) (by decide) h with ⟨he, hf⟩ | ⟨v, w, he, hf, hw⟩
    · rw [he, hf]
    · rw [he, hf, flattenInside_required hw]
  exact ⟨fun hj => ⟨hproperties.mp hj.properties, fun v hv => hj.required v (hrequired.trans hv)⟩,
    fun hj => ⟨hproperties.mpr hj.properties, fun v hv => hj.required v (hrequired.symm.trans hv)⟩⟩

/-- What composing does: nothing without branches, and else it merges them. -/
theorem compose_eq (kept : Entries) : ∀ es : Entries, compose kept es = match branchesOf? es with
    | none => .ok kept
    | some vs => do
      let start ← Merge.start kept
      return (← mergeBranches start vs).finish
  | [] => by rw [compose]; rfl
  | (k, .list vs) :: es => by
    rw [compose, branchesOf?]
    by_cases hk : (k == .text "allOf") = true
    · rw [if_pos hk, if_pos hk]
    · rw [if_neg hk, if_neg hk]
      exact compose_eq kept es
  | (k, .map _) :: es => by
    rw [Law.compose_skip (by simp), branchesOf?_skip (by simp)]
    exact compose_eq kept es
  | (k, .scalar _) :: es => by
    rw [Law.compose_skip (by simp), branchesOf?_skip (by simp)]
    exact compose_eq kept es
  | (k, .set _) :: es => by
    rw [Law.compose_skip (by simp), branchesOf?_skip (by simp)]
    exact compose_eq kept es
  | (k, .pair ..) :: es => by
    rw [Law.compose_skip (by simp), branchesOf?_skip (by simp)]
    exact compose_eq kept es

/-- A flattened value can be joined as the value itself. -/
theorem joinsAs_flatten {v w : Value} (h : flatten v = .ok w) : JoinsAs w ↔ JoinsAs v := by
  cases v with
  | map es =>
    rw [flatten] at h
    obtain ⟨kept, hkept, h⟩ := bind_eq_ok_iff.mp h
    obtain ⟨out, hout, h⟩ := bind_eq_ok_iff.mp h
    cases h
    rw [joinsAs_map_iff, joinsAs_map_iff, ← joinable_flattenEntries hkept]
    rw [compose_eq] at hout
    cases hbranches : branchesOf? es with
    | none =>
      rw [hbranches] at hout
      cases hout
      exact Iff.rfl
    | some vs =>
      rw [hbranches] at hout
      obtain ⟨m, hm, hout⟩ := bind_eq_ok_iff.mp hout
      obtain ⟨n, hn, hout⟩ := bind_eq_ok_iff.mp hout
      cases hout
      have hkept : Joinable kept := start_isOk.mp ⟨m, hm⟩
      have hschema : Joinable n.schema := (mergeBranches_schema joinable_foldl_adopt hn).mpr (start_schema hm ▸ hkept)
      exact iff_of_true (joinable_finish hschema) hkept
  | _ =>
    cases h
    exact Iff.rfl

/-! ## Flattening -/

theorem holds_single {k : Scalar} (hk : isOneOf schemaKeys k = true) {v u : Value} : Holds (k, v) u ↔ u = v := by
  have hapart : "properties" ∉ schemaKeys ∧ ∀ name ∈ schemaListKeys, name ∉ schemaKeys := by decide
  constructor
  · intro h
    cases h with
    | property _ => exact absurd (Law.isOneOf_text.mp hk) hapart.1
    | single _ => rfl
    | choice hl _ => exact absurd (Law.isOneOf_text.mp hk) (hapart.2 _ hl)
  · rintro rfl
    cases k with
    | text name => exact .single (Law.isOneOf_text.mp hk)
    | _ => cases hk

section
variable {k : Scalar} (hs : ¬ isOneOf schemaKeys k = true)
include hs

theorem holds_list {vs : List Value} {u : Value} :
    Holds (k, .list vs) u ↔ isOneOf schemaListKeys k = true ∧ u ∈ vs := by
  constructor
  · intro h
    cases h with
    | single h => exact absurd (Law.isOneOf_text.mpr h) hs
    | choice hl hu => exact ⟨Law.isOneOf_text.mpr hl, hu⟩
  · rintro ⟨hl, hu⟩
    cases k with
    | text name => exact .choice (Law.isOneOf_text.mp hl) hu
    | _ => cases hl

theorem holds_map {es : Entries} {u : Value} :
    Holds (k, .map es) u ↔ (k == .text "properties") = true ∧ ∃ e ∈ es, u = e.2 := by
  constructor
  · intro h
    cases h with
    | property hp => exact ⟨Scalar.beq_text_iff.mpr rfl, _, hp, rfl⟩
    | single h => exact absurd (Law.isOneOf_text.mpr h) hs
  · rintro ⟨hk, e, he, rfl⟩
    rw [Scalar.beq_text_iff.mp hk]
    exact .property he

theorem not_holds_leaf {v u : Value} (hlist : ∀ vs, v ≠ .list vs) (hmap : ∀ es, v ≠ .map es) :
    ¬ Holds (k, v) u := by
  intro h
  cases h with
  | property _ => exact hmap _ rfl
  | single h => exact hs (Law.isOneOf_text.mpr h)
  | choice _ _ => exact hlist _ rfl

end

mutual
/-- **A value can be flattened if and only if all schemas that are joined can be.** -/
theorem flatten_isOk : ∀ {v : Value}, (∃ w, flatten v = .ok w) ↔ Flattens v
  | .map es => by
    rw [flatten, exists_bind_ok_iff, flattens_map_iff]
    constructor
    · rintro ⟨kept, hkept, h⟩
      obtain ⟨out, hout⟩ := exists_map_ok_iff.mp h
      refine ⟨flattenEntries_isOk.mp ⟨kept, hkept⟩, fun vs hvs => ?_⟩
      rw [← joinable_flattenEntries hkept]
      exact compose_isOk.mp ⟨out, hout⟩ vs hvs
    · rintro ⟨hheld, hbranches⟩
      obtain ⟨kept, hkept⟩ := flattenEntries_isOk.mpr hheld
      refine ⟨kept, hkept, exists_map_ok_iff.mpr (compose_isOk.mpr fun vs hvs => ?_)⟩
      rw [joinable_flattenEntries hkept]
      exact hbranches vs hvs
  | .list vs => ⟨fun _ => flattens_of_no_map (by simp), fun _ => ⟨.list vs, by rw [flatten]; simp⟩⟩
  | .scalar s => ⟨fun _ => flattens_of_no_map (by simp), fun _ => ⟨.scalar s, by rw [flatten]; simp⟩⟩
  | .set ms => ⟨fun _ => flattens_of_no_map (by simp), fun _ => ⟨.set ms, by rw [flatten]; simp⟩⟩
  | .pair a b => ⟨fun _ => flattens_of_no_map (by simp), fun _ => ⟨.pair a b, by rw [flatten]; simp⟩⟩

theorem flattenEntries_isOk : ∀ {es : List (Scalar × Value)},
    (∃ fs, flattenEntries es = .ok fs) ↔ ∀ e ∈ es, ∀ v, Holds e v → Flattens v
  | [] => ⟨fun _ => List.forall_mem_nil _, fun _ => ⟨[], rfl⟩⟩
  | (k, v) :: es => by
    rw [List.forall_mem_cons, ← flattenEntries_isOk]
    by_cases hk : k = .text "allOf"
    · rw [flattenEntries, if_pos (Scalar.beq_text_iff.mpr hk)]
      refine ⟨fun h => ⟨fun u hu => ?_, h⟩, fun h => h.2⟩
      subst hk
      exact absurd hu.place (by decide)
    · have hunder : (∃ w, flattenUnder k v = .ok w) ↔ ∀ u, Holds (k, v) u → Flattens u := by
        unfold flattenUnder
        by_cases hs : isOneOf schemaKeys k = true
        · rw [if_pos hs, flatten_isOk]
          exact ⟨fun h u hu => (holds_single hs).mp hu ▸ h, fun h => h v ((holds_single hs).mpr rfl)⟩
        · rw [if_neg hs]
          exact flattenInside_isOk hs
      rw [flattenEntries_cons hk, exists_bind_ok_iff, ← hunder]
      exact ⟨fun ⟨w, hw, h⟩ => ⟨⟨w, hw⟩, exists_map_ok_iff.mp h⟩,
        fun ⟨⟨w, hw⟩, h⟩ => ⟨w, hw, exists_map_ok_iff.mpr h⟩⟩

theorem flattenInside_isOk : ∀ {k : Scalar} {v : Value}, ¬ isOneOf schemaKeys k = true →
    ((∃ w, flattenInside k v = .ok w) ↔ ∀ u, Holds (k, v) u → Flattens u)
  | k, .list vs, hs => by
    rw [flattenInside]
    split
    · rename_i hl
      rw [exists_map_ok_iff, flattenItems_isOk]
      exact ⟨fun h u hu => h u ((holds_list hs).mp hu).2, fun h u hu => h u ((holds_list hs).mpr ⟨hl, hu⟩)⟩
    · rename_i hl
      exact ⟨fun _ u hu => absurd ((holds_list hs).mp hu).1 hl, fun _ => ⟨_, rfl⟩⟩
  | k, .map es, hs => by
    rw [flattenInside]
    split
    · rename_i hp
      rw [exists_map_ok_iff, flattenValues_isOk]
      constructor
      · intro h u hu
        obtain ⟨-, e, he, rfl⟩ := (holds_map hs).mp hu
        exact h e he
      · exact fun h e he => h e.2 ((holds_map hs).mpr ⟨hp, e, he, rfl⟩)
    · rename_i hp
      exact ⟨fun _ u hu => absurd ((holds_map hs).mp hu).1 hp, fun _ => ⟨_, rfl⟩⟩
  | k, .scalar _, hs =>
    ⟨fun _ u hu => absurd hu (not_holds_leaf hs (by simp) (by simp)), fun _ => ⟨_, rfl⟩⟩
  | k, .set _, hs =>
    ⟨fun _ u hu => absurd hu (not_holds_leaf hs (by simp) (by simp)), fun _ => ⟨_, rfl⟩⟩
  | k, .pair .., hs =>
    ⟨fun _ u hu => absurd hu (not_holds_leaf hs (by simp) (by simp)), fun _ => ⟨_, rfl⟩⟩

theorem flattenItems_isOk : ∀ {vs : List Value}, (∃ ws, flattenItems vs = .ok ws) ↔ ∀ v ∈ vs, Flattens v
  | [] => ⟨fun _ => List.forall_mem_nil _, fun _ => ⟨[], rfl⟩⟩
  | v :: vs => by
    rw [flattenItems, exists_bind_ok_iff, List.forall_mem_cons, ← flatten_isOk, ← flattenItems_isOk]
    exact ⟨fun ⟨w, hw, h⟩ => ⟨⟨w, hw⟩, exists_map_ok_iff.mp h⟩,
      fun ⟨⟨w, hw⟩, h⟩ => ⟨w, hw, exists_map_ok_iff.mpr h⟩⟩

theorem flattenValues_isOk : ∀ {es : List (Scalar × Value)},
    (∃ fs, flattenValues es = .ok fs) ↔ ∀ e ∈ es, Flattens e.2
  | [] => ⟨fun _ => List.forall_mem_nil _, fun _ => ⟨[], rfl⟩⟩
  | (k, v) :: es => by
    rw [flattenValues, exists_bind_ok_iff, List.forall_mem_cons, ← flatten_isOk, ← flattenValues_isOk]
    exact ⟨fun ⟨w, hw, h⟩ => ⟨⟨w, hw⟩, exists_map_ok_iff.mp h⟩,
      fun ⟨⟨w, hw⟩, h⟩ => ⟨w, hw, exists_map_ok_iff.mpr h⟩⟩

theorem compose_isOk : ∀ {kept es : List (Scalar × Value)}, (∃ out, compose kept es = .ok out) ↔
    ∀ vs, branchesOf? es = some vs → Joinable kept ∧ ∀ v ∈ vs, Flattens v ∧ JoinsAs v
  | kept, [] => by
    rw [compose]
    exact ⟨fun _ vs hvs => (by cases hvs), fun _ => ⟨kept, rfl⟩⟩
  | kept, (k, .list vs) :: es => by
    rw [compose, branchesOf?]
    split
    · have hsome : (∀ ws, some vs = some ws → Joinable kept ∧ ∀ v ∈ ws, Flattens v ∧ JoinsAs v) ↔
          Joinable kept ∧ ∀ v ∈ vs, Flattens v ∧ JoinsAs v :=
        ⟨fun h => h vs rfl, fun h ws hws => Option.some.inj hws ▸ h⟩
      rw [hsome, exists_bind_ok_iff, ← start_isOk]
      constructor
      · rintro ⟨m, hm, h⟩
        exact ⟨⟨m, hm⟩, mergeBranches_isOk.mp (exists_map_ok_iff.mp h)⟩
      · rintro ⟨⟨m, hm⟩, h⟩
        exact ⟨m, hm, exists_map_ok_iff.mpr (mergeBranches_isOk.mpr h)⟩
    · exact compose_isOk
  | kept, (k, .map _) :: es => by
    rw [Law.compose_skip (by simp), branchesOf?_skip (by simp)]
    exact compose_isOk
  | kept, (k, .scalar _) :: es => by
    rw [Law.compose_skip (by simp), branchesOf?_skip (by simp)]
    exact compose_isOk
  | kept, (k, .set _) :: es => by
    rw [Law.compose_skip (by simp), branchesOf?_skip (by simp)]
    exact compose_isOk
  | kept, (k, .pair ..) :: es => by
    rw [Law.compose_skip (by simp), branchesOf?_skip (by simp)]
    exact compose_isOk

theorem mergeBranches_isOk : ∀ {m : Merge} {vs : List Value},
    (∃ m', mergeBranches m vs = .ok m') ↔ ∀ v ∈ vs, Flattens v ∧ JoinsAs v
  | m, [] => by
    rw [mergeBranches]
    exact ⟨fun _ => List.forall_mem_nil _, fun _ => ⟨m, rfl⟩⟩
  | m, v :: vs => by
    rw [mergeBranches, exists_bind_ok_iff, List.forall_mem_cons]
    constructor
    · rintro ⟨w, hw, h⟩
      obtain ⟨n, hn, h⟩ := exists_bind_ok_iff.mp h
      exact ⟨⟨flatten_isOk.mp ⟨w, hw⟩, (joinsAs_flatten hw).mp (add_isOk.mp ⟨n, hn⟩)⟩, mergeBranches_isOk.mp h⟩
    · rintro ⟨⟨hv, hjoins⟩, hvs⟩
      obtain ⟨w, hw⟩ := flatten_isOk.mpr hv
      obtain ⟨n, hn⟩ := (add_isOk (m := m)).mpr ((joinsAs_flatten hw).mpr hjoins)
      exact ⟨w, hw, exists_bind_ok_iff.mpr ⟨n, hn, mergeBranches_isOk.mpr hvs⟩⟩
end

/-! ## Keys -/

def EachKey (P : Scalar → Prop) (es : Entries) : Prop := ∀ e ∈ es, P e.1

section
variable {P : Scalar → Prop} (hP : ∀ name, P (.text name))
include hP

theorem eachKey_put (word : String) (v : Value) : ∀ {es : Entries},
    EachKey P (Ordered.put (.text word) v es) ↔ EachKey P es
  | [] => ⟨fun _ => List.forall_mem_nil _, fun _ e he => List.mem_singleton.mp he ▸ hP word⟩
  | (k, w) :: es => by
    have ih : EachKey P (Ordered.put (.text word) v es) ↔ EachKey P es := eachKey_put word v
    unfold EachKey at ih ⊢
    rw [Ordered.put]
    split
    · rw [List.forall_mem_cons, List.forall_mem_cons]
    · rw [List.forall_mem_cons, List.forall_mem_cons, ih]

theorem eachKey_adopt (branch schema : Entries) (word : String) :
    EachKey P (Merge.adopt branch schema word) ↔ EachKey P schema := by
  unfold Merge.adopt EachKey
  split
  · split
    · exact Iff.rfl
    · rw [List.forall_mem_append, List.forall_mem_singleton]
      exact and_iff_left (hP word)
  · exact Iff.rfl

theorem eachKey_foldl_adopt (branch : Entries) : ∀ (words : List String) (schema : Entries),
    EachKey P (words.foldl (Merge.adopt branch) schema) ↔ EachKey P schema
  | [], _ => Iff.rfl
  | word :: words, schema =>
    (eachKey_foldl_adopt branch words _).trans (eachKey_adopt hP branch schema word)

theorem eachKey_finish (m : Merge) : EachKey P m.finish ↔ EachKey P m.schema := by
  have hput (c : Prop) [Decidable c] (word : String) (v : Value) (es : Entries) :
      EachKey P (if c then Ordered.put (.text word) v es else es) ↔ EachKey P es := by
    split
    · exact eachKey_put hP word v
    · exact Iff.rfl
  unfold Merge.finish
  dsimp only
  split
  · rw [hput, hput]
  · rw [eachKey_put hP, hput, hput]

theorem eachKey_flattenEntries : ∀ {es fs : Entries}, flattenEntries es = .ok fs → (EachKey P fs ↔ EachKey P es)
  | [], fs, h => by
    cases h
    exact Iff.rfl
  | (k, v) :: es, fs, h => by
    unfold EachKey
    rw [List.forall_mem_cons]
    by_cases hk : k = .text "allOf"
    · subst hk
      rw [flattenEntries, if_pos (Scalar.beq_text_iff.mpr rfl)] at h
      exact (eachKey_flattenEntries h).trans (and_iff_right (hP "allOf")).symm
    · rw [flattenEntries_cons hk] at h
      obtain ⟨w, -, h⟩ := bind_eq_ok_iff.mp h
      obtain ⟨rest, hrest, h⟩ := bind_eq_ok_iff.mp h
      cases h
      rw [List.forall_mem_cons]
      exact and_congr_right' (eachKey_flattenEntries hrest)

/-- Flattening takes away and brings in texts as keys, and nothing else. -/
theorem eachKey_flatten {es : Entries} {w : Value} (h : flatten (.map es) = .ok w) :
    ∃ fs, w = .map fs ∧ (EachKey P fs ↔ EachKey P es) := by
  rw [flatten] at h
  obtain ⟨kept, hkept, h⟩ := bind_eq_ok_iff.mp h
  obtain ⟨out, hout, h⟩ := bind_eq_ok_iff.mp h
  cases h
  refine ⟨out, rfl, Iff.trans ?_ (eachKey_flattenEntries hP hkept)⟩
  rw [compose_eq] at hout
  split at hout
  · cases hout
    exact Iff.rfl
  · obtain ⟨m, hm, hout⟩ := bind_eq_ok_iff.mp hout
    obtain ⟨n, hn, hout⟩ := bind_eq_ok_iff.mp hout
    cases hout
    have hadopt := fun branch schema => eachKey_foldl_adopt hP branch (branchKeys ++ ["description"]) schema
    rw [eachKey_finish hP, mergeBranches_schema hadopt hn, start_schema hm]

end

end ToolServer.Schema
