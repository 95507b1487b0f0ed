import ToolServer.Proofs.Schema.Levels
import ToolServer.Proofs.Schema.Merging

/-!
# Compositions

A schema with a composition is flattened to what its own entries and its branches, all of them flattened, are merged
to. `flatten_composition` says so for a schema in which properties are maps and required names lists, and that
flattening again changes nothing: no composition is left where a schema stands.
-/

namespace ToolServer.Schema

open Document Ordered

/-! ## Shapes -/

theorem Shaped.joinable {es : Entries} (h : Shaped es) : Joinable es where
  properties v hv := by
    obtain ⟨ps, rfl, -⟩ := h.properties v hv
    exact ⟨ps, rfl⟩
  required v hv := by
    obtain ⟨vs, rfl⟩ := h.required v hv
    exact ⟨vs, rfl⟩

theorem Shaped.properties_map {es : Entries} (h : Shaped es) {v : Value} (hv : (.text "properties", v) ∈ es) :
    ∃ ps, v = .map ps := by
  obtain ⟨ps, rfl, -⟩ := h.properties v (get?_of_mem h.keys hv (Scalar.beq_text_iff.mpr rfl))
  exact ⟨ps, rfl⟩

def ShapedThroughout (v : Value) : Prop := ∀ es, Part v (.map es) → Shaped es

theorem ShapedThroughout.inside {es : Entries} {v : Value} (h : ShapedThroughout (.map es)) (hv : Inside es v) :
    ShapedThroughout v := fun fs hfs => h fs (.inner hv hfs)

theorem Joined.part {v : Value} {es : Entries} (h : Joined v es) : Part v (.map es) := by
  induction h with
  | composed _ => exact .root
  | branch hvs hb => exact .inner (.branch hvs hb) .root
  | inner hin _ ih => exact .inner hin ih

theorem ShapedThroughout.flattens {v : Value} (h : ShapedThroughout v) : Flattens v :=
  fun es hes => (h es hes.part).joinable

theorem Shaped.carried {es fs : Entries} (h : Shaped es) (hes : List.Forall₂ Carried (withoutComposition es) fs) :
    Shaped fs where
  keys := (distinct_forall₂ hes fun _ _ hef => hef.key).mp (distinct_filter h.keys _)
  properties w hw := by
    obtain ⟨v, hv, hcarried⟩ := exists_carried hes (by decide) hw
    obtain ⟨ps, rfl, hdistinct⟩ := h.properties v hv
    obtain ⟨qs, rfl, hps⟩ := hcarried.of_properties
    exact ⟨qs, rfl, (distinct_forall₂ hps fun _ _ hpq => hpq.1).mp hdistinct⟩
  required w hw := by
    obtain ⟨v, hv, hcarried⟩ := exists_carried hes (by decide) hw
    rw [hcarried.unchanged (by decide)]
    exact h.required v hv

/-- What a schema with a composition is flattened to. -/
theorem FlattensTo.merged {es : Entries} {vs : List Value} {w : Value} (h : FlattensTo (.map es) w) (hes : Shaped es)
    (hvs : branchesOf? es = some vs) (hbranches : ∀ v ∈ vs, ∀ b, FlattensTo v (.map b) → Shaped b) :
    ∃ outer bs, List.Forall₂ Carried (withoutComposition es) outer ∧ List.Forall₂ FlattensTo vs bs ∧ Shaped outer ∧
      (∀ b ∈ mapsOf bs, Shaped b) ∧ w = .map (Merge.merged outer (mapsOf bs)).finish := by
  obtain ⟨outer, bs, start, m, houter, hbs, hstart, hrun, rfl⟩ := h.of_composed hvs
  have hshaped : ∀ b, .map b ∈ bs → Shaped b := by
    intro b hb
    obtain ⟨v, hv, hflat⟩ := exists_of_forall₂ hbs _ hb
    exact hbranches v hv b hflat
  have hmaps : ∀ b ∈ mapsOf bs, Shaped b := fun b hb => hshaped b (mem_mapsOf.mp hb)
  have hout : Shaped outer := hes.carried houter
  rw [Merge.start_eq hout] at hstart
  cases hstart
  rw [Merge.foldlM_add hshaped] at hrun
  cases hrun
  exact ⟨outer, bs, houter, hbs, hout, hmaps, rfl⟩

/-- Flattening keeps the shape. -/
theorem flatten_shaped (v : Value) : ShapedThroughout v → ∀ fs, FlattensTo v (.map fs) → Shaped fs := by
  induction v using inside_induction with
  | hother v hv =>
    intro _ fs h
    rw [FlattensTo, flatten_of_no_map hv] at h
    exact absurd (Except.ok.inj h) (hv fs)
  | hmap es ih =>
    intro hshaped fs h
    have hes : Shaped es := hshaped es .root
    cases hvs : branchesOf? es with
    | none =>
      obtain ⟨gs, hgs, heq⟩ := h.of_plain hvs
      cases heq
      exact hes.carried hgs
    | some vs =>
      have hbranches : ∀ v ∈ vs, ∀ b, FlattensTo v (.map b) → Shaped b := fun v hv =>
        ih v (.branch hvs hv) (hshaped.inside (.branch hvs hv))
      obtain ⟨outer, bs, -, -, hout, hmaps, heq⟩ := h.merged hes hvs hbranches
      cases heq
      exact Merge.shaped_merged hout hmaps

/-! ## Schemas without compositions -/

structure PlainKey (e : Scalar × Value) : Prop where
  no_composition : e.1 ≠ .text "allOf"
  properties : e.1 = .text "properties" → ∃ ps, e.2 = .map ps

/-- Where a schema stands in a value, it has no composition. -/
def Uncomposed (v : Value) : Prop := ∀ es, Position v (.map es) → ∀ e ∈ es, PlainKey e

structure PlainEntry (e : Scalar × Value) : Prop extends PlainKey e where
  held : ∀ v, Holds e v → Uncomposed v

theorem uncomposed_map_iff {es : Entries} : Uncomposed (.map es) ↔ ∀ e ∈ es, PlainEntry e := by
  constructor
  · exact fun h e he => ⟨h es .root e he, fun v hv fs hfs => h fs (.inner he hv hfs)⟩
  · intro h fs hfs
    cases hfs with
    | root => exact fun e he => (h e he).toPlainKey
    | inner he hv hfs => exact (h _ he).held _ hv fs hfs

theorem uncomposed_of_no_map {v : Value} (hv : ∀ es, v ≠ .map es) : Uncomposed v := by
  intro es hes
  cases hes with
  | root => exact absurd rfl (hv es)
  | inner => exact absurd rfl (hv _)

theorem PlainEntry.of_leaf {name : String} {v : Value} (hname : name ≠ "allOf") (hplace : name ∉ schemaPlaces) :
    PlainEntry (.text name, v) where
  no_composition h := hname (Scalar.text.inj h)
  properties h := absurd (Scalar.text.inj h ▸ List.mem_cons_self ..) hplace
  held _ hw := absurd hw.place hplace

theorem PlainEntry.of_properties {ps : Entries} (h : ∀ p ∈ ps, Uncomposed p.2) :
    PlainEntry (.text "properties", .map ps) where
  no_composition h := absurd (Scalar.text.inj h) (by decide)
  properties _ := ⟨ps, rfl⟩
  held w hw := by
    obtain ⟨-, p, hp, rfl⟩ := (holds_map (by decide)).mp hw
    exact h p hp

theorem PlainEntry.declared {v : Value} (h : PlainEntry (.text "properties", v)) :
    Gives v.toEntries fun ps => ∀ p ∈ ps, Uncomposed p.2 := by
  obtain ⟨ps, rfl⟩ := h.properties rfl
  exact .ok fun p hp => h.held _ (.property hp)

/-- Merging keeps schemas without compositions. Of values before flattening the law says nothing: it is for flattened
schemas and flattened branches. -/
def plainLaw : Law where
  before _ := False
  given _ := False
  after := Uncomposed
  entry := PlainEntry
  property p := Uncomposed p.2
  name _ := True
  items h := h.elim
  entries h := h.elim
  value h := h.elim
  other h := h.elim
  map := uncomposed_map_iff
  unchanged h := h.elim
  single h := h.elim
  choice h := h.elim
  member h := h.elim
  properties := .of_properties
  declared := PlainEntry.declared
  put _ h := h
  required _ := .of_leaf (by decide) (by decide)
  names _ := fun _ _ _ _ => trivial
  object := .of_leaf (by decide) (by decide)

theorem uncomposed_merged {outer : Entries} {bs : List Value} (houter : ∀ e ∈ outer, PlainEntry e)
    (hshaped : Shaped outer) (hbs : ∀ b ∈ bs, Uncomposed b) (hbshaped : ∀ b ∈ mapsOf bs, Shaped b) :
    Uncomposed (.map (Merge.merged outer (mapsOf bs)).finish) := by
  have hstart : plainLaw.Merged (Merge.begun outer) :=
    plainLaw.start_merged houter _ (Merge.start_eq hshaped)
  have hrun : Gives (bs.foldlM Merge.add (Merge.begun outer)) plainLaw.Merged :=
    .foldlM_const (fun b hb m hm => hm.add (hbs b hb)) hstart
  exact uncomposed_map_iff.mpr (hrun _ (Merge.foldlM_add (fun b hb => hbshaped b (mem_mapsOf.mpr hb)) _)).finish

/-- An entry is carried to one without a composition, if the schemas in it are flattened to such. -/
theorem Carried.plain {es : Entries} (hes : Shaped es) {e f : Scalar × Value} (he : e ∈ withoutComposition es)
    (h : Carried e f) (hheld : ∀ v, Holds e v → ∀ w, FlattensTo v w → Uncomposed w) : PlainEntry f where
  no_composition := by
    obtain ⟨-, hne⟩ := List.mem_filter.mp he
    rw [← h.key]
    rintro heq
    rw [heq] at hne
    exact absurd hne (by decide)
  properties hkey := by
    obtain ⟨hmem, -⟩ := List.mem_filter.mp he
    obtain ⟨k, v⟩ := e
    obtain ⟨j, w⟩ := f
    obtain rfl : k = j := h.key
    obtain rfl : k = .text "properties" := hkey
    obtain ⟨ps, rfl⟩ := hes.properties_map hmem
    exact h.of_properties.imp fun _ hqs => hqs.1
  held w hw := by
    obtain ⟨v, hv, hflat⟩ := h.holds hw
    exact hheld v hv w hflat

theorem carried_plain {es fs : Entries} (hes : Shaped es) (h : List.Forall₂ Carried (withoutComposition es) fs)
    (hheld : ∀ v, Inside es v → ∀ w, FlattensTo v w → Uncomposed w) : ∀ f ∈ fs, PlainEntry f := by
  intro f hf
  obtain ⟨e, he, hcarried⟩ := exists_of_forall₂ h f hf
  exact hcarried.plain hes he fun v hv => hheld v (.held (List.mem_filter.mp he).1 hv)

/-- Flattening leaves no composition. -/
theorem flatten_uncomposed (v : Value) : ShapedThroughout v → ∀ w, FlattensTo v w → Uncomposed w := by
  induction v using inside_induction with
  | hother v hv =>
    intro _ w h
    rw [FlattensTo, flatten_of_no_map hv] at h
    cases h
    exact uncomposed_of_no_map hv
  | hmap es ih =>
    intro hshaped w h
    have hes : Shaped es := hshaped es .root
    have hinside : ∀ v, Inside es v → ∀ w, FlattensTo v w → Uncomposed w := fun v hv => ih v hv (hshaped.inside hv)
    cases hvs : branchesOf? es with
    | none =>
      obtain ⟨fs, hfs, rfl⟩ := h.of_plain hvs
      exact uncomposed_map_iff.mpr (carried_plain hes hfs hinside)
    | some vs =>
      have hbranches : ∀ v ∈ vs, ∀ b, FlattensTo v (.map b) → Shaped b := fun v hv =>
        flatten_shaped v (hshaped.inside (.branch hvs hv))
      obtain ⟨outer, bs, houter, hbs, hout, hmaps, rfl⟩ := h.merged hes hvs hbranches
      refine uncomposed_merged (carried_plain hes houter hinside) hout (fun b hb => ?_) hmaps
      obtain ⟨v, hv, hflat⟩ := exists_of_forall₂ hbs b hb
      exact hinside v (.branch hvs hv) b hflat

/-! ## Flattening again -/

theorem FlattensTo.eq_of_fixed {v w : Value} (h : FlattensTo v w) (hfixed : FlattensTo v v) : w = v :=
  Except.ok.inj (h.symm.trans hfixed)

/-- An entry whose schemas stay as they are stays as it is. -/
theorem Carried.eq_of_fixed {e f : Scalar × Value} (h : Carried e f) (hfixed : ∀ v, Holds e v → FlattensTo v v) :
    f = e := by
  cases h with
  | schema hname hv => rw [hv.eq_of_fixed (hfixed _ (.single hname))]
  | choice hname hvs => rw [eq_of_forall₂ hvs fun v hv w h => h.eq_of_fixed (hfixed v (.choice hname hv))]
  | properties hps =>
    rw [eq_of_forall₂ hps fun p hp q h => Prod.ext h.1.symm (h.2.eq_of_fixed (hfixed p.2 (.property hp)))]
  | other _ => rfl

theorem branchesOf?_of_plain {es : Entries} (h : ∀ e ∈ es, e.1 ≠ .text "allOf") : branchesOf? es = none := by
  cases hvs : branchesOf? es with
  | none => rfl
  | some vs => exact absurd rfl (h _ (mem_of_branchesOf? hvs))

theorem withoutComposition_of_plain {es : Entries} (h : ∀ e ∈ es, e.1 ≠ .text "allOf") :
    withoutComposition es = es := by
  refine List.filter_eq_self.mpr fun e he => ?_
  have hne : ¬ (e.1 == .text "allOf") = true := fun heq => h e he (Scalar.beq_text_iff.mp heq)
  simpa using hne

/-- Where there is no composition, flattening changes nothing. -/
theorem flatten_of_uncomposed (v : Value) : Uncomposed v → FlattensTo v v := by
  induction v using inside_induction with
  | hother v hv => exact fun _ => flatten_of_no_map hv
  | hmap es ih =>
    intro h
    rw [uncomposed_map_iff] at h
    have hplain : ∀ e ∈ es, e.1 ≠ .text "allOf" := fun e he => (h e he).no_composition
    have hfixed : ∀ e ∈ es, ∀ v, Holds e v → FlattensTo v v := fun e he v hv =>
      ih v (.held he hv) ((h e he).held v hv)
    have hnone := branchesOf?_of_plain hplain
    obtain ⟨w, hw⟩ : ∃ w, flatten (.map es) = .ok w := by
      refine flatten_isOk.mpr (flattens_map_iff.mpr ⟨fun e he v hv => ?_, fun vs hvs => ?_⟩)
      · exact flatten_isOk.mp ⟨v, hfixed e he v hv⟩
      · rw [hnone] at hvs
        cases hvs
    obtain ⟨fs, hfs, rfl⟩ := FlattensTo.of_plain hw hnone
    rw [withoutComposition_of_plain hplain] at hfs
    obtain rfl : fs = es := eq_of_forall₂ hfs fun e he f h => h.eq_of_fixed (hfixed e he)
    exact hw

/-! ## Compositions -/

/-- **What a schema with a composition is flattened to: its own entries and its branches, flattened and merged, and
flattening that again changes nothing.** -/
theorem flatten_composition {es : Entries} {vs : List Value} (hallOf : Entries.get? es "allOf" = some (.list vs))
    (hshaped : ∀ fs, Part (.map es) (.map fs) → Shaped fs) :
    ∃ outer branches out, List.Forall₂ Carried (withoutComposition es) outer ∧
      List.Forall₂ FlattensTo vs branches ∧ FlattensTo (.map es) (.map out) ∧
      Merges outer (mapsOf branches) out ∧ FlattensTo (.map out) (.map out) := by
  have hvs : branchesOf? es = some vs := branchesOf?_of_get? hallOf
  have hes : ShapedThroughout (.map es) := hshaped
  obtain ⟨w, hw⟩ : ∃ w, flatten (.map es) = .ok w := flatten_isOk.mpr hes.flattens
  have hbranches : ∀ v ∈ vs, ∀ b, FlattensTo v (.map b) → Shaped b := fun v hv =>
    flatten_shaped v (hes.inside (.branch hvs hv))
  obtain ⟨outer, branches, houter, hbs, hout, hmaps, rfl⟩ := FlattensTo.merged hw (hes es .root) hvs hbranches
  refine ⟨outer, branches, _, houter, hbs, hw, Merge.merges_merged hout hmaps, ?_⟩
  exact flatten_of_uncomposed _ (flatten_uncomposed _ hes _ hw)

def petBranches : List Value := [
  .map [(.text "description", .text "Named"), (.text "required", .list [.text "name", .text "id"]),
    (.text "properties", .map [(.text "name", .map [(.text "allOf", .list [.map [(.text "maxLength", .int 9)]])]),
      (.text "tag", .map [])])],
  .bool true,
  .map [(.text "allOf", .list [.map [(.text "required", .list [.text "tag"])]])]]

def petSchema : Entries := [
  (.text "title", .text "Pet"),
  (.text "allOf", .list petBranches),
  (.text "properties", .map [(.text "id", .map [(.text "type", .text "integer")]),
    (.text "name", .map [(.text "type", .text "string")])]),
  (.text "required", .list [.text "id"])]

example : flatten (.map petSchema) = .ok (.map [
    (.text "title", .text "Pet"),
    (.text "properties", .map [(.text "id", .map [(.text "type", .text "integer")]),
      (.text "name", .map [(.text "maxLength", .int 9), (.text "type", .text "object")]), (.text "tag", .map [])]),
    (.text "required", .list [.text "id", .text "name", .text "tag"]),
    (.text "description", .text "Named"),
    (.text "type", .text "object")]) := by rfl

theorem shaped_petSchema : ∀ fs, Part (.map petSchema) (.map fs) → Shaped fs := by
  intro fs h
  have hwithin := h.within
  simp only [petSchema, petBranches, Within.map_iff, Within.list_iff, Within.scalar_iff, Value.map.injEq,
    List.mem_cons, List.not_mem_nil, exists_eq_or_imp, exists_eq_left, reduceCtorEq, or_false, false_or, or_assoc,
    false_and, exists_false] at hwithin
  rcases hwithin with rfl | rfl | rfl | rfl | rfl | rfl | rfl | rfl | rfl | rfl | rfl | rfl <;> decide +kernel

theorem flatten_composition_pet : Entries.get? petSchema "allOf" = some (.list petBranches) ∧
    (∀ fs, Part (.map petSchema) (.map fs) → Shaped fs) ∧
    ∃ outer branches out, List.Forall₂ Carried (withoutComposition petSchema) outer ∧
      List.Forall₂ FlattensTo petBranches branches ∧ FlattensTo (.map petSchema) (.map out) ∧
      Merges outer (mapsOf branches) out ∧ FlattensTo (.map out) (.map out) :=
  ⟨by rfl, shaped_petSchema, flatten_composition (by rfl) shaped_petSchema⟩

end ToolServer.Schema
