import ToolServer.Proofs.Rearranged
import ToolServer.Proofs.Schema.Joining

/-!
# One level of flattening

What flattening makes of a schema in terms of what it makes of the schemas in it: each entry stays in its place,
and the flattened branches of a composition are merged into the entries. What holds of a value if it holds of the
schemas in it holds of every value.
-/

namespace ToolServer.Document

theorem Within.sizeOf_le {v w : Value} (h : Within v w) : sizeOf w ≤ sizeOf v := by
  induction h with
  | refl => exact Nat.le_refl _
  | item hv _ ih =>
    have hlt := List.sizeOf_lt_of_mem hv
    simp only [Value.list.sizeOf_spec]
    omega
  | @entry _ e _ he _ ih =>
    have hlt := List.sizeOf_lt_of_mem he
    have hpair : sizeOf e = 1 + sizeOf e.1 + sizeOf e.2 := Prod.mk.sizeOf_spec e.1 e.2
    simp only [Value.map.sizeOf_spec]
    omega
  | first _ ih =>
    simp only [Value.pair.sizeOf_spec]
    omega
  | second _ ih =>
    simp only [Value.pair.sizeOf_spec]
    omega

end ToolServer.Document

namespace ToolServer.Schema

open Document Ordered

/-! ## Schemas in a schema -/

theorem mem_of_branchesOf? {es : Entries} {vs : List Value} (h : branchesOf? es = some vs) :
    (.text "allOf", .list vs) ∈ es := by
  fun_induction branchesOf? es with
  | case1 => cases h
  | case2 es k ws hk =>
    cases h
    rw [Scalar.beq_text_iff.mp hk]
    exact List.mem_cons_self ..
  | case3 es k ws hk ih => exact List.mem_cons_of_mem _ (ih h)
  | case4 e es he ih => exact List.mem_cons_of_mem _ (ih h)

theorem branchesOf?_of_get? {es : Entries} {vs : List Value} (h : Entries.get? es "allOf" = some (.list vs)) :
    branchesOf? es = some vs := by
  fun_induction branchesOf? es with
  | case1 => cases h
  | case2 es k ws hk =>
    rw [Entries.get?_cons, if_pos (Scalar.beq_text_iff.mp hk)] at h
    cases h
    rfl
  | case3 es k ws hk ih =>
    rw [Entries.get?_cons, if_neg fun he => hk (Scalar.beq_text_iff.mpr he)] at h
    exact ih h
  | case4 e es he ih =>
    obtain ⟨k, v⟩ := e
    rw [Entries.get?_cons] at h
    split at h
    · cases h
      exact absurd rfl (he k vs)
    · exact ih h

theorem Inside.within {es : Entries} {v : Value} (h : Inside es v) : ∃ e ∈ es, Within e.2 v := by
  cases h with
  | held he hv => exact ⟨_, he, hv.within⟩
  | branch hvs hv => exact ⟨_, mem_of_branchesOf? hvs, .of_item hv⟩

theorem Inside.sizeOf_lt {es : Entries} {v : Value} (h : Inside es v) : sizeOf v < sizeOf (Value.map es) := by
  obtain ⟨e, he, hv⟩ := h.within
  have hle := hv.sizeOf_le
  have hlt := List.sizeOf_lt_of_mem he
  have hpair : sizeOf e = 1 + sizeOf e.1 + sizeOf e.2 := Prod.mk.sizeOf_spec e.1 e.2
  simp only [Value.map.sizeOf_spec]
  omega

theorem inside_induction {P : Value → Prop} (hother : ∀ v, (∀ es, v ≠ .map es) → P v)
    (hmap : ∀ es, (∀ v, Inside es v → P v) → P (.map es)) (v : Value) : P v := by
  induction hn : sizeOf v using Nat.strongRecOn generalizing v with
  | ind n ih =>
    cases v with
    | map es => exact hmap es fun v hv => ih (sizeOf v) (hn ▸ hv.sizeOf_lt) v rfl
    | _ => exact hother _ (by simp)

inductive Part : Value → Value → Prop
  | root {v} : Part v v
  | inner {es v w} : Inside es v → Part v w → Part (.map es) w

theorem Part.within {v w : Value} (h : Part v w) : Within v w := by
  induction h with
  | root => exact .refl
  | inner hin _ ih =>
    obtain ⟨e, he, hv⟩ := hin.within
    exact .entry he (hv.trans ih)

/-! ## Entries -/

def FlattensTo (v w : Value) : Prop := flatten v = .ok w

theorem flatten_of_no_map {v : Value} (hv : ∀ es, v ≠ .map es) : flatten v = .ok v := by
  cases v with
  | map es => exact absurd rfl (hv es)
  | _ => rw [flatten]; simp

/-- An entry as flattening leaves it: the schemas in it are flattened, and an entry without any stays. -/
inductive Carried : Scalar × Value → Scalar × Value → Prop
  | schema {name v w} : name ∈ schemaKeys → FlattensTo v w → Carried (.text name, v) (.text name, w)
  | choice {name vs ws} : name ∈ schemaListKeys → List.Forall₂ FlattensTo vs ws →
      Carried (.text name, .list vs) (.text name, .list ws)
  | properties {ps qs} : List.Forall₂ (SameKey FlattensTo) ps qs →
      Carried (.text "properties", .map ps) (.text "properties", .map qs)
  | other {e} : (∀ v, ¬ Holds e v) → Carried e e

def withoutComposition (es : Entries) : Entries := es.filter fun e => !(e.1 == .text "allOf")

theorem withoutComposition_skip (v : Value) (es : Entries) :
    withoutComposition ((.text "allOf", v) :: es) = withoutComposition es := by
  have heq : (Scalar.text "allOf" == .text "allOf") = true := Scalar.beq_text_iff.mpr rfl
  exact List.filter_cons_of_neg (by simp [heq])

theorem withoutComposition_cons {k : Scalar} (hk : k ≠ .text "allOf") (v : Value) (es : Entries) :
    withoutComposition ((k, v) :: es) = (k, v) :: withoutComposition es := by
  have hne : ¬ (k == .text "allOf") = true := fun h => hk (Scalar.beq_text_iff.mp h)
  exact List.filter_cons_of_pos (by simpa using hne)

theorem flattenItems_forall₂ : ∀ {vs ws : List Value}, flattenItems vs = .ok ws → List.Forall₂ FlattensTo vs ws
  | [], ws, h => by
    cases h
    exact .nil
  | v :: vs, ws, h => by
    rw [flattenItems] at h
    obtain ⟨w, hw, h⟩ := bind_eq_ok_iff.mp h
    obtain ⟨rest, hrest, h⟩ := bind_eq_ok_iff.mp h
    cases h
    exact .cons hw (flattenItems_forall₂ hrest)

theorem flattenValues_forall₂ : ∀ {es fs : Entries}, flattenValues es = .ok fs →
    List.Forall₂ (SameKey FlattensTo) es fs
  | [], fs, h => by
    cases h
    exact .nil
  | (k, v) :: es, fs, h => by
    rw [flattenValues] at h
    obtain ⟨w, hw, h⟩ := bind_eq_ok_iff.mp h
    obtain ⟨rest, hrest, h⟩ := bind_eq_ok_iff.mp h
    cases h
    exact .cons ⟨rfl, hw⟩ (flattenValues_forall₂ hrest)

theorem exists_of_isOneOf {names : List String} {k : Scalar} (h : isOneOf names k = true) :
    ∃ name ∈ names, k = .text name := by
  cases k with
  | text name => exact ⟨name, Law.isOneOf_text.mp h, rfl⟩
  | _ => cases h

theorem flattenUnder_carried {k : Scalar} {v w : Value} (h : flattenUnder k v = .ok w) : Carried (k, v) (k, w) := by
  unfold flattenUnder at h
  split at h
  · rename_i hs
    obtain ⟨name, hname, rfl⟩ := exists_of_isOneOf hs
    exact .schema hname h
  · rename_i hs
    cases v with
    | list vs =>
      rw [flattenInside] at h
      split at h
      · rename_i hl
        obtain ⟨name, hname, rfl⟩ := exists_of_isOneOf hl
        obtain ⟨ws, hws, h⟩ := bind_eq_ok_iff.mp h
        cases h
        exact .choice hname (flattenItems_forall₂ hws)
      · rename_i hl
        cases h
        exact .other fun u hu => hl ((holds_list hs).mp hu).1
    | map es =>
      rw [flattenInside] at h
      split at h
      · rename_i hp
        obtain rfl := Scalar.beq_text_iff.mp hp
        obtain ⟨fs, hfs, h⟩ := bind_eq_ok_iff.mp h
        cases h
        exact .properties (flattenValues_forall₂ hfs)
      · rename_i hp
        cases h
        exact .other fun u hu => hp ((holds_map hs).mp hu).1
    | _ =>
      cases h
      exact .other fun u hu => not_holds_leaf hs (by simp) (by simp) hu

theorem flattenEntries_carried : ∀ {es fs : Entries}, flattenEntries es = .ok fs →
    List.Forall₂ Carried (withoutComposition es) fs
  | [], fs, h => by
    cases h
    exact .nil
  | (k, v) :: es, fs, h => by
    by_cases hk : k = .text "allOf"
    · subst hk
      rw [flattenEntries, if_pos (Scalar.beq_text_iff.mpr rfl)] at h
      rw [withoutComposition_skip]
      exact flattenEntries_carried h
    · rw [flattenEntries_cons hk] at h
      obtain ⟨w, hw, h⟩ := bind_eq_ok_iff.mp h
      obtain ⟨rest, hrest, h⟩ := bind_eq_ok_iff.mp h
      cases h
      rw [withoutComposition_cons hk]
      exact .cons (flattenUnder_carried hw) (flattenEntries_carried hrest)

/-! ## Levels -/

theorem mergeBranches_ok : ∀ {vs : List Value} {m m' : Merge}, mergeBranches m vs = .ok m' →
    ∃ bs, List.Forall₂ FlattensTo vs bs ∧ bs.foldlM Merge.add m = .ok m'
  | [], m, m', h => by
    rw [mergeBranches] at h
    exact ⟨[], .nil, h⟩
  | v :: vs, m, m', h => by
    rw [mergeBranches] at h
    obtain ⟨b, hb, h⟩ := bind_eq_ok_iff.mp h
    obtain ⟨n, hn, h⟩ := bind_eq_ok_iff.mp h
    obtain ⟨bs, hbs, hrun⟩ := mergeBranches_ok h
    refine ⟨b :: bs, .cons hb hbs, ?_⟩
    rw [List.foldlM_cons]
    exact bind_eq_ok_iff.mpr ⟨n, hn, hrun⟩

section
variable {es : Entries} {w : Value}

theorem FlattensTo.of_plain (h : FlattensTo (.map es) w) (hplain : branchesOf? es = none) :
    ∃ fs, List.Forall₂ Carried (withoutComposition es) fs ∧ w = .map fs := by
  unfold FlattensTo at h
  rw [flatten] at h
  obtain ⟨fs, hfs, h⟩ := bind_eq_ok_iff.mp h
  rw [compose_eq, hplain] at h
  cases h
  exact ⟨fs, flattenEntries_carried hfs, rfl⟩

theorem FlattensTo.of_composed {vs : List Value} (h : FlattensTo (.map es) w) (hvs : branchesOf? es = some vs) :
    ∃ outer bs start m, List.Forall₂ Carried (withoutComposition es) outer ∧ List.Forall₂ FlattensTo vs bs ∧
      Merge.start outer = .ok start ∧ bs.foldlM Merge.add start = .ok m ∧ w = .map m.finish := by
  unfold FlattensTo at h
  rw [flatten] at h
  obtain ⟨outer, houter, h⟩ := bind_eq_ok_iff.mp h
  obtain ⟨out, hout, h⟩ := bind_eq_ok_iff.mp h
  cases h
  rw [compose_eq, hvs] at hout
  obtain ⟨start, hstart, hout⟩ := bind_eq_ok_iff.mp hout
  obtain ⟨m, hm, hout⟩ := bind_eq_ok_iff.mp hout
  cases hout
  obtain ⟨bs, hbs, hrun⟩ := mergeBranches_ok hm
  exact ⟨outer, bs, start, m, flattenEntries_carried houter, hbs, hstart, hrun, rfl⟩

end

/-! ## Carried entries -/

section
variable {e f : Scalar × Value} {es fs : Entries}

theorem Carried.key (h : Carried e f) : e.1 = f.1 := by
  cases h <;> rfl

/-- The schemas in a carried entry are flattened. -/
theorem Carried.holds (h : Carried e f) {w : Value} (hw : Holds f w) : ∃ v, Holds e v ∧ FlattensTo v w := by
  have hapart : "properties" ∉ schemaKeys ∧ ∀ name ∈ schemaListKeys, name ∉ schemaKeys := by decide
  cases h with
  | schema hname hv =>
    rw [holds_single (Law.isOneOf_text.mpr hname)] at hw
    exact ⟨_, .single hname, hw ▸ hv⟩
  | choice hname hvs =>
    rw [holds_list fun h => hapart.2 _ hname (Law.isOneOf_text.mp h)] at hw
    obtain ⟨v, hv, hflat⟩ := exists_of_forall₂ hvs _ hw.2
    exact ⟨v, .choice hname hv, hflat⟩
  | properties hps =>
    rw [holds_map fun h => hapart.1 (Law.isOneOf_text.mp h)] at hw
    obtain ⟨-, q, hq, rfl⟩ := hw
    obtain ⟨p, hp, hflat⟩ := exists_of_forall₂ hps _ hq
    exact ⟨p.2, .property hp, hflat.2⟩
  | other hno => exact absurd hw (hno _)

theorem Carried.unchanged {name : String} {v w : Value} (h : Carried (.text name, v) (.text name, w))
    (hname : name ∉ schemaPlaces) : w = v := by
  cases h with
  | schema hs _ => exact absurd (List.mem_cons_of_mem _ (List.mem_append_left _ hs)) hname
  | choice hl _ => exact absurd (List.mem_cons_of_mem _ (List.mem_append_right _ hl)) hname
  | properties _ => exact absurd (List.mem_cons_self ..) hname
  | other _ => rfl

theorem Carried.of_properties {ps : Entries} {w : Value}
    (h : Carried (.text "properties", .map ps) (.text "properties", w)) :
    ∃ qs, w = .map qs ∧ List.Forall₂ (SameKey FlattensTo) ps qs := by
  cases h with
  | schema hname _ => exact absurd hname (by decide)
  | properties hps => exact ⟨_, rfl, hps⟩
  | other hno =>
    obtain rfl : ps = [] := List.eq_nil_iff_forall_not_mem.mpr fun p hp => hno _ (.property hp)
    exact ⟨[], rfl, .nil⟩

theorem get?_carried (h : List.Forall₂ Carried es fs) (name : String) :
    Option.Rel (fun v w => Carried (.text name, v) (.text name, w)) (Entries.get? es name) (Entries.get? fs name) := by
  induction h with
  | nil => exact .none
  | @cons e f es fs hef _ ih =>
    obtain ⟨k, v⟩ := e
    obtain ⟨j, w⟩ := f
    obtain rfl : k = j := hef.key
    rw [Entries.get?_cons, Entries.get?_cons]
    by_cases hk : k = .text name
    · subst hk
      rw [if_pos rfl, if_pos rfl]
      exact .some hef
    · rw [if_neg hk, if_neg hk]
      exact ih

theorem get?_withoutComposition {name : String} (hname : name ≠ "allOf") : ∀ es : Entries,
    Entries.get? (withoutComposition es) name = Entries.get? es name
  | [] => rfl
  | (k, v) :: es => by
    by_cases hk : k = .text "allOf"
    · subst hk
      rw [withoutComposition_skip, get?_withoutComposition hname es, Entries.get?_cons,
        if_neg fun he => hname (Scalar.text.inj he).symm]
    · rw [withoutComposition_cons hk, Entries.get?_cons, Entries.get?_cons, get?_withoutComposition hname es]

/-- What stands under a name among the carried entries was carried there. -/
theorem exists_carried (h : List.Forall₂ Carried (withoutComposition es) fs) {name : String} (hname : name ≠ "allOf")
    {w : Value} (hw : Entries.get? fs name = some w) :
    ∃ v, Entries.get? es name = some v ∧ Carried (.text name, v) (.text name, w) := by
  have hrel := get?_carried h name
  rw [get?_withoutComposition hname, hw] at hrel
  cases hget : Entries.get? es name with
  | none =>
    rw [hget] at hrel
    cases hrel
  | some v =>
    rw [hget] at hrel
    cases hrel with
    | some hcarried => exact ⟨v, rfl, hcarried⟩

end

end ToolServer.Schema
