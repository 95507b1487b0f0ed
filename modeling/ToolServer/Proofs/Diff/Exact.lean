import ToolServer.Proofs.Diff.Mirror

/-!
# Comparisons are exact

A comparison looks at certain aspects of a tool: what it says of itself, where it goes, and of each parameter
whether it is there, its type, whether it must be given, and its choices. `comparison_exact`: it tells once of
each aspect that differs and of no other, so nothing is told just where two servers agree.
-/

namespace ToolServer

open Diff Ordered

/-- No parameter is given twice, and the values of enumerations have a form in JSON and equal themselves. -/
structure InputSchema.Definite (s : InputSchema) : Prop where
  distinct : Distinct s.properties
  represented : RepresentableEnums s
  reflexive : ∀ e ∈ s.properties, ∀ v ∈ e.2.enum.getD [], (v == v) = true

def Config.Definite (c : Config) : Prop := ∀ t ∈ c.tools, t.inputSchema.Definite

structure Config.NamesDistinct (c : Config) : Prop where
  tools : (c.tools.map (·.name)).Nodup
  envs : (c.envVars.map (·.name)).Nodup

theorem Config.Definite.representable {c : Config} (h : c.Definite) : c.RepresentableEnums :=
  fun t ht => (h t ht).represented

namespace Diff

/-! ## Aspects -/

inductive Aspect
  | description | method | path | baseUrl
  | presence (name : String)
  | type (name : String)
  | mandatory (name : String)
  | choices (name : String)
deriving DecidableEq, Repr

def Aspect.field : Aspect → String
  | description => "description"
  | method => "handler.method"
  | path => "handler.path"
  | baseUrl => "handler.baseUrl"
  | presence name => "param." ++ name
  | type name => "param." ++ name ++ ".type"
  | mandatory name => "param." ++ name ++ ".required"
  | choices name => "param." ++ name ++ ".enum"

def Difference.aspect : Difference → Aspect
  | .description _ _ => .description
  | .method _ _ => .method
  | .path _ _ => .path
  | .baseUrl _ _ => .baseUrl
  | .added name _ _ | .removed name _ => .presence name
  | .type name _ _ => .type name
  | .required name _ _ => .mandatory name
  | .enum name _ _ => .choices name

theorem Difference.field_detail (x : Difference) : x.detail.field = x.aspect.field := by
  cases x <;> rfl

inductive InputsDiffer (old new : InputSchema) : Aspect → Prop
  | presence {name} : contains name old.properties ≠ contains name new.properties →
      InputsDiffer old new (.presence name)
  | type {name p q} : get? name old.properties = some p → get? name new.properties = some q →
      p.type ≠ q.type → InputsDiffer old new (.type name)
  | mandatory {name p q} : get? name old.properties = some p → get? name new.properties = some q →
      ¬ (name ∈ old.required ↔ name ∈ new.required) → InputsDiffer old new (.mandatory name)
  | choices {name p q} : get? name old.properties = some p → get? name new.properties = some q →
      (p.enum.getD [] == q.enum.getD []) = false → InputsDiffer old new (.choices name)

inductive Differs (t u : Tool) : Aspect → Prop
  | description : t.description ≠ u.description → Differs t u .description
  | method : Text.upper t.handler.method ≠ Text.upper u.handler.method → Differs t u .method
  | path : t.handler.path ≠ u.handler.path → Differs t u .path
  | baseUrl : t.handler.baseUrl ≠ u.handler.baseUrl → Differs t u .baseUrl
  | inputs {x} : InputsDiffer t.inputSchema u.inputSchema x → Differs t u x

/-! ## What is told -/

theorem enumsDiffer_iff {p q : Property} :
    EnumsDiffer p q ↔ (p.enum.getD [] == q.enum.getD []) = false := by
  unfold EnumsDiffer hasEnum
  cases hp : p.enum with
  | none =>
    cases hq : q.enum with
    | none => simp
    | some ws => cases ws <;> simp [bne]
  | some vs =>
    cases hq : q.enum with
    | none => cases vs <;> simp [bne]
    | some ws =>
      cases vs with
      | nil => cases ws <;> simp [bne]
      | cons v vs =>
        cases ws with
        | nil => simp [bne]
        | cons w ws => by_cases h : (v == w) = true <;> simp [bne, h]

section
variable {old new : InputSchema} {ds : List Difference} {a : Aspect}

theorem contains_of_get? {name : String} {s : InputSchema} {p : Property} (h : get? name s.properties = some p) :
    contains name s.properties = true := contains_iff.mpr ⟨p, h⟩

theorem InputsDiffer.of_emitted (hold : Distinct old.properties) (hnew : Distinct new.properties) {x : Difference}
    (h : Emitted old new x) : InputsDiffer old new x.aspect := by
  cases h with
  | @added name q hmem hmissing =>
    have hhas := contains_of_get? (get?_of_mem hnew hmem (beq_self_eq_true name))
    apply InputsDiffer.presence
    rw [hmissing, hhas]
    exact Bool.false_ne_true
  | @removed name p hmem hmissing =>
    have hhas := contains_of_get? (get?_of_mem hold hmem (beq_self_eq_true name))
    apply InputsDiffer.presence
    rw [hmissing, hhas]
    exact Bool.noConfusion
  | @kept name p q _ hkept hshown =>
    have hq : get? name new.properties = some q := get?_of_mem hnew hkept.new (beq_self_eq_true name)
    cases hshown with
    | type hne => exact .type hkept.old hq hne
    | required hne =>
      refine .mandatory hkept.old hq fun hiff => hne ?_
      rw [Bool.eq_iff_iff, List.contains_iff_mem, List.contains_iff_mem]
      exact hiff
    | enum hdiffer _ _ => exact .choices hkept.old hq (enumsDiffer_iff.mp hdiffer)

theorem InputsDiffer.emitted (hold : RepresentableEnums old) (hnew : RepresentableEnums new)
    (h : InputsDiffer old new a) : ∃ x, Emitted old new x ∧ x.aspect = a := by
  cases h with
  | @presence name hne =>
    by_cases hhas : contains name old.properties = true
    · have hgone : contains name new.properties = false := by
        rw [hhas] at hne
        exact Bool.eq_false_iff.mpr hne.symm
      obtain ⟨p, hp⟩ := contains_iff.mp hhas
      exact ⟨_, .removed (pair_mem_of_get? hp) hgone, rfl⟩
    · have hmissing : contains name old.properties = false := Bool.eq_false_iff.mpr hhas
      have hhas' : contains name new.properties = true := by
        rw [hmissing] at hne
        exact Bool.eq_true_of_not_eq_false hne.symm
      obtain ⟨q, hq⟩ := contains_iff.mp hhas'
      exact ⟨_, .added (pair_mem_of_get? hq) hmissing, rfl⟩
  | type hp hq hne => exact ⟨_, .kept ⟨hp, pair_mem_of_get? hq⟩ (.type hne), rfl⟩
  | mandatory hp hq hne =>
    refine ⟨_, .kept ⟨hp, pair_mem_of_get? hq⟩ (.required fun heq => hne ?_), rfl⟩
    rw [← List.contains_iff_mem, ← List.contains_iff_mem, heq]
  | choices hp hq hne =>
    obtain ⟨s, hs⟩ := enumText_isOk.mpr (hold _ (pair_mem_of_get? hp))
    obtain ⟨t, ht⟩ := enumText_isOk.mpr (hnew _ (pair_mem_of_get? hq))
    exact ⟨_, .kept ⟨hp, pair_mem_of_get? hq⟩ (.enum (enumsDiffer_iff.mpr hne) hs ht), rfl⟩

theorem aspect_mem_schemaDifferences_iff (hold : old.Definite) (hnew : new.Definite)
    (h : schemaDifferences old new = .ok ds) : a ∈ ds.map (·.aspect) ↔ InputsDiffer old new a := by
  rw [List.mem_map]
  constructor
  · rintro ⟨x, hx, rfl⟩
    exact .of_emitted hold.distinct hnew.distinct ((mem_schemaDifferences_iff h).mp hx)
  · intro hdiffer
    obtain ⟨x, hx, ha⟩ := hdiffer.emitted hold.represented hnew.represented
    exact ⟨x, (mem_schemaDifferences_iff h).mpr hx, ha⟩

end

theorem aspect_mem_handlerDifferences_iff {t u : Tool} {a : Aspect} :
    a ∈ (handlerDifferences t u).map (·.aspect) ↔
      Differs t u a ∧ ¬ InputsDiffer t.inputSchema u.inputSchema a := by
  have hnot : ∀ a ∈ [Aspect.description, .method, .path, .baseUrl],
      ¬ InputsDiffer t.inputSchema u.inputSchema a := by
    intro a ha h
    cases h <;> simp at ha
  constructor
  · intro h
    simp only [handlerDifferences, List.map_append, List.mem_append] at h
    rcases h with ((h | h) | h) | h
    all_goals split at h
    all_goals simp only [List.map_nil, List.not_mem_nil, List.map_cons, List.mem_singleton] at h
    · subst h
      exact ⟨.description ‹_›, hnot _ (by simp [Difference.aspect])⟩
    · subst h
      exact ⟨.method ‹_›, hnot _ (by simp [Difference.aspect])⟩
    · subst h
      exact ⟨.path ‹_›, hnot _ (by simp [Difference.aspect])⟩
    · subst h
      exact ⟨.baseUrl ‹_›, hnot _ (by simp [Difference.aspect])⟩
  · rintro ⟨h, hinputs⟩
    cases h with
    | description hne => simp [handlerDifferences, hne, Difference.aspect]
    | method hne => simp [handlerDifferences, hne, Difference.aspect]
    | path hne => simp [handlerDifferences, hne, Difference.aspect]
    | baseUrl hne => simp [handlerDifferences, hne, Difference.aspect]
    | inputs h => exact absurd h hinputs

/-! ## Once -/

def keptAspects (name : String) : List Aspect := [.type name, .mandatory name, .choices name]

section
variable {old new : InputSchema}

theorem aspects_changedIn {name : String} {p q : Property} {ds : List Difference}
    (h : changedIn old new name p q = .ok ds) : (ds.map (·.aspect)).Sublist (keptAspects name) := by
  obtain ⟨es, hes, h⟩ := bind_eq_ok_iff.mp h
  cases h
  have henum : (es.map (·.aspect)).Sublist [.choices name] := by
    rw [enumDifference_eq] at hes
    split at hes
    · obtain ⟨s, -, hes⟩ := bind_eq_ok_iff.mp hes
      obtain ⟨t, -, hes⟩ := bind_eq_ok_iff.mp hes
      cases hes
      exact List.Sublist.refl _
    · cases hes
      exact List.nil_sublist _
  have htype : ((if p.type = q.type then [] else [Difference.type name p.type q.type]).map (·.aspect)).Sublist
      [.type name] := by
    split
    · exact List.nil_sublist _
    · exact List.Sublist.refl _
  have hrequired : ((if old.required.contains name = new.required.contains name then [] else
      [Difference.required name (old.required.contains name) (new.required.contains name)]).map
        (·.aspect)).Sublist [.mandatory name] := by
    split
    · exact List.nil_sublist _
    · exact List.Sublist.refl _
  rw [List.map_append, List.map_append]
  exact (htype.append hrequired).append henum

theorem aspects_changedBetween : ∀ {es : List (String × Property)} {ds : List Difference},
    changedBetween old new es = .ok ds → (ds.map (·.aspect)).Sublist (es.flatMap fun e => keptAspects e.1)
  | [], ds, h => by
    cases h
    exact List.Sublist.refl _
  | (name, q) :: es, ds, h => by
    rw [List.flatMap_cons]
    cases hold : get? name old.properties with
    | none =>
      rw [changedBetween_absent hold] at h
      exact (aspects_changedBetween h).trans (List.sublist_append_right ..)
    | some p =>
      rw [changedBetween_present hold] at h
      obtain ⟨here, hhere, h⟩ := bind_eq_ok_iff.mp h
      obtain ⟨rest, hrest, h⟩ := bind_eq_ok_iff.mp h
      cases h
      rw [List.map_append]
      exact (aspects_changedIn hhere).append (aspects_changedBetween hrest)

theorem nodup_presence {m n : List (String × Property)} (hn : Distinct n) :
    ((missing m n).map fun e => Aspect.presence e.1).Nodup := by
  have hnames : ((missing m n).map (·.1)).Nodup := distinct_iff_nodup.mp (distinct_missing m hn)
  have hmap := hnames.map (f := Aspect.presence) fun a b h => Aspect.presence.inj h
  rwa [List.map_map] at hmap

theorem nodup_keptAspects {m : List (String × Property)} (hm : Distinct m) :
    (m.flatMap fun e => keptAspects e.1).Nodup := by
  have hnames : m.Pairwise fun e f => e.1 ≠ f.1 := List.pairwise_map.mp (distinct_iff_nodup.mp hm)
  rw [List.nodup_flatMap]
  refine ⟨fun e _ => by simp [keptAspects], hnames.imp fun hne a ha hb => ?_⟩
  simp only [keptAspects, List.mem_cons, List.not_mem_nil, or_false] at ha hb
  rcases ha with rfl | rfl | rfl <;> simp [hne] at hb

theorem nodup_aspects_schemaDifferences (hold : Distinct old.properties) (hnew : Distinct new.properties)
    {ds : List Difference} (h : schemaDifferences old new = .ok ds) : (ds.map (·.aspect)).Nodup := by
  obtain ⟨changed, hchanged, h⟩ := bind_eq_ok_iff.mp h
  cases h
  have hadded : (addedTo old new).map (·.aspect) =
      (missing old.properties new.properties).map fun e => .presence e.1 := by
    rw [addedTo, List.map_map]
    rfl
  have hremoved : (removedFrom old new).map (·.aspect) =
      (missing new.properties old.properties).map fun e => .presence e.1 := by
    rw [removedFrom, List.map_map]
    rfl
  have hsub := aspects_changedBetween hchanged
  rw [List.map_append, List.map_append, hadded, hremoved]
  refine ((nodup_presence hnew).append (nodup_presence hold) ?_).append (hsub.nodup (nodup_keptAspects hnew)) ?_
  · -- a parameter is not both new and gone
    intro a ha hb
    obtain ⟨e, he, rfl⟩ := List.mem_map.mp ha
    obtain ⟨f, hf, hfe⟩ := List.mem_map.mp hb
    have hname : f.1 = e.1 := Aspect.presence.inj hfe
    obtain ⟨he, -⟩ := List.mem_filter.mp he
    obtain ⟨-, hf⟩ := List.mem_filter.mp hf
    rw [hname, contains_of_get? (get?_of_mem hnew he (beq_self_eq_true _))] at hf
    cases hf
  · intro a ha hb
    have hpresence : ∃ name, a = .presence name := by
      rcases List.mem_append.mp ha with ha | ha <;> obtain ⟨e, -, rfl⟩ := List.mem_map.mp ha
      · exact ⟨e.1, rfl⟩
      · exact ⟨e.1, rfl⟩
    obtain ⟨name, rfl⟩ := hpresence
    obtain ⟨e, -, he⟩ := List.mem_flatMap.mp (hsub.subset hb)
    simp [keptAspects] at he

end

theorem nodup_aspects_handlerDifferences (t u : Tool) : ((handlerDifferences t u).map (·.aspect)).Nodup := by
  have hsub : ((handlerDifferences t u).map (·.aspect)).Sublist [.description, .method, .path, .baseUrl] := by
    simp only [handlerDifferences, List.map_append]
    have hpart : ∀ (p : Prop) [Decidable p] (x : Difference),
        ((if p then [] else [x]).map (·.aspect)).Sublist [x.aspect] := by
      intro p _ x
      split
      · exact List.nil_sublist _
      · exact List.Sublist.refl _
    exact (((hpart ..).append (hpart ..)).append (hpart ..)).append (hpart ..)
  exact hsub.nodup (by decide)

/-- A report tells once of each aspect in which two versions differ, under the field of the aspect. -/
structure Exact (t u : Tool) (ds : List Difference) : Prop where
  once : (ds.map (·.aspect)).Nodup
  told : ∀ a, a ∈ ds.map (·.aspect) ↔ Differs t u a
  fields : ds.map (·.detail.field) = ds.map (·.aspect.field)

theorem toolDifferences_exact {t u : Tool} (ht : t.inputSchema.Definite) (hu : u.inputSchema.Definite) :
    ∃ ds, toolDifferences t u = .ok ds ∧ Exact t u ds := by
  obtain ⟨ds, hds⟩ := schemaDifferences_isOk.mpr (enumsTold_of_representable ht.represented hu.represented)
  have hinputs := fun a => aspect_mem_schemaDifferences_iff (a := a) ht hu hds
  refine ⟨_, bind_eq_ok_iff.mpr ⟨ds, hds, rfl⟩, ?_, ?_, ?_⟩
  · rw [List.map_append]
    refine (nodup_aspects_handlerDifferences t u).append
      (nodup_aspects_schemaDifferences ht.distinct hu.distinct hds) fun a ha hb => ?_
    exact (aspect_mem_handlerDifferences_iff.mp ha).2 ((hinputs a).mp hb)
  · intro a
    rw [List.map_append, List.mem_append, aspect_mem_handlerDifferences_iff, hinputs a]
    constructor
    · rintro (⟨h, -⟩ | h)
      · exact h
      · exact .inputs h
    · intro h
      by_cases hi : InputsDiffer t.inputSchema u.inputSchema a
      · exact .inr hi
      · exact .inl ⟨h, hi⟩
  · exact List.map_congr_left fun x _ => x.field_detail

/-! ## Servers -/

structure Agree (a b : Config) : Prop where
  name : a.name = b.name
  version : a.version = b.version
  description : a.description = b.description
  tools : a.toolNames = b.toolNames
  envs : a.envNames = b.envNames
  aspects : ∀ t ∈ a.tools, ∀ u ∈ b.tools, t.name = u.name → ∀ x, ¬ Differs t u x

section
variable {old new : Config}

theorem metadataChange_nil_iff : metadataChange old new = [] ↔
    old.name = new.name ∧ old.version = new.version ∧ old.description = new.description := by
  simp [metadataChange, metadataDetails]

theorem missing_nil_iff {β γ : Type} {m : List (String × β)} {n : List (String × γ)} (hn : Distinct n) :
    missing m n = [] ↔ keys n ⊆ keys m := by
  rw [← List.length_eq_zero_iff, length_missing hn, Finset.card_eq_zero, Finset.sdiff_eq_empty_iff_subset]

theorem modified_nil_iff : (toolsByName new).filterMap (modification? (toolsByName old)) = [] ↔
    ∀ name, isModified old new name = false := by
  rw [← List.length_eq_zero_iff, length_modified, Finset.card_eq_zero, modifiedNames, Finset.filter_eq_empty_iff]
  constructor
  · intro h name
    by_cases hshared : name ∈ sharedNames old new
    · exact Bool.eq_false_iff.mpr (h hshared)
    · rw [sharedNames, Finset.mem_inter, ← toolNamed_isSome, ← toolNamed_isSome] at hshared
      unfold isModified
      cases ht : old.toolNamed name with
      | none => rfl
      | some t =>
        cases hu : new.toolNamed name with
        | none => rfl
        | some u => simp [ht, hu] at hshared
  · intro h name _
    exact Bool.eq_false_iff.mp (h name)

theorem changes_nil_iff : (difference old new).changes = [] ↔
    (old.name = new.name ∧ old.version = new.version ∧ old.description = new.description) ∧
      old.toolNames = new.toolNames ∧ old.envNames = new.envNames ∧
      ∀ name, isModified old new name = false := by
  simp only [difference, List.append_eq_nil_iff, List.map_eq_nil_iff, metadataChange_nil_iff, modified_nil_iff,
    missing_nil_iff (distinct_toolsByName _), missing_nil_iff (distinct_envsByName _), keys_toolsByName,
    keys_envsByName]
  constructor
  · rintro ⟨⟨⟨⟨⟨hmeta, hadded⟩, hremoved⟩, hmodified⟩, hnew⟩, hgone⟩
    exact ⟨hmeta, hremoved.antisymm hadded, hgone.antisymm hnew, hmodified⟩
  · rintro ⟨hmeta, htools, henvs, hmodified⟩
    exact ⟨⟨⟨⟨⟨hmeta, htools.ge⟩, htools.le⟩, hmodified⟩, henvs.ge⟩, henvs.le⟩

theorem isModified_eq_false_iff (hold : old.Definite) (hnew : new.Definite) {name : String} :
    isModified old new name = false ↔
      ∀ t u, old.toolNamed name = some t → new.toolNamed name = some u → ∀ x, ¬ Differs t u x := by
  unfold isModified
  cases ht : old.toolNamed name with
  | none => simp
  | some t =>
    cases hu : new.toolNamed name with
    | none => simp
    | some u =>
      obtain ⟨ds, hds, hexact⟩ := toolDifferences_exact (hold t (Config.toolNamed_mem ht))
        (hnew u (Config.toolNamed_mem hu))
      have hnil : ds = [] ↔ ∀ x, ¬ Differs t u x := by
        rw [← List.map_eq_nil_iff (f := (·.aspect)), List.eq_nil_iff_forall_not_mem]
        exact forall_congr' fun x => not_congr (hexact.told x)
      simp [hds, hnil]

theorem changes_nil_iff_agree (hold : old.Definite) (hnew : new.Definite) (hdistinct : (old.tools.map (·.name)).Nodup)
    (hdistinct' : (new.tools.map (·.name)).Nodup) : (difference old new).changes = [] ↔ Agree old new := by
  rw [changes_nil_iff]
  constructor
  · rintro ⟨⟨hname, hversion, hdescription⟩, htools, henvs, hmodified⟩
    refine ⟨hname, hversion, hdescription, htools, henvs, fun t ht u hu hnames => ?_⟩
    have hu' := Config.toolNamed_of_mem hdistinct' hu
    rw [← hnames] at hu'
    exact (isModified_eq_false_iff hold hnew).mp (hmodified t.name) t u (Config.toolNamed_of_mem hdistinct ht) hu'
  · intro h
    refine ⟨⟨h.name, h.version, h.description⟩, h.tools, h.envs, fun name => ?_⟩
    refine (isModified_eq_false_iff hold hnew).mpr fun t u ht hu => ?_
    have hnames : t.name = u.name := by rw [Config.toolNamed_name ht, Config.toolNamed_name hu]
    exact h.aspects t (Config.toolNamed_mem ht) u (Config.toolNamed_mem hu) hnames

end

/-! ## A server and itself -/

theorem values_beq_self {vs : List Document.Value} (h : ∀ v ∈ vs, (v == v) = true) : (vs == vs) = true := by
  induction vs with
  | nil => rfl
  | cons v vs ih =>
    obtain ⟨hv, hvs⟩ := List.forall_mem_cons.mp h
    rw [List.cons_beq_cons, hv, ih hvs]
    rfl

theorem not_differs_self {t : Tool} (ht : t.inputSchema.Definite) (a : Aspect) : ¬ Differs t t a := by
  intro h
  cases h with
  | description hne => exact hne rfl
  | method hne => exact hne rfl
  | path hne => exact hne rfl
  | baseUrl hne => exact hne rfl
  | inputs h =>
    cases h with
    | presence hne => exact hne rfl
    | type hp hq hne =>
      rw [hp] at hq
      cases hq
      exact hne rfl
    | mandatory _ _ hne => exact hne Iff.rfl
    | choices hp hq hne =>
      rw [hp] at hq
      cases hq
      rw [values_beq_self (ht.reflexive _ (pair_mem_of_get? hp))] at hne
      cases hne

/-- **A comparison tells once of each aspect that differs, and of no other.** So it tells nothing just where two
servers agree, as a server does with itself. -/
theorem comparison_exact :
    (∀ t u : Tool, t.inputSchema.Definite → u.inputSchema.Definite →
      ∃ ds, toolDifferences t u = .ok ds ∧ Exact t u ds) ∧
    (∀ a b : Config, a.Definite → b.Definite → a.NamesDistinct → b.NamesDistinct →
      ∃ d, compareConfigs a b = .ok d ∧ (d.changes = [] ↔ Agree a b)) ∧
    (∀ c : Config, c.Definite → ∃ d, compareConfigs c c = .ok d ∧ d.changes = [] ∧ d.isCompatible = true) := by
  refine ⟨fun t u ht hu => toolDifferences_exact ht hu, fun a b ha hb hna hnb => ?_, fun c hc => ?_⟩
  · have hcomparable := comparable_of_representable ha.representable hb.representable
    exact ⟨_, compareConfigs_eq hcomparable, changes_nil_iff_agree ha hb hna.tools hnb.tools⟩
  · have hcomparable := comparable_of_representable hc.representable hc.representable
    refine ⟨_, compareConfigs_eq hcomparable, ?_, (isCompatible_difference c c).mpr Finset.Subset.rfl⟩
    refine changes_nil_iff.mpr ⟨⟨rfl, rfl, rfl⟩, rfl, rfl, fun name => ?_⟩
    refine (isModified_eq_false_iff hc hc).mpr fun t u ht hu => ?_
    rw [ht] at hu
    cases hu
    exact not_differs_self (hc t (Config.toolNamed_mem ht))

def soldTool : Tool :=
  { petTool "find" [("status", { type := "string", enum := some [.scalar (.text "sold"), .scalar .null] })] with
    inputSchema := {
      properties := [("status", { type := "string", enum := some [.scalar (.text "sold"), .scalar .null] })]
      required := ["status"] } }

def anyTool : Tool := petTool "find" [("status", { type := "string", enum := some [] })]

def petsOf (t : Tool) : Config where
  name := "pets"
  version := "1"
  description := ""
  baseUrl := "http://pets.test"
  tools := [t]
  envVars := []

theorem definite_soldTool : soldTool.inputSchema.Definite where
  distinct := by decide
  represented := by
    have hsold : Json.Representable (.scalar (.text "sold")) := .scalar (by decide)
    have hnull : Json.Representable (.scalar .null) := .scalar (by decide)
    simp [soldTool, RepresentableEnums, RepresentableEnum, hsold, hnull]
  reflexive := by
    intro e he v hv
    simp only [soldTool, List.mem_singleton] at he
    subst he
    simp only [Option.getD_some, List.mem_cons, List.not_mem_nil, or_false] at hv
    rcases hv with rfl | rfl <;> rfl

theorem definite_anyTool : anyTool.inputSchema.Definite where
  distinct := by decide
  represented := by simp [anyTool, petTool, RepresentableEnums, RepresentableEnum]
  reflexive := by simp [anyTool, petTool]

example : (toolDifferences soldTool anyTool).map (·.map (·.aspect)) =
    .ok [.mandatory "status", .choices "status"] := by decide +kernel

theorem comparison_exact_pets :
    (soldTool.inputSchema.Definite ∧ anyTool.inputSchema.Definite ∧
      ∃ ds, toolDifferences soldTool anyTool = .ok ds ∧ Exact soldTool anyTool ds) ∧
    ((petsOf soldTool).Definite ∧ (petsOf anyTool).Definite ∧ (petsOf soldTool).NamesDistinct ∧
      (petsOf anyTool).NamesDistinct ∧ ∃ d, compareConfigs (petsOf soldTool) (petsOf anyTool) = .ok d ∧
        (d.changes = [] ↔ Agree (petsOf soldTool) (petsOf anyTool))) ∧
    (∃ d, compareConfigs (petsOf soldTool) (petsOf soldTool) = .ok d ∧ d.changes = [] ∧ d.isCompatible = true) := by
  have hsold : (petsOf soldTool).Definite := List.forall_mem_singleton.mpr definite_soldTool
  have hany : (petsOf anyTool).Definite := List.forall_mem_singleton.mpr definite_anyTool
  have hnames : ∀ t, (petsOf t).NamesDistinct := fun t => ⟨List.nodup_singleton _, List.nodup_nil⟩
  obtain ⟨htools, hconfigs, hself⟩ := comparison_exact
  exact ⟨⟨definite_soldTool, definite_anyTool, htools _ _ definite_soldTool definite_anyTool⟩,
    ⟨hsold, hany, hnames _, hnames _, hconfigs _ _ hsold hany (hnames _) (hnames _)⟩, hself _ hsold⟩

end Diff

end ToolServer
