import ToolServer.Proofs.Diff.Account
import ToolServer.Proofs.Document.Equality

/-!
# Comparing the other way around

Two tools differ one way if they differ the other way: a parameter shows a difference in one place of the report or
in another. So of two servers, what is new one way around is gone the other way around, and what is modified or
unchanged stays so.
-/

namespace ToolServer

open Document (Value)

/-- No parameter is given twice, and no map in an enumeration has a key twice. -/
structure InputSchema.Keyed (s : InputSchema) : Prop where
  distinct : Ordered.Distinct s.properties
  values : ∀ e ∈ s.properties, ∀ v ∈ e.2.enum.getD [], v.Keyed

def Config.Keyed (c : Config) : Prop := ∀ t ∈ c.tools, t.inputSchema.Keyed

namespace Diff

open Ordered

/-! ## Tools -/

theorem values_beq_symm {vs ws : List Value} (hvs : ∀ v ∈ vs, v.Keyed) (hws : ∀ w ∈ ws, w.Keyed)
    (h : (vs == ws) = true) : (ws == vs) = true := by
  induction vs generalizing ws with
  | nil =>
    cases ws with
    | nil => rfl
    | cons w ws => simp at h
  | cons v vs ih =>
    cases ws with
    | nil => simp at h
    | cons w ws =>
      rw [List.cons_beq_cons, Bool.and_eq_true] at h ⊢
      obtain ⟨hv, hvs⟩ := List.forall_mem_cons.mp hvs
      obtain ⟨hw, hws⟩ := List.forall_mem_cons.mp hws
      exact ⟨Value.same_symm hv hw h.1, ih hvs hws h.2⟩

theorem EnumsDiffer.symm {p q : Property} (hp : ∀ v ∈ p.enum.getD [], v.Keyed)
    (hq : ∀ v ∈ q.enum.getD [], v.Keyed) (h : EnumsDiffer p q) : EnumsDiffer q p := by
  obtain ⟨hsome, hne⟩ := h
  refine ⟨by rwa [Bool.or_comm], ?_⟩
  rw [bne, Bool.not_eq_true', ← Bool.not_eq_true] at hne ⊢
  intro heq
  apply hne
  cases hpe : p.enum with
  | none =>
    cases hqe : q.enum with
    | none => rfl
    | some ws => simp [hpe, hqe] at heq
  | some vs =>
    cases hqe : q.enum with
    | none => simp [hpe, hqe] at heq
    | some ws =>
      rw [hpe, hqe] at heq
      rw [hpe] at hp
      rw [hqe] at hq
      exact values_beq_symm hq hp heq

section
variable {old new : InputSchema}

theorem Shown.symm {name : String} {p q : Property} {x : Difference} (hp : ∀ v ∈ p.enum.getD [], v.Keyed)
    (hq : ∀ v ∈ q.enum.getD [], v.Keyed) (h : Shown old new name p q x) : ∃ y, Shown new old name q p y := by
  cases h with
  | type hne => exact ⟨_, .type hne.symm⟩
  | required hne => exact ⟨_, .required hne.symm⟩
  | enum hdiffer hs ht => exact ⟨_, .enum (hdiffer.symm hp hq) ht hs⟩

theorem Emitted.symm {x : Difference} (hold : old.Keyed) (hnew : new.Keyed) (h : Emitted old new x) :
    ∃ y, Emitted new old y := by
  cases h with
  | added hmem hmissing => exact ⟨_, .removed hmem hmissing⟩
  | removed hmem hmissing => exact ⟨_, .added hmem hmissing⟩
  | @kept name p q _ hkept hshown =>
    have hmem : (name, p) ∈ old.properties := pair_mem_of_get? hkept.old
    obtain ⟨y, hy⟩ := hshown.symm (hold.values _ hmem) (hnew.values _ hkept.new)
    have hget : get? name new.properties = some q := get?_of_mem hnew.distinct hkept.new (beq_self_eq_true _)
    exact ⟨y, .kept ⟨hget, hmem⟩ hy⟩

theorem schemaDifferences_nil_of_nil (hold : old.Keyed) (hnew : new.Keyed) {ds : List Difference}
    (h : schemaDifferences old new = .ok []) (h' : schemaDifferences new old = .ok ds) : ds = [] := by
  refine List.eq_nil_iff_forall_not_mem.mpr fun x hx => ?_
  obtain ⟨y, hy⟩ := ((mem_schemaDifferences_iff h').mp hx).symm hnew hold
  exact absurd ((mem_schemaDifferences_iff h).mpr hy) (List.not_mem_nil)

end

theorem handlerDifferences_nil_iff {t u : Tool} : handlerDifferences t u = [] ↔
    t.description = u.description ∧ Text.upper t.handler.method = Text.upper u.handler.method ∧
      t.handler.path = u.handler.path ∧ t.handler.baseUrl = u.handler.baseUrl := by
  simp [handlerDifferences]

theorem toolDifferences_nil_of_nil {t u : Tool} (ht : t.inputSchema.Keyed) (hu : u.inputSchema.Keyed)
    {ds : List Difference} (h : toolDifferences t u = .ok []) (h' : toolDifferences u t = .ok ds) : ds = [] := by
  obtain ⟨xs, hxs, h⟩ := bind_eq_ok_iff.mp h
  obtain ⟨ys, hys, h'⟩ := bind_eq_ok_iff.mp h'
  cases h'
  obtain ⟨hhandler, rfl⟩ := List.append_eq_nil_iff.mp (Except.ok.inj h)
  obtain ⟨hdescription, hmethod, hpath, hbase⟩ := handlerDifferences_nil_iff.mp hhandler
  rw [schemaDifferences_nil_of_nil ht hu hxs hys, List.append_nil]
  exact handlerDifferences_nil_iff.mpr ⟨hdescription.symm, hmethod.symm, hpath.symm, hbase.symm⟩

/-! ## Names that a comparison tells of -/

namespace VersionDiff

def added (d : VersionDiff) : Set String := {name | ∃ text, .toolAdded name text ∈ d.changes}

def removed (d : VersionDiff) : Set String := {name | ∃ text, .toolRemoved name text ∈ d.changes}

def modified (d : VersionDiff) : Set String := {name | ∃ details, .toolModified name details ∈ d.changes}

def envsAdded (d : VersionDiff) : Set String := {name | ∃ text required, .envAdded name text required ∈ d.changes}

def envsRemoved (d : VersionDiff) : Set String := {name | .envRemoved name ∈ d.changes}

def HasMetadata (d : VersionDiff) : Prop := ∃ details, .metadata details ∈ d.changes

end VersionDiff

section
variable {name : String} {cs : List Change}

theorem ToolTold.added_iff {t u : Option Tool} (h : ToolTold name t u cs) :
    (∃ text, .toolAdded name text ∈ cs) ↔ u.isSome = true ∧ ¬ t.isSome = true := by
  cases h <;> simp

theorem ToolTold.removed_iff {t u : Option Tool} (h : ToolTold name t u cs) :
    (∃ text, .toolRemoved name text ∈ cs) ↔ t.isSome = true ∧ ¬ u.isSome = true := by
  cases h <;> simp

theorem EnvTold.added_iff {v w : Option EnvVar} (h : EnvTold name v w cs) :
    (∃ text required, .envAdded name text required ∈ cs) ↔ w.isSome = true ∧ ¬ v.isSome = true := by
  cases h <;> simp

theorem EnvTold.removed_iff {v w : Option EnvVar} (h : EnvTold name v w cs) :
    .envRemoved name ∈ cs ↔ v.isSome = true ∧ ¬ w.isSome = true := by
  cases h <;> simp

end

section
variable {old new : Config}

theorem ToolTold.modified_iff {name : String} {cs : List Change}
    (h : ToolTold name (old.toolNamed name) (new.toolNamed name) cs) :
    (∃ details, .toolModified name details ∈ cs) ↔ isModified old new name = true := by
  unfold isModified
  generalize old.toolNamed name = t at h ⊢
  generalize new.toolNamed name = u at h ⊢
  cases h with
  | absent => simp
  | added => simp
  | removed => simp
  | modified hds hne => simp [hds, hne]
  | unchanged hds => simp [hds]

theorem toolNamed_isSome {c : Config} {name : String} : (c.toolNamed name).isSome = true ↔ name ∈ c.toolNames := by
  rw [← keys_toolsByName, mem_keys, contains_iff, get?_toolsByName, Option.isSome_iff_exists]

theorem envNamed_isSome {c : Config} {name : String} : (c.envNamed name).isSome = true ↔ name ∈ c.envNames := by
  rw [← keys_envsByName, mem_keys, contains_iff, get?_envsByName, Option.isSome_iff_exists]

theorem added_difference (h : Comparable (toolsByName old) (toolsByName new)) :
    (difference old new).added = new.toolNames \ old.toolNames := by
  ext name
  have htold := (toolTold_difference h name).added_iff
  simpa [VersionDiff.added, Change.toolName, toolNamed_isSome] using htold

theorem removed_difference (h : Comparable (toolsByName old) (toolsByName new)) :
    (difference old new).removed = old.toolNames \ new.toolNames := by
  ext name
  have htold := (toolTold_difference h name).removed_iff
  simpa [VersionDiff.removed, Change.toolName, toolNamed_isSome] using htold

theorem modified_difference (h : Comparable (toolsByName old) (toolsByName new)) :
    (difference old new).modified = {name | isModified old new name = true} := by
  ext name
  have htold := (toolTold_difference h name).modified_iff
  simpa [VersionDiff.modified, Change.toolName] using htold

theorem envsAdded_difference (old new : Config) :
    (difference old new).envsAdded = new.envNames \ old.envNames := by
  ext name
  have htold := (envTold_difference old new name).added_iff
  simpa [VersionDiff.envsAdded, Change.envName, envNamed_isSome] using htold

theorem envsRemoved_difference (old new : Config) :
    (difference old new).envsRemoved = old.envNames \ new.envNames := by
  ext name
  have htold := (envTold_difference old new name).removed_iff
  simpa [VersionDiff.envsRemoved, Change.envName, envNamed_isSome] using htold

theorem hasMetadata_difference (old new : Config) : (difference old new).HasMetadata ↔
    ¬ (old.name = new.name ∧ old.version = new.version ∧ old.description = new.description) := by
  have hmodified : ∀ e ds, modification? (toolsByName old) e ≠ some (.metadata ds) := by
    intro e ds h
    obtain ⟨_, hc⟩ := modification?_some h
    cases hc
  simp [VersionDiff.HasMetadata, difference, addition, removal, newVariable, goneVariable, hmodified,
    metadataChange, metadataDetails]

end

/-! ## Two comparisons -/

theorem isModified_swap {a b : Config} (ha : a.RepresentableEnums) (hb : b.RepresentableEnums)
    (hka : a.Keyed) (hkb : b.Keyed) (name : String) : isModified a b name = isModified b a name := by
  unfold isModified
  cases ht : a.toolNamed name with
  | none => cases b.toolNamed name <;> rfl
  | some t =>
    cases hu : b.toolNamed name with
    | none => rfl
    | some u =>
      have hta := Config.toolNamed_mem ht
      have hub := Config.toolNamed_mem hu
      obtain ⟨ds, hds⟩ := toolDifferences_isOk.mpr (enumsTold_of_representable (ha t hta) (hb u hub))
      obtain ⟨es, hes⟩ := toolDifferences_isOk.mpr (enumsTold_of_representable (hb u hub) (ha t hta))
      have hnil : ds = [] ↔ es = [] := by
        constructor
        · rintro rfl
          exact toolDifferences_nil_of_nil (hka t hta) (hkb u hub) hds hes
        · rintro rfl
          exact toolDifferences_nil_of_nil (hkb u hub) (hka t hta) hes hds
      simp only [hds, hes]
      rw [Bool.eq_iff_iff]
      simp [hnil]

/-- What one comparison tells of is what the other tells of, the other way around. -/
structure Mirror (d e : VersionDiff) : Prop where
  added : d.added = e.removed
  removed : d.removed = e.added
  modified : d.modified = e.modified
  unchanged : d.stats.toolsUnchanged = e.stats.toolsUnchanged
  envsAdded : d.envsAdded = e.envsRemoved
  envsRemoved : d.envsRemoved = e.envsAdded
  metadata : d.HasMetadata ↔ e.HasMetadata

theorem mirror_difference {a b : Config} (hab : Comparable (toolsByName a) (toolsByName b))
    (hba : Comparable (toolsByName b) (toolsByName a))
    (hmodified : ∀ name, isModified a b name = isModified b a name) :
    Mirror (difference a b) (difference b a) where
  added := by rw [added_difference hab, removed_difference hba]
  removed := by rw [removed_difference hab, added_difference hba]
  modified := by simp only [modified_difference hab, modified_difference hba, hmodified]
  unchanged := by
    have hshared : sharedNames a b = sharedNames b a := Finset.inter_comm ..
    rw [stats_difference, stats_difference, classSizes, classSizes]
    simp only [modifiedNames, hshared, hmodified]
  envsAdded := by rw [envsAdded_difference, envsRemoved_difference]
  envsRemoved := by rw [envsRemoved_difference, envsAdded_difference]
  metadata := by
    rw [hasMetadata_difference, hasMetadata_difference, @eq_comm _ a.name, @eq_comm _ a.version,
      @eq_comm _ a.description]

/-- **The comparison the other way around is a mirror image.** -/
theorem comparison_mirror {a b : Config} (ha : a.RepresentableEnums) (hb : b.RepresentableEnums)
    (hka : a.Keyed) (hkb : b.Keyed) :
    ∃ d e, compareConfigs a b = .ok d ∧ compareConfigs b a = .ok e ∧ Mirror d e := by
  have hab := comparable_of_representable ha hb
  have hba := comparable_of_representable hb ha
  have hmodified := isModified_swap ha hb hka hkb
  exact ⟨difference a b, difference b a, compareConfigs_eq hab, compareConfigs_eq hba,
    mirror_difference hab hba hmodified⟩

theorem keyed_scalar (s : Document.Scalar) : (Value.scalar s).Keyed where
  keys _ h := by cases h
  members _ h := by cases h

theorem keyed_petsBefore : petsBefore.Keyed := by
  intro t ht
  constructor
  · revert t
    decide
  · simp only [petsBefore, petTool, List.mem_cons, List.not_mem_nil, or_false] at ht
    rcases ht with rfl | rfl | rfl | rfl <;> simp

theorem keyed_petsAfter : petsAfter.Keyed := by
  intro t ht
  constructor
  · revert t
    decide
  · simp only [petsAfter, petTool, List.mem_cons, List.not_mem_nil, or_false] at ht
    rcases ht with rfl | rfl | rfl <;> simp [keyed_scalar]

theorem comparison_mirror_pets : petsBefore.RepresentableEnums ∧ petsAfter.RepresentableEnums ∧
    petsBefore.Keyed ∧ petsAfter.Keyed ∧ ∃ d e, compareConfigs petsBefore petsAfter = .ok d ∧
      compareConfigs petsAfter petsBefore = .ok e ∧ Mirror d e :=
  ⟨representable_petsBefore, representable_petsAfter, keyed_petsBefore, keyed_petsAfter,
    comparison_mirror representable_petsBefore representable_petsAfter keyed_petsBefore keyed_petsAfter⟩

end Diff

end ToolServer
