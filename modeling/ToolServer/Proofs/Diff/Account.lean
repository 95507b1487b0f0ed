import ToolServer.Proofs.Diff.Told

/-!
# The account of a comparison

`comparison_accounts`: the changes tell of every name of a tool and of a variable what became of it, once, and
the counts, the notes and the word on compatibility agree with them.
-/

namespace ToolServer.Diff

open Ordered

section
variable {old new : Config}

/-! ## Counts -/

def isModified (old new : Config) (name : String) : Bool :=
  match old.toolNamed name, new.toolNamed name with
  | some t, some u =>
    match toolDifferences t u with
    | .ok ds => !ds.isEmpty
    | .error _ => false
  | _, _ => false

def sharedNames (old new : Config) : Finset String := old.toolNames ∩ new.toolNames

def modifiedNames (old new : Config) : Finset String := (sharedNames old new).filter (isModified old new ·)

theorem isModified_eq {name : String} {u : Tool} (hu : get? name (toolsByName new) = some u) :
    isModified old new name = (modification? (toolsByName old) (name, u)).isSome := by
  rw [isModified, ← get?_toolsByName, ← get?_toolsByName, hu, modification?]
  cases get? name (toolsByName old) with
  | none => rfl
  | some t =>
    cases hd : toolDifferences t u with
    | error e => simp [hd]
    | ok ds => cases ds <;> simp [hd]

theorem length_modified (old new : Config) :
    ((toolsByName new).filterMap (modification? (toolsByName old))).length = (modifiedNames old new).card := by
  have hkeys : keys ((toolsByName new).filter fun e => (modification? (toolsByName old) e).isSome) =
      modifiedNames old new := by
    ext name
    rw [mem_keys_filter (distinct_toolsByName new), modifiedNames, sharedNames, Finset.mem_filter, Finset.mem_inter,
      ← keys_toolsByName, ← keys_toolsByName, mem_keys, mem_keys, contains_iff (m := toolsByName new)]
    constructor
    · rintro ⟨u, hu, hsome⟩
      have hold : contains name (toolsByName old) = true := by
        rw [contains_iff]
        cases hget : get? name (toolsByName old) with
        | none => simp [modification?, hget] at hsome
        | some t => exact ⟨t, rfl⟩
      exact ⟨⟨hold, u, hu⟩, (isModified_eq hu).trans hsome⟩
    · rintro ⟨⟨-, u, hu⟩, hmodified⟩
      exact ⟨u, hu, (isModified_eq hu).symm.trans hmodified⟩
  rw [List.length_filterMap_eq_countP, List.countP_eq_length_filter, ← card_keys (distinct_filter
    (distinct_toolsByName new) _), hkeys]

theorem countP_of_forall {α : Type} {l : List α} {p : α → Bool} {b : Bool} (h : ∀ a ∈ l, p a = b) :
    l.countP p = if b then l.length else 0 := by
  cases b with
  | false => simpa using h
  | true => simpa using h

/-- A count of kinds of changes is one of the names that they tell of. -/
theorem countP_difference (old new : Config) (p : Change → Bool) {added removed modified newVar goneVar : Bool}
    (hmeta : ∀ ds, p (.metadata ds) = false) (hadded : ∀ e, p (addition e) = added)
    (hremoved : ∀ e, p (removal e) = removed) (hmodified : ∀ name ds, p (.toolModified name ds) = modified)
    (hnew : ∀ e, p (newVariable e) = newVar) (hgone : ∀ e, p (goneVariable e) = goneVar) :
    (difference old new).changes.countP p =
      (if added then (new.toolNames \ old.toolNames).card else 0) +
      (if removed then (old.toolNames \ new.toolNames).card else 0) +
      (if modified then (modifiedNames old new).card else 0) +
      (if newVar then (new.envNames \ old.envNames).card else 0) +
      (if goneVar then (old.envNames \ new.envNames).card else 0) := by
  have hmetadata : (metadataChange old new).countP p = 0 := by
    rcases metadataChange_eq old new with hm | hm <;> simp [hm, hmeta]
  have hmodification : ∀ c ∈ (toolsByName new).filterMap (modification? (toolsByName old)), p c = modified := by
    intro c hc
    obtain ⟨e, -, hc⟩ := List.mem_filterMap.mp hc
    obtain ⟨ds, rfl⟩ := modification?_some hc
    exact hmodified ..
  simp only [difference, List.countP_append, hmetadata, List.countP_map, countP_of_forall hmodification,
    countP_of_forall (fun e _ => hadded e), countP_of_forall (fun e _ => hremoved e),
    countP_of_forall (fun e _ => hnew e), countP_of_forall (fun e _ => hgone e), length_modified,
    length_missing (distinct_toolsByName _), length_missing (distinct_envsByName _), keys_toolsByName,
    keys_envsByName, Function.comp_def, Nat.zero_add]

theorem card_sharedNames (old new : Config) : (sharedNames old new).card =
    (modifiedNames old new).card + (sharedNames old new \ modifiedNames old new).card := by
  have hsub : modifiedNames old new ⊆ sharedNames old new := Finset.filter_subset ..
  rw [Nat.add_comm, Finset.card_sdiff_add_card_eq_card hsub]

theorem unchanged_difference (old new : Config) :
    (difference old new).unchanged = (sharedNames old new \ modifiedNames old new).card := by
  have hcommon := length_common (m := toolsByName old) (distinct_toolsByName new)
  rw [keys_toolsByName, keys_toolsByName] at hcommon
  have htotal := card_sharedNames old new
  simp only [difference, length_modified, hcommon]
  unfold sharedNames at *
  omega

def classSizes (old new : Config) : Stats where
  toolsAdded := (new.toolNames \ old.toolNames).card
  toolsRemoved := (old.toolNames \ new.toolNames).card
  toolsModified := (modifiedNames old new).card
  toolsUnchanged := (sharedNames old new \ modifiedNames old new).card
  envVarsAdded := (new.envNames \ old.envNames).card
  envVarsRemoved := (old.envNames \ new.envNames).card

theorem stats_difference (old new : Config) : (difference old new).stats = classSizes old new := by
  have hadded := countP_difference old new Change.isToolAdded (fun _ => rfl) (fun _ => rfl) (fun _ => rfl)
    (fun _ _ => rfl) (fun _ => rfl) (fun _ => rfl)
  have hremoved := countP_difference old new Change.isToolRemoved (fun _ => rfl) (fun _ => rfl) (fun _ => rfl)
    (fun _ _ => rfl) (fun _ => rfl) (fun _ => rfl)
  have hmodified := countP_difference old new Change.isToolModified (fun _ => rfl) (fun _ => rfl) (fun _ => rfl)
    (fun _ _ => rfl) (fun _ => rfl) (fun _ => rfl)
  have hnew := countP_difference old new Change.isEnvAdded (fun _ => rfl) (fun _ => rfl) (fun _ => rfl)
    (fun _ _ => rfl) (fun _ => rfl) (fun _ => rfl)
  have hgone := countP_difference old new Change.isEnvRemoved (fun _ => rfl) (fun _ => rfl) (fun _ => rfl)
    (fun _ _ => rfl) (fun _ => rfl) (fun _ => rfl)
  simp only [VersionDiff.stats, classSizes, hadded, hremoved, hmodified, hnew, hgone, unchanged_difference,
    Bool.false_eq_true, if_true, if_false, Nat.zero_add, Nat.add_zero]

/-- Only a removed tool breaks callers. -/
theorem isCompatible_difference (old new : Config) :
    (difference old new).isCompatible = true ↔ old.toolNames ⊆ new.toolNames := by
  have hmodified : ∀ name ds, ((Change.toolModified name ds).severity == .breaking) = false := by
    intro name ds
    simp only [Change.severity]
    split <;> rfl
  have hcount := countP_difference old new (·.severity == .breaking) (fun _ => rfl) (fun _ => rfl) (fun _ => rfl)
    hmodified (fun _ => rfl) (fun _ => rfl)
  simp only [Bool.false_eq_true, if_true, if_false, Nat.zero_add, Nat.add_zero] at hcount
  rw [VersionDiff.isCompatible, Bool.not_eq_true', ← Bool.not_eq_true, List.any_eq_true, ← List.countP_pos_iff,
    hcount, Nat.not_lt, Nat.le_zero, Finset.card_eq_zero, Finset.sdiff_eq_empty_iff_subset]

/-! ## Notes -/

/-- The list has the names of a property, each once. -/
structure Lists (names : List String) (p : String → Prop) : Prop where
  nodup : names.Nodup
  mem : ∀ name, name ∈ names ↔ p name

def goneNote (name : String) : String :=
  "Tool \"" ++ name ++ "\" was removed. Any automation referencing this tool will break."

def breakingNote (name : String) : String :=
  "Tool \"" ++ name ++ "\" has breaking parameter changes - verify automation compatibility."

def dueNote (name : String) : String :=
  "New required env var \"" ++ name ++ "\" must be set before running the updated server."

def HasBreaking (old new : Config) (name : String) : Prop :=
  ∃ t u ds, old.toolNamed name = some t ∧ new.toolNamed name = some u ∧ toolDifferences t u = .ok ds ∧
    ∃ x ∈ ds, x.detail.isBreaking = true

def IsDue (old new : Config) (name : String) : Prop :=
  name ∉ old.envNames ∧ ∃ v, new.envNamed name = some v ∧ v.required = true

def Noted (old new : Config) (notes : List String) : Prop :=
  ∃ gone breaking due,
    Lists gone (fun name => name ∈ old.toolNames ∧ name ∉ new.toolNames) ∧
    Lists breaking (HasBreaking old new) ∧ Lists due (IsDue old new) ∧
    notes = gone.map goneNote ++ breaking.map breakingNote ++ due.map dueNote

theorem lists_filter {β : Type} {m : List (String × β)} (hm : Distinct m) {p : String × β → Bool}
    {q : String → Prop} (h : ∀ name, (∃ v, get? name m = some v ∧ p (name, v) = true) ↔ q name) :
    Lists ((m.filter p).map (·.1)) q where
  nodup := distinct_iff_nodup.mp (distinct_filter hm p)
  mem name := by rw [← h, ← mem_keys_filter hm, keys, List.mem_toFinset]

def isNoted (old : List (String × Tool)) (e : String × Tool) : Bool :=
  ((modification? old e).bind (·.note?)).isSome

theorem note?_modified (name : String) (ds : List Detail) :
    (Change.toolModified name ds).note? = if ds.any (·.isBreaking) then some (breakingNote name) else none := rfl

theorem note?_newVariable (e : String × EnvVar) :
    (newVariable e).note? = if e.2.required then some (dueNote e.1) else none := by
  unfold newVariable
  cases e.2.required <;> rfl

theorem isNoted_modified {old : List (String × Tool)} {name : String} {t u : Tool} {ds : List Difference}
    (ht : get? name old = some t) (hds : toolDifferences t u = .ok ds) :
    isNoted old (name, u) = ds.any (·.detail.isBreaking) := by
  cases ds with
  | nil => simp [isNoted, modification?, ht, hds]
  | cons x ds =>
    simp only [isNoted, modification?, ht, hds, List.isEmpty_cons, Bool.false_eq_true, if_false, Option.bind_some,
      note?_modified, List.any_map, Function.comp_def]
    split <;> simp_all

theorem isNoted_iff {name : String} :
    (∃ u, get? name (toolsByName new) = some u ∧ isNoted (toolsByName old) (name, u) = true) ↔
      HasBreaking old new name := by
  unfold HasBreaking
  rw [← get?_toolsByName, ← get?_toolsByName]
  constructor
  · rintro ⟨u, hu, h⟩
    cases ht : get? name (toolsByName old) with
    | none => simp [isNoted, modification?, ht] at h
    | some t =>
      cases hds : toolDifferences t u with
      | error f => simp [isNoted, modification?, ht, hds] at h
      | ok ds =>
        rw [isNoted_modified ht hds] at h
        exact ⟨t, u, ds, rfl, hu, hds, List.any_eq_true.mp h⟩
  · rintro ⟨t, u, ds, ht, hu, hds, hbreaking⟩
    exact ⟨u, hu, (isNoted_modified ht hds).trans (List.any_eq_true.mpr hbreaking)⟩

theorem notes_difference (old new : Config) : (difference old new).notes =
    ((missing (toolsByName new) (toolsByName old)).map (·.1)).map goneNote ++
    (((toolsByName new).filter (isNoted (toolsByName old))).map (·.1)).map breakingNote ++
    (((missing (envsByName old) (envsByName new)).filter (·.2.required)).map (·.1)).map dueNote := by
  have hmeta : (metadataChange old new).filterMap (·.note?) = [] := by
    rcases metadataChange_eq old new with hm | hm <;> simp [hm, Change.note?]
  have htext : ∀ e text, (modification? (toolsByName old) e).bind (·.note?) = some text →
      text = breakingNote e.1 := by
    intro e text h
    obtain ⟨c, hc, h⟩ := Option.bind_eq_some_iff.mp h
    obtain ⟨ds, rfl⟩ := modification?_some hc
    rw [note?_modified] at h
    split at h
    · exact (Option.some.inj h).symm
    · cases h
  have hmodified : ((toolsByName new).filterMap (modification? (toolsByName old))).filterMap (·.note?) =
      (((toolsByName new).filter (isNoted (toolsByName old))).map (·.1)).map breakingNote := by
    rw [List.filterMap_filterMap, filterMap_eq_map_filter htext, List.map_map]
    rfl
  have hadded : ∀ m : List (String × Tool), (m.map addition).filterMap (·.note?) = [] := by
    simp [addition, Change.note?]
  have hremoved : ∀ m : List (String × Tool),
      (m.map removal).filterMap (·.note?) = (m.map (·.1)).map goneNote := by
    intro m
    simp [Function.comp_def, removal, Change.note?, goneNote]
  have hgone : ∀ m : List (String × EnvVar), (m.map goneVariable).filterMap (·.note?) = [] := by
    simp [goneVariable, Change.note?]
  have hnew : ∀ m : List (String × EnvVar),
      (m.map newVariable).filterMap (·.note?) = ((m.filter (·.2.required)).map (·.1)).map dueNote := by
    intro m
    induction m with
    | nil => rfl
    | cons e m ih =>
      rw [List.map_cons, List.filterMap_cons, note?_newVariable, ih]
      by_cases h : e.2.required = true
      · simp [h]
      · simp [h]
  simp only [VersionDiff.notes, difference, List.filterMap_append, hmeta, hadded, hremoved, hmodified, hnew, hgone,
    List.nil_append, List.append_nil]

theorem noted_difference (old new : Config) : Noted old new (difference old new).notes := by
  refine ⟨_, _, _, lists_filter (distinct_toolsByName old) fun name => ?_,
    lists_filter (distinct_toolsByName new) fun name => isNoted_iff, ?_, notes_difference old new⟩
  · rw [← keys_toolsByName, ← keys_toolsByName, mem_keys, mem_keys, contains_iff (m := toolsByName old)]
    simp
  · rw [missing, List.filter_filter]
    refine lists_filter (distinct_envsByName new) fun name => ?_
    rw [IsDue, ← keys_envsByName, ← get?_envsByName, mem_keys]
    constructor
    · rintro ⟨v, hv, h⟩
      obtain ⟨hreq, hmissing⟩ := Bool.and_eq_true_iff.mp h
      exact ⟨by simpa using hmissing, v, hv, hreq⟩
    · rintro ⟨hgone, v, hv, hreq⟩
      exact ⟨v, hv, by simp [hgone, hreq]⟩

end

/-! ## The whole account -/

/-- What a comparison tells is what became of the tools and variables. -/
structure Accounts (old new : Config) (d : VersionDiff) : Prop where
  tools : ∀ name, ToolTold name (old.toolNamed name) (new.toolNamed name)
    (d.changes.filter (·.toolName == some name))
  envs : ∀ name, EnvTold name (old.envNamed name) (new.envNamed name)
    (d.changes.filter (·.envName == some name))
  stats : d.stats = classSizes old new
  newTotal : new.toolNames.card = d.stats.toolsAdded + d.stats.toolsModified + d.stats.toolsUnchanged
  oldTotal : old.toolNames.card = d.stats.toolsRemoved + d.stats.toolsModified + d.stats.toolsUnchanged
  compatible : d.isCompatible = true ↔ old.toolNames ⊆ new.toolNames
  notes : Noted old new d.notes

theorem accounts_difference {old new : Config} (h : Comparable (toolsByName old) (toolsByName new)) :
    Accounts old new (difference old new) where
  tools := toolTold_difference h
  envs := envTold_difference old new
  stats := stats_difference old new
  newTotal := by
    have htotal := Finset.card_inter_add_card_sdiff new.toolNames old.toolNames
    rw [Finset.inter_comm, ← sharedNames, card_sharedNames] at htotal
    simp only [stats_difference, classSizes]
    omega
  oldTotal := by
    have htotal := Finset.card_inter_add_card_sdiff old.toolNames new.toolNames
    rw [← sharedNames, card_sharedNames] at htotal
    simp only [stats_difference, classSizes]
    omega
  compatible := isCompatible_difference old new
  notes := noted_difference old new

/-- **A comparison tells of every tool and variable once, and its totals add up.** -/
theorem comparison_accounts {old new : Config} (hold : old.RepresentableEnums) (hnew : new.RepresentableEnums) :
    ∃ d, compareConfigs old new = .ok d ∧ Accounts old new d :=
  have h := comparable_of_representable hold hnew
  ⟨difference old new, compareConfigs_eq h, accounts_difference h⟩

def petTool (name : String) (properties : List (String × Property)) : Tool where
  name
  description := ""
  inputSchema := { properties, required := [] }
  handler := ⟨"GET", "/pets", "http://pets.test", none, "application/json", [], [], [], none, []⟩
  source := ⟨"/pets", "get", none⟩
  enabled := true

/-- Of the two tools of one name the second counts. -/
def petsBefore : Config where
  name := "pets"
  version := "1"
  description := ""
  baseUrl := "http://pets.test"
  tools := [petTool "list" [], petTool "drop" [], petTool "list" [("status", { type := "string", enum := some [] })],
    petTool "find" [("kind", { type := "string" })]]
  envVars := []

def petsAfter : Config where
  name := "pets"
  version := "2"
  description := ""
  baseUrl := "http://pets.test"
  tools := [petTool "list" [("status", { type := "string", enum := some [.scalar (.text "sold"), .scalar .null] })],
    petTool "add" [], petTool "find" [("kind", { type := "string", enum := some [] })]]
  envVars := [⟨"PETS_KEY", "Key", true, none⟩]

theorem representable_petsBefore : petsBefore.RepresentableEnums := by
  simp [petsBefore, petTool, Config.RepresentableEnums, RepresentableEnums, RepresentableEnum]

theorem representable_petsAfter : petsAfter.RepresentableEnums := by
  have hsold : Json.Representable (.scalar (.text "sold")) := .scalar (by decide)
  have hnull : Json.Representable (.scalar .null) := .scalar (by decide)
  simp [petsAfter, petTool, Config.RepresentableEnums, RepresentableEnums, RepresentableEnum, hsold, hnull]

example : (compareConfigs petsBefore petsAfter).map (·.stats) = .ok ⟨1, 1, 1, 1, 1, 0⟩ := by decide +kernel

theorem comparison_accounts_pets : petsBefore.RepresentableEnums ∧ petsAfter.RepresentableEnums ∧
    ∃ d, compareConfigs petsBefore petsAfter = .ok d ∧ Accounts petsBefore petsAfter d :=
  ⟨representable_petsBefore, representable_petsAfter,
    comparison_accounts representable_petsBefore representable_petsAfter⟩

end ToolServer.Diff
