import ToolServer.Diff.Versions
import ToolServer.Proofs.Composition.Account
import ToolServer.Proofs.Diff.Account

/-!
# Enabled tools

A comparison does not look at which tools are enabled. What it says of compatibility is about the tools that there
are: a tool that is turned off is still there.
-/

namespace ToolServer

open Api

open Ordered

/-! ## Switches -/

def Tool.switch (f : Tool → Bool) (t : Tool) : Tool := { t with enabled := f t }

def Config.switch (f : Tool → Bool) (c : Config) : Config := { c with tools := c.tools.map (Tool.switch f) }

namespace Diff

theorem toolsByName_switch (f : Tool → Bool) (c : Config) :
    toolsByName (c.switch f) = mapValues (Tool.switch f) (toolsByName c) := by
  unfold toolsByName byName
  rw [← ofPairs_mapValues, mapValues, Config.switch, List.map_map, List.map_map]
  rfl

section
variable (f g : Tool → Bool) {β : Type} (old new : List (String × Tool))

theorem missing_switch : missing (mapValues (Tool.switch f) old) (mapValues (Tool.switch g) new) =
    mapValues (Tool.switch g) (missing old new) := by
  unfold missing
  simp only [contains_mapValues]
  rw [mapValues, mapValues, List.filter_map]
  rfl

theorem modifiedTools_switch : modifiedTools (mapValues (Tool.switch f) old) (mapValues (Tool.switch g) new) =
    modifiedTools old new := by
  induction new with
  | nil => rfl
  | cons e new ih =>
    have hcons : mapValues (Tool.switch g) (e :: new) =
        (e.1, e.2.switch g) :: mapValues (Tool.switch g) new := rfl
    have hget := get?_mapValues (Tool.switch f) e.1 old
    rw [hcons]
    cases hold : get? e.1 old with
    | none =>
      rw [hold] at hget
      rw [modifiedTools_absent hget, modifiedTools_absent hold, ih]
    | some t =>
      rw [hold] at hget
      have hsame : toolDifferences (t.switch f) (e.2.switch g) = toolDifferences t e.2 := rfl
      rw [modifiedTools_present hget, modifiedTools_present hold, hsame, ih]

end

theorem length_shared_switch (f g : Tool → Bool) (old new : List (String × Tool)) :
    ((mapValues (Tool.switch g) new).filter fun e => contains e.1 (mapValues (Tool.switch f) old)).length =
      (new.filter fun e => contains e.1 old).length := by
  simp only [contains_mapValues]
  rw [mapValues, List.filter_map, List.length_map]
  rfl

/-- **Whether tools are enabled makes no difference.** -/
theorem compareConfigs_switch (f g : Tool → Bool) (old new : Config) :
    compareConfigs (old.switch f) (new.switch g) = compareConfigs old new := by
  have hadded : ∀ m, (mapValues (Tool.switch g) m).map addition = m.map addition := by
    intro m
    rw [mapValues, List.map_map]
    rfl
  have hremoved : ∀ m, (mapValues (Tool.switch f) m).map removal = m.map removal := by
    intro m
    rw [mapValues, List.map_map]
    rfl
  unfold compareConfigs
  simp only [toolsByName_switch, modifiedTools_switch, missing_switch, length_shared_switch]
  cases modifiedTools (toolsByName old) (toolsByName new) with
  | error e => rfl
  | ok modified =>
    have hmeta : metadataChange (old.switch f) (new.switch g) = metadataChange old new := rfl
    have henvs : envsByName (old.switch f) = envsByName old ∧ envsByName (new.switch g) = envsByName new := ⟨rfl, rfl⟩
    rw [hmeta, henvs.1, henvs.2]
    have hadded := hadded (missing (toolsByName old) (toolsByName new))
    have hremoved := hremoved (missing (toolsByName new) (toolsByName old))
    unfold addition at hadded
    unfold removal at hremoved
    simp only [hadded, hremoved]

/-! ## Compatibility -/

theorem eq_difference {old new : Config} {d : VersionDiff} (h : compareConfigs old new = .ok d) :
    d = difference old new := by
  rw [compareConfigs_eq (compareConfigs_isOk.mp ⟨d, h⟩)] at h
  exact (Except.ok.inj h).symm

theorem isCompatible_iff_kept {old new : Config} {d : VersionDiff} (h : compareConfigs old new = .ok d) :
    d.isCompatible = true ↔ ∀ t ∈ old.tools, ∃ u ∈ new.tools, u.name = t.name := by
  rw [eq_difference h, isCompatible_difference]
  constructor
  · intro hsub t ht
    have hname : t.name ∈ old.toolNames := List.mem_toFinset.mpr (List.mem_map_of_mem ht)
    exact List.mem_map.mp (List.mem_toFinset.mp (hsub hname))
  · intro hkept name hname
    obtain ⟨t, ht, rfl⟩ := List.mem_map.mp (List.mem_toFinset.mp hname)
    exact List.mem_toFinset.mpr (List.mem_map.mpr (hkept t ht))

/-! ## Disabled tools -/

theorem disable_eq_switch (names : List String) (c : Config) :
    disable names c = c.switch fun t => t.enabled && !names.contains t.name := by
  unfold disable Config.switch
  congr 1
  apply List.map_congr_left
  intro t _
  unfold Tool.switch
  by_cases h : t.name ∈ names
  · simp [h]
  · simp [h]

theorem compareConfigs_disable (names : List String) (old new : Config) :
    compareConfigs old (disable names new) = compareConfigs old new := by
  have hself : old.switch (·.enabled) = old := by
    show { old with tools := old.tools.map id } = old
    rw [List.map_id]
  calc compareConfigs old (disable names new)
    _ = compareConfigs (old.switch (·.enabled)) (new.switch fun t => t.enabled && !names.contains t.name) := by
      rw [hself, disable_eq_switch]
    _ = compareConfigs old new := compareConfigs_switch ..

theorem enabled_ofDescription (d : Description) :
    Gives (Config.ofDescription d) (fun c => ∀ t ∈ c.tools, t.enabled = true) := by
  refine (mapped_ofDescription d).mono fun c hc t ht => ?_
  obtain ⟨e, -, u, hu, heq⟩ := exists_of_forall₂ hc t ht
  have henabled : Gives (toolOf d e) (fun t => t.enabled = true) := by
    unfold toolOf
    exact Gives.any fun i =>
      Gives.any fun required => .ok rfl
  rw [heq]
  exact henabled u hu

theorem mapError_ok {ε ε' α : Type} {f : ε → ε'} {x : Except ε α} {a : α} (h : x.mapError f = .ok a) :
    x = .ok a := by
  cases x with
  | error e => cases h
  | ok b =>
    cases h
    rfl

/-- A comparison of texts is one of the servers that they are mapped to, of which the second has tools turned off. -/
theorem compareTexts_ok {old new : String} {disabled : List String} {r : Comparison}
    (h : compareTexts old new disabled = .ok r) : ∃ c, r.new = disable disabled c ∧ (∀ t ∈ c.tools, t.enabled = true) ∧
      compareConfigs r.old r.new = .ok r.diff ∧ (compareTexts old new []).map (·.diff) = .ok r.diff := by
  obtain ⟨a, ha, h⟩ := bind_eq_ok_iff.mp h
  obtain ⟨b, hb, h⟩ := bind_eq_ok_iff.mp h
  obtain ⟨was, hwas, h⟩ := bind_eq_ok_iff.mp h
  obtain ⟨is, his, h⟩ := bind_eq_ok_iff.mp h
  obtain ⟨diff, hdiff, h⟩ := bind_eq_ok_iff.mp h
  cases h
  have hdisabled : compareConfigs was (disable disabled is) = .ok diff := mapError_ok hdiff
  have hnone : (compareConfigs was (disable [] is)).mapError CompareFault.fault = .ok diff := by
    rw [compareConfigs_disable, ← compareConfigs_disable disabled, hdisabled]
    rfl
  have hresult : compareTexts old new [] = .ok ⟨diff, was, disable [] is⟩ :=
    bind_eq_ok_iff.mpr ⟨a, ha, bind_eq_ok_iff.mpr ⟨b, hb, bind_eq_ok_iff.mpr ⟨was, hwas,
      bind_eq_ok_iff.mpr ⟨is, his, bind_eq_ok_iff.mpr ⟨diff, hnone, rfl⟩⟩⟩⟩⟩
  refine ⟨is, rfl, enabled_ofDescription b is (mapError_ok his), hdisabled, ?_⟩
  rw [hresult]
  rfl

/-- **A compatible version has all tools, enabled or not.** A tool of the old version goes on being served unless it is
turned off. -/
theorem compatible_keeps_tools :
    (∀ old new d, compareConfigs old new = .ok d →
      (d.isCompatible = true ↔ ∀ t ∈ old.tools, ∃ u ∈ new.tools, u.name = t.name)) ∧
    (∀ f g old new, compareConfigs (old.switch f) (new.switch g) = compareConfigs old new) ∧
    ∀ old new disabled r, compareTexts old new disabled = .ok r →
      (compareTexts old new []).map (·.diff) = .ok r.diff ∧
      (r.diff.isCompatible = true → ∀ t ∈ r.old.enabledTools, (∃ u ∈ r.new.tools, u.name = t.name) ∧
        ((∃ u ∈ r.new.enabledTools, u.name = t.name) ↔ t.name ∉ disabled)) := by
  refine ⟨fun old new d => isCompatible_iff_kept, compareConfigs_switch, fun old new disabled r h => ?_⟩
  obtain ⟨c, hnew, henabled, hdiff, hsame⟩ := compareTexts_ok h
  refine ⟨hsame, fun hcompatible t ht => ?_⟩
  obtain ⟨u, hu, hname⟩ := (isCompatible_iff_kept hdiff).mp hcompatible t (List.mem_of_mem_filter ht)
  refine ⟨⟨u, hu, hname⟩, ?_⟩
  have hserved : ∀ w ∈ r.new.tools, w.enabled = true ↔ w.name ∉ disabled := by
    intro w hw
    rw [hnew, disable_eq_switch] at hw
    obtain ⟨v, hv, rfl⟩ := List.mem_map.mp hw
    simp [Tool.switch, henabled v hv]
  constructor
  · intro h
    obtain ⟨w, hw, hname⟩ := h
    obtain ⟨hw, hon⟩ := List.mem_filter.mp hw
    exact hname ▸ (hserved w hw).mp hon
  · intro h
    exact ⟨u, List.mem_filter.mpr ⟨hu, (hserved u hu).mpr (hname ▸ h)⟩, hname⟩

def switches (c : Config) : List (String × Bool) := c.tools.map fun t => (t.name, t.enabled)

theorem compare_listText : ∃ r, compareTexts (Composition.listText "list") (Composition.listText "list") ["list"] =
    .ok r ∧ r.diff.isCompatible = true ∧ switches r.old = [("list", true)] ∧ switches r.new = [("list", false)] := by
  have houtline : (compareTexts (Composition.listText "list") (Composition.listText "list") ["list"]).map
      (fun r => (r.diff.isCompatible, switches r.old, switches r.new)) =
        .ok (true, [("list", true)], [("list", false)]) := by decide +kernel
  obtain ⟨r, h, houtline⟩ := exists_of_map_ok houtline
  obtain ⟨hcompatible, houtline⟩ := Prod.mk.inj houtline
  exact ⟨r, h, hcompatible, Prod.mk.inj houtline⟩

theorem nodup_of_switches {c : Config} {name : String} {on : Bool} (h : switches c = [(name, on)]) :
    (c.tools.map (·.name)).Nodup := by
  have hnames : (switches c).map (·.1) = c.tools.map (·.name) := by
    rw [switches, List.map_map]
    rfl
  rw [← hnames, h]
  exact List.nodup_singleton name

/-- The only tool is turned off, and the new version is compatible. -/
theorem compatible_though_disabled : ∃ r,
    compareTexts (Composition.listText "list") (Composition.listText "list") ["list"] = .ok r ∧
    (r.old.tools.map (·.name)).Nodup ∧ (r.new.tools.map (·.name)).Nodup ∧
    compareConfigs r.old r.new = .ok r.diff ∧ r.diff.isCompatible = true ∧
    ∃ t ∈ r.old.enabledTools, t.name ∈ ["list"] ∧ ¬ ∃ u ∈ r.new.enabledTools, u.name = t.name := by
  obtain ⟨r, h, hcompatible, hold, hnew⟩ := compare_listText
  obtain ⟨-, -, -, hdiff, -⟩ := compareTexts_ok h
  have hmem : ("list", true) ∈ switches r.old := by simp [hold]
  obtain ⟨t, ht, heq⟩ := List.mem_map.mp hmem
  obtain ⟨hname, hon⟩ := Prod.mk.inj heq
  refine ⟨r, h, nodup_of_switches hold, nodup_of_switches hnew, hdiff, hcompatible, t,
    List.mem_filter.mpr ⟨ht, hon⟩, by simp [hname], ?_⟩
  intro hserved
  obtain ⟨u, hu, -⟩ := hserved
  obtain ⟨hu, hon⟩ := List.mem_filter.mp hu
  have hmem : (u.name, u.enabled) ∈ switches r.new := List.mem_map_of_mem hu
  rw [hnew, List.mem_singleton] at hmem
  rw [(Prod.mk.inj hmem).2] at hon
  cases hon

theorem compatible_keeps_tools_list : ∃ r,
    compareTexts (Composition.listText "list") (Composition.listText "list") ["list"] = .ok r ∧
    compareConfigs r.old r.new = .ok r.diff ∧
    (r.diff.isCompatible = true ↔ ∀ t ∈ r.old.tools, ∃ u ∈ r.new.tools, u.name = t.name) ∧
    (compareTexts (Composition.listText "list") (Composition.listText "list") []).map (·.diff) = .ok r.diff ∧
    r.diff.isCompatible = true ∧ ∀ t ∈ r.old.enabledTools, (∃ u ∈ r.new.tools, u.name = t.name) ∧
      ((∃ u ∈ r.new.enabledTools, u.name = t.name) ↔ t.name ∉ ["list"]) := by
  obtain ⟨r, h, hcompatible, -, -⟩ := compare_listText
  obtain ⟨-, -, -, hdiff, -⟩ := compareTexts_ok h
  obtain ⟨hkept, -, htexts⟩ := compatible_keeps_tools
  obtain ⟨hsame, hserved⟩ := htexts _ _ _ r h
  exact ⟨r, h, hdiff, hkept r.old r.new r.diff hdiff, hsame, hcompatible, hserved hcompatible⟩

end Diff

end ToolServer
