import Mathlib.Data.List.Lattice
import Mathlib.Data.List.Pairwise
import ToolServer.Proofs.Composition.Account

/-!
# Collisions of tool names

Prefixes keep the tools of different sources apart unless one prefix goes on from another behind an
underscore, for a name may hold an underscore too. `none_dropped_iff`: where no name is cut, such prefixes are
the only reason to skip a tool.
-/

namespace ToolServer.Composition

open Api Naming

def Offer.name? : Offer → Option String
  | .tool s t => some (prefixedTool s t).name
  | .warning .. => none

def Source.composedNames (s : Source) : List String := s.tools.map fun t => (prefixedTool s t).name

theorem names_offers (s : Source) : s.offers.filterMap Offer.name? = s.composedNames := by
  unfold Source.offers Source.composedNames Source.tools
  cases s.served? with
  | none => rfl
  | some served => simp [List.filterMap_map, Function.comp_def, Offer.name?]

/-- No tool is skipped just when the offered names are distinct, from each other and from those given. -/
theorem countP_isSkipped_ledger {names : List String} (h : names.Nodup) (offers : List Offer) :
    (ledger names offers).countP Entry.isSkipped = 0 ↔ (names ++ offers.filterMap Offer.name?).Nodup := by
  fun_induction ledger names offers with
  | case1 names => simp [h]
  | case2 names s text rest ih =>
    rw [List.countP_cons_of_neg (by simp [Entry.isSkipped]), ih h]
    rfl
  | case3 names s t rest hmem ih =>
    rw [List.countP_cons_of_pos (by rfl)]
    refine ⟨fun h => absurd h (Nat.succ_ne_zero _), fun hnodup => ?_⟩
    have hdisjoint := List.disjoint_of_nodup_append hnodup
    exact (hdisjoint hmem (List.mem_cons_self ..)).elim
  | case4 names s t rest hfree ih =>
    have hnames : (names ++ [(prefixedTool s t).name]).Nodup :=
      h.append (List.nodup_singleton _) (by simpa using hfree)
    rw [List.countP_cons_of_neg (by simp [Entry.isSkipped]), ih hnames, List.append_assoc]
    rfl

theorem length_tools_iff {sources : List Source} (h : ∀ s ∈ sources, s.Handled)
    (serverName description : Option String) :
    ((Progress.after {} sources).result serverName description).config.tools.length =
        (sources.flatMap Source.tools).length ↔ (sources.flatMap Source.composedNames).Nodup := by
  have hcount := (accounts_result h serverName description).count
  have hnames : (sources.flatMap Source.offers).filterMap Offer.name? =
      sources.flatMap Source.composedNames := by
    rw [List.filterMap_flatMap]
    exact List.flatMap_congr fun s _ => names_offers s
  have hskipped := countP_isSkipped_ledger List.nodup_nil (sources.flatMap Source.offers)
  rw [List.nil_append, hnames] at hskipped
  rw [← hskipped]
  omega

theorem prefixedName_of_short {p name : String} (h : (p ++ "_" ++ name).length ≤ maxToolName) :
    prefixedName p name = p ++ "_" ++ name := by
  rw [prefixedName, List.take_of_length_le (by rwa [String.length_toList]), String.ofList_toList]

/-- Prefixes of which one goes on from the other let names of their sources coincide. -/
def Coincide (s s' : Source) : Prop :=
  ∃ e, s'.toolPrefix = s.toolPrefix ++ "_" ++ e ∧ ∃ t ∈ s.tools, ∃ t' ∈ s'.tools, t.name = e ++ "_" ++ t'.name

section
variable {sources : List Source}

theorem toolPrefix_inj (hprefixes : (sources.map Source.toolPrefix).Nodup) {s s' : Source} (hs : s ∈ sources)
    (hs' : s' ∈ sources) (h : s.toolPrefix = s'.toolPrefix) : s = s' :=
  List.inj_on_of_nodup_map hprefixes hs hs' h

variable (hshort : ∀ s ∈ sources, ∀ t ∈ s.tools, (s.toolPrefix ++ "_" ++ t.name).length ≤ 64)
include hshort

theorem composedNames_eq {s : Source} (hs : s ∈ sources) :
    s.composedNames = s.tools.map fun t => s.toolPrefix ++ "_" ++ t.name :=
  List.map_congr_left fun t ht => prefixedName_of_short (hshort s hs t ht)

theorem composedNames_nodup {s : Source} (hs : s ∈ sources) : s.composedNames.Nodup := by
  have hnames : (s.tools.map fun t => s.toolPrefix ++ "_" ++ t.name) =
      (s.tools.map (·.name)).map fun name => s.toolPrefix ++ "_" ++ name := by
    rw [List.map_map]
    rfl
  rw [composedNames_eq hshort hs, hnames]
  exact s.tools_nodup.map fun a b h => by simpa using h

theorem composedNames_disjoint_iff {s s' : Source} (hs : s ∈ sources) (hs' : s' ∈ sources)
    (hne : s.toolPrefix ≠ s'.toolPrefix) :
    List.Disjoint s.composedNames s'.composedNames ↔ ¬ Coincide s s' ∧ ¬ Coincide s' s := by
  rw [composedNames_eq hshort hs, composedNames_eq hshort hs']
  constructor
  · intro h
    have hpair : ∀ t ∈ s.tools, ∀ t' ∈ s'.tools,
        s.toolPrefix ++ "_" ++ t.name ≠ s'.toolPrefix ++ "_" ++ t'.name :=
      fun t ht t' ht' he => h (List.mem_map.mpr ⟨t, ht, rfl⟩) (List.mem_map.mpr ⟨t', ht', he.symm⟩)
    constructor
    · rintro ⟨e, hp, t, ht, t', ht', hname⟩
      exact hpair t ht t' ht' (append_join_eq_iff.mpr (.inr (.inl ⟨e, hp, hname⟩)))
    · rintro ⟨e, hp, t', ht', t, ht, hname⟩
      exact hpair t ht t' ht' (append_join_eq_iff.mpr (.inr (.inr ⟨e, hp, hname⟩)))
  · rintro ⟨h, h'⟩ name hname hname'
    obtain ⟨t, ht, rfl⟩ := List.mem_map.mp hname
    obtain ⟨t', ht', he⟩ := List.mem_map.mp hname'
    rcases append_join_eq_iff.mp he.symm with ⟨hp, -⟩ | ⟨e, hp, hname⟩ | ⟨e, hp, hname⟩
    · exact hne hp
    · exact h ⟨e, hp, t, ht, t', ht', hname⟩
    · exact h' ⟨e, hp, t', ht', t, ht, hname⟩

example : prefixedName "pet" "store_list" = prefixedName "pet_store" "list" := by decide +kernel

theorem nodup_composedNames_iff (hprefixes : (sources.map Source.toolPrefix).Nodup) :
    (sources.flatMap Source.composedNames).Nodup ↔ ∀ s ∈ sources, ∀ s' ∈ sources, ¬ Coincide s s' := by
  have happart : ∀ s ∈ sources, ∀ s' ∈ sources, s ≠ s' → s.toolPrefix ≠ s'.toolPrefix :=
    fun s hs s' hs' hne hp => hne (toolPrefix_inj hprefixes hs hs' hp)
  rw [List.nodup_flatMap]
  constructor
  · rintro ⟨-, hdisjoint⟩ s hs s' hs' h
    have : Std.Symm (Function.onFun List.Disjoint Source.composedNames) := ⟨fun _ _ h => h.symm⟩
    have hne : s ≠ s' := by
      rintro rfl
      obtain ⟨e, hp, -⟩ := h
      exact ne_join _ e hp
    exact ((composedNames_disjoint_iff hshort hs hs' (happart s hs s' hs' hne)).mp
      (hdisjoint.forall hs hs' hne)).1 h
  · intro h
    have hnodup : sources.Nodup := hprefixes.of_map
    refine ⟨fun s hs => composedNames_nodup hshort hs, hnodup.pairwise_of_forall_ne fun s hs s' hs' hne => ?_⟩
    exact (composedNames_disjoint_iff hshort hs hs' (happart s hs s' hs' hne)).mpr ⟨h s hs s' hs', h s' hs' s hs⟩

end

/-- **Only prefixes that go on from each other let a tool be dropped.** -/
theorem none_dropped_iff {sources : List Source} (hrej : rejection? sources = none)
    (hserved : ∀ s ∈ sources, s.isServed = true)
    (hshort : ∀ s ∈ sources, ∀ t ∈ s.tools, (s.toolPrefix ++ "_" ++ t.name).length ≤ 64)
    (serverName description : Option String) :
    ∃ r, compose sources serverName description = .ok r ∧
      (r.config.tools.length = (sources.flatMap Source.tools).length ↔
        ∀ s ∈ sources, ∀ s' ∈ sources, ¬ Coincide s s') := by
  have hhandled : ∀ s ∈ sources, s.Handled := fun s hs => Source.handled_of_isServed (hserved s hs)
  have hprefixes := (rejection?_eq_none.mp hrej).2.2
  refine ⟨_, compose_eq hrej hhandled serverName description, ?_⟩
  rw [length_tools_iff hhandled, nodup_composedNames_iff hshort hprefixes]

theorem none_dropped_iff_pets : rejection? [pet, petStore] = none ∧ (∀ s ∈ [pet, petStore], s.isServed = true) ∧
    (∀ s ∈ [pet, petStore], ∀ t ∈ s.tools, (s.toolPrefix ++ "_" ++ t.name).length ≤ 64) ∧
    ∃ r, compose [pet, petStore] none none = .ok r ∧
      (r.config.tools.length = ([pet, petStore].flatMap Source.tools).length ↔
        ∀ s ∈ [pet, petStore], ∀ s' ∈ [pet, petStore], ¬ Coincide s s') := by
  have hrej : rejection? [pet, petStore] = none := by decide +kernel
  have hserved : ∀ s ∈ [pet, petStore], s.isServed = true := by decide +kernel
  have hshort : ∀ s ∈ [pet, petStore], ∀ t ∈ s.tools, (s.toolPrefix ++ "_" ++ t.name).length ≤ 64 := by
    decide +kernel
  exact ⟨hrej, hserved, hshort, none_dropped_iff hrej hserved hshort none none⟩

end ToolServer.Composition
