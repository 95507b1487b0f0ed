import ToolServer.Proofs.Diff.Exact
import ToolServer.Proofs.Rearranged

/-!
# The order of tools and parameters

A comparison looks tools, variables and parameters up by their names. `comparison_reordered`: if they are listed in
another order it tells the same, at most in another order.
-/

namespace ToolServer

open Diff Ordered

/-! ## Other orders -/

structure InputSchema.Reordered (s s' : InputSchema) : Prop where
  type : s.type = s'.type
  properties : s.properties.Perm s'.properties
  required : s.required.Perm s'.required

structure Tool.Reordered (t t' : Tool) : Prop where
  inputs : t.inputSchema.Reordered t'.inputSchema
  others : t' = { t with inputSchema := t'.inputSchema }

/-- The same server with tools, variables, parameters and required names in another order. -/
structure Config.Reordered (c c' : Config) : Prop where
  tools : Rearranged Tool.Reordered c.tools c'.tools
  envVars : c.envVars.Perm c'.envVars
  others : c' = { c with tools := c'.tools, envVars := c'.envVars }

/-- No two tools, variables, or parameters of a tool have one name, and JSON represents the values of enumerations. -/
structure Config.Unambiguous (c : Config) : Prop extends c.NamesDistinct where
  parameters : ∀ t ∈ c.tools, Distinct t.inputSchema.properties
  enums : c.RepresentableEnums

namespace InputSchema.Reordered

variable {s s' : InputSchema} (h : s.Reordered s')
include h

theorem symm : s'.Reordered s := ⟨h.type.symm, h.properties.symm, h.required.symm⟩

theorem representable (hs : RepresentableEnums s) : RepresentableEnums s' := fun e he =>
  hs e (h.properties.mem_iff.mpr he)

theorem distinct (hs : Distinct s.properties) : Distinct s'.properties := hs.perm h.properties

theorem requires (name : String) : s.required.contains name = s'.required.contains name := h.required.contains_eq

end InputSchema.Reordered

theorem Tool.Reordered.name {t t' : Tool} (h : t.Reordered t') : t.name = t'.name := by
  rw [h.others]

namespace Diff

/-! ## Differences -/

section
variable {old old' new new' : InputSchema}

theorem Shown.reordered (hold : old.Reordered old') (hnew : new.Reordered new') {name : String} {p q : Property}
    {x : Difference} (h : Shown old new name p q x) : Shown old' new' name p q x := by
  cases h with
  | type hne => exact .type hne
  | required hne =>
    rw [hold.requires, hnew.requires] at hne ⊢
    exact .required hne
  | enum hdiffer hs ht => exact .enum hdiffer hs ht

theorem Emitted.reordered (hold : old.Reordered old') (hnew : new.Reordered new') (hdistinct : Distinct old.properties)
    {x : Difference} (h : Emitted old new x) : Emitted old' new' x := by
  cases h with
  | added hmem hmissing =>
    rw [hnew.requires]
    exact .added (hnew.properties.mem_iff.mp hmem) (contains_perm hold.properties ▸ hmissing)
  | removed hmem hmissing =>
    exact .removed (hold.properties.mem_iff.mp hmem) (contains_perm hnew.properties ▸ hmissing)
  | kept hkept hshown =>
    have hget := fun name => get?_perm (k := name) hdistinct hold.properties
    exact .kept ⟨(hget _).symm.trans hkept.old, hnew.properties.mem_iff.mp hkept.new⟩ (hshown.reordered hold hnew)

/-- The differences are those that the parameters show, each once, so in another order they are the same. -/
theorem schemaDifferences_reordered (hold : old.Reordered old') (hnew : new.Reordered new')
    (hdold : Distinct old.properties) (hdnew : Distinct new.properties) {ds es : List Difference}
    (hds : schemaDifferences old new = .ok ds) (hes : schemaDifferences old' new' = .ok es) : ds.Perm es := by
  have honce := nodup_aspects_schemaDifferences hdold hdnew hds
  have honce' := nodup_aspects_schemaDifferences (hold.distinct hdold) (hnew.distinct hdnew) hes
  refine (List.perm_ext_iff_of_nodup honce.of_map honce'.of_map).mpr fun x => ?_
  rw [mem_schemaDifferences_iff hds, mem_schemaDifferences_iff hes]
  exact ⟨.reordered hold hnew hdold, .reordered hold.symm hnew.symm (hold.distinct hdold)⟩

end

structure ToolFit (t : Tool) : Prop where
  distinct : Distinct t.inputSchema.properties
  representable : RepresentableEnums t.inputSchema

theorem ToolFit.reordered {t t' : Tool} (h : ToolFit t) (ht : t.Reordered t') : ToolFit t' :=
  ⟨ht.inputs.distinct h.distinct, ht.inputs.representable h.representable⟩

theorem toolDifferences_reordered {t t' u u' : Tool} (ht : t.Reordered t') (hu : u.Reordered u') (hft : ToolFit t)
    (hfu : ToolFit u) : ∃ ds es, toolDifferences t u = .ok ds ∧ toolDifferences t' u' = .ok es ∧ ds.Perm es := by
  have hft' := hft.reordered ht
  have hfu' := hfu.reordered hu
  obtain ⟨ds, hds⟩ := schemaDifferences_isOk.mpr (enumsTold_of_representable hft.representable hfu.representable)
  obtain ⟨es, hes⟩ := schemaDifferences_isOk.mpr (enumsTold_of_representable hft'.representable hfu'.representable)
  have hhandler : handlerDifferences t u = handlerDifferences t' u' := by
    rw [ht.others, hu.others]
    rfl
  refine ⟨_, _, bind_eq_ok_iff.mpr ⟨ds, hds, rfl⟩, bind_eq_ok_iff.mpr ⟨es, hes, rfl⟩, ?_⟩
  rw [hhandler]
  exact (schemaDifferences_reordered ht.inputs hu.inputs hft.distinct hfu.distinct hds hes).append_left _

/-! ## Changes -/

/-- Two changes of which the same is told, with their details in any order. -/
structure Change.Same (c d : Change) : Prop where
  kind : c.kind = d.kind
  severity : c.severity = d.severity
  toolName : c.toolName = d.toolName
  text : c.text = d.text
  note : c.note? = d.note?
  details : Option.Rel List.Perm c.details d.details

namespace Change.Same

theorem refl (c : Change) : c.Same c where
  kind := rfl
  severity := rfl
  toolName := rfl
  text := rfl
  note := rfl
  details := by
    cases c.details with
    | none => exact .none
    | some ds => exact .some (.refl ds)

theorem toolModified (name : String) {ds es : List Detail} (h : ds.Perm es) :
    (Change.toolModified name ds).Same (.toolModified name es) where
  kind := rfl
  severity := by simp only [Change.severity, h.any_eq]
  toolName := rfl
  text := by
    unfold Change.text
    dsimp only
    rw [h.length_eq]
  note := by simp only [Change.note?, h.any_eq]
  details := .some h

end Change.Same

section
variable {m m' : List (String × Tool)} (hm : ∀ name, Option.Rel Tool.Reordered (get? name m) (get? name m'))
  (hfit : ∀ e ∈ m, ToolFit e.2)
include hm hfit

theorem modification?_reordered {e e' : String × Tool} (he : SameKey Tool.Reordered e e') (hfe : ToolFit e.2) :
    Option.Rel Change.Same (modification? m e) (modification? m' e') := by
  obtain ⟨name, u⟩ := e
  obtain ⟨name', u'⟩ := e'
  obtain ⟨rfl, hu⟩ : name = name' ∧ u.Reordered u' := he
  have hget := hm name
  unfold modification?
  dsimp only
  cases ht : get? name m with
  | none =>
    rw [ht] at hget
    generalize get? name m' = t' at hget ⊢
    cases hget
    exact .none
  | some t =>
    rw [ht] at hget
    generalize get? name m' = t' at hget ⊢
    cases hget with
    | some hreordered =>
      obtain ⟨ds, es, hds, hes, hperm⟩ :=
        toolDifferences_reordered hreordered hu (hfit _ (pair_mem_of_get? ht)) hfe
      simp only [hds, hes, ← hperm.isEmpty_eq]
      split
      · exact .none
      · exact .some (.toolModified name (hperm.map _))

end

/-! ## Servers -/

section
variable {α : Type} {name : α → String} {l l' : List α}

theorem byName_of_nodup (h : (l.map name).Nodup) : byName name l = l.map fun a => (name a, a) := by
  refine ofPairs_of_distinct (distinct_iff_nodup.mpr ?_)
  rwa [List.map_map]

theorem byName_rearranged {R : α → α → Prop} (h : Rearranged R l l') (hR : ∀ a b, R a b → name a = name b)
    (hl : (l.map name).Nodup) : Rearranged (SameKey R) (byName name l) (byName name l') := by
  have hnames : (l.map name).Perm (l'.map name) := (h.map hR).perm
  rw [byName_of_nodup hl, byName_of_nodup (hnames.nodup_iff.mp hl)]
  exact h.map fun a b hab => ⟨hR a b hab, hab⟩

theorem missing_rearranged {β : Type} {R : α → α → Prop} {S : β → β → Prop} {m m' : List (String × α)}
    {n n' : List (String × β)} (hm : Rearranged (SameKey R) m m') (hn : Rearranged (SameKey S) n n') :
    Rearranged (SameKey S) (missing m n) (missing m' n') :=
  hn.filter fun e f hef => by rw [contains_rearranged hm, hef.1]

end

section
variable {a a' b b' : Config} (ha : a.Reordered a') (hb : b.Reordered b') (hna : a.NamesDistinct)
  (hnb : b.NamesDistinct)

theorem toolsByName_rearranged (ha : a.Reordered a') (hna : a.NamesDistinct) :
    Rearranged (SameKey Tool.Reordered) (toolsByName a) (toolsByName a') :=
  byName_rearranged ha.tools (fun _ _ h => h.name) hna.tools

theorem envsByName_rearranged (ha : a.Reordered a') (hna : a.NamesDistinct) :
    Rearranged (SameKey Eq) (envsByName a) (envsByName a') :=
  byName_rearranged (.of_perm (fun _ => rfl) ha.envVars) (fun _ _ h => congrArg _ h) hna.envs

theorem fit_toolsByName (hna : a.NamesDistinct) (hfit : ∀ t ∈ a.tools, ToolFit t) :
    ∀ e ∈ toolsByName a, ToolFit e.2 := by
  intro e he
  rw [toolsByName, byName_of_nodup hna.tools] at he
  obtain ⟨t, ht, rfl⟩ := List.mem_map.mp he
  exact hfit t ht

include ha hb hna hnb

theorem modifications_rearranged (hfa : ∀ t ∈ a.tools, ToolFit t) (hfb : ∀ t ∈ b.tools, ToolFit t) :
    Rearranged Change.Same ((toolsByName b).filterMap (modification? (toolsByName a)))
      ((toolsByName b').filterMap (modification? (toolsByName a'))) := by
  have hget := get?_rearranged (toolsByName_rearranged ha hna) (distinct_toolsByName a)
  have hnew := (toolsByName_rearranged hb hnb).restrict (fit_toolsByName hnb hfb)
  exact hnew.filterMap fun e e' he => modification?_reordered hget (fit_toolsByName hna hfa) he.2 he.1

theorem changes_rearranged (hfa : ∀ t ∈ a.tools, ToolFit t) (hfb : ∀ t ∈ b.tools, ToolFit t) :
    Rearranged Change.Same (difference a b).changes (difference a' b').changes := by
  have hmetadata : metadataChange a b = metadataChange a' b' := by
    rw [ha.others, hb.others]
    rfl
  have htools {m m' : List (String × Tool)} (h : Rearranged (SameKey Tool.Reordered) m m')
      (f : String × Tool → Change) (hf : ∀ name t t', t.Reordered t' → f (name, t) = f (name, t')) :
      Rearranged Change.Same (m.map f) (m'.map f) := by
    refine h.map fun e e' he => ?_
    obtain ⟨name, t⟩ := e
    obtain ⟨name', t'⟩ := e'
    obtain ⟨rfl, ht⟩ : name = name' ∧ t.Reordered t' := he
    exact hf name t t' ht ▸ .refl _
  have henvs {m m' : List (String × EnvVar)} (h : Rearranged (SameKey Eq) m m') (f : String × EnvVar → Change) :
      Rearranged Change.Same (m.map f) (m'.map f) :=
    h.map fun e e' he => Prod.ext he.1 he.2 ▸ .refl _
  have hta := toolsByName_rearranged ha hna
  have htb := toolsByName_rearranged hb hnb
  have hea := envsByName_rearranged ha hna
  have heb := envsByName_rearranged hb hnb
  have hdescription : ∀ {t t' : Tool}, t.Reordered t' → t.description = t'.description := fun h => by rw [h.others]
  refine .append (.append (.append (.append (.append ?_ ?_) ?_) ?_) ?_) ?_
  · rw [hmetadata]
    exact .of_perm Change.Same.refl (.refl _)
  · exact htools (missing_rearranged hta htb) addition fun name t t' h => by rw [addition, addition, hdescription h]
  · exact htools (missing_rearranged htb hta) removal fun name t t' h => by rw [removal, removal, hdescription h]
  · exact modifications_rearranged ha hb hna hnb hfa hfb
  · exact henvs (missing_rearranged hea heb) newVariable
  · exact henvs (missing_rearranged heb hea) goneVariable

theorem unchanged_rearranged (hfa : ∀ t ∈ a.tools, ToolFit t) (hfb : ∀ t ∈ b.tools, ToolFit t) :
    (difference a b).unchanged = (difference a' b').unchanged := by
  have hshared := (toolsByName_rearranged hb hnb).filter (p := fun e => contains e.1 (toolsByName a))
    (q := fun e => contains e.1 (toolsByName a')) fun e e' he => by
      rw [contains_rearranged (toolsByName_rearranged ha hna), he.1]
  simp only [difference]
  rw [hshared.length_eq, (modifications_rearranged ha hb hna hnb hfa hfb).length_eq]

end

/-! ## Reports -/

theorem Change.Same.flags {c d : Change} (h : c.Same d) : c.isToolAdded = d.isToolAdded ∧
    c.isToolRemoved = d.isToolRemoved ∧ c.isToolModified = d.isToolModified ∧ c.isEnvAdded = d.isEnvAdded ∧
      c.isEnvRemoved = d.isEnvRemoved := by
  have hkind := h.kind
  cases c <;> cases d <;>
    simp_all [Change.kind, isToolAdded, isToolRemoved, isToolModified, isEnvAdded, isEnvRemoved]

/-- Two reports that tell the same: with equal counts, summary and word on compatibility, and with the same changes
and notes in any order. -/
structure VersionDiff.Same (d e : VersionDiff) : Prop where
  stats : d.stats = e.stats
  compatible : d.isCompatible = e.isCompatible
  summary : d.summary = e.summary
  changes : Rearranged Change.Same d.changes e.changes
  notes : d.notes.Perm e.notes

theorem VersionDiff.Same.of_changes {d e : VersionDiff} (hchanges : Rearranged Change.Same d.changes e.changes)
    (hunchanged : d.unchanged = e.unchanged) : d.Same e := by
  have hstats : d.stats = e.stats := by
    unfold VersionDiff.stats
    rw [hchanges.countP_eq fun _ _ h => h.flags.1, hchanges.countP_eq fun _ _ h => h.flags.2.1,
      hchanges.countP_eq fun _ _ h => h.flags.2.2.1, hchanges.countP_eq fun _ _ h => h.flags.2.2.2.1,
      hchanges.countP_eq fun _ _ h => h.flags.2.2.2.2, hunchanged]
  have hcompatible : d.isCompatible = e.isCompatible := by
    have hbreaking := hchanges.countP_eq (p := (·.severity == .breaking)) (q := (·.severity == .breaking))
      fun _ _ h => by rw [h.severity]
    unfold VersionDiff.isCompatible
    rw [Bool.eq_iff_iff, Bool.not_eq_true', Bool.not_eq_true', ← Bool.not_eq_true, ← Bool.not_eq_true,
      List.any_eq_true, List.any_eq_true, ← List.countP_pos_iff, ← List.countP_pos_iff, hbreaking]
  refine ⟨hstats, hcompatible, ?_, hchanges, (hchanges.filterMap fun c c' h => ?_).perm⟩
  · unfold VersionDiff.summary
    rw [hstats, hcompatible]
  · rw [h.note]
    cases c'.note? with
    | none => exact .none
    | some text => exact .some rfl

/-- **The order in which two servers list things makes no difference.** -/
theorem comparison_reordered {a a' b b' : Config} (ha : a.Reordered a') (hb : b.Reordered b')
    (hua : a.Unambiguous) (hub : b.Unambiguous) :
    ∃ d e, compareConfigs a b = .ok d ∧ compareConfigs a' b' = .ok e ∧ d.Same e := by
  have hfa := fun t ht => ToolFit.mk (hua.parameters t ht) (hua.enums t ht)
  have hfb := fun t ht => ToolFit.mk (hub.parameters t ht) (hub.enums t ht)
  have hkeep {c c' : Config} (hc : c.Reordered c') (h : c.RepresentableEnums) : c'.RepresentableEnums :=
    hc.tools.forall_mem (fun _ _ ht => ht.inputs.representable) h
  have hcomparable := comparable_of_representable hua.enums hub.enums
  have hcomparable' := comparable_of_representable (hkeep ha hua.enums) (hkeep hb hub.enums)
  have hnames := hua.toNamesDistinct
  have hnames' := hub.toNamesDistinct
  exact ⟨difference a b, difference a' b', compareConfigs_eq hcomparable, compareConfigs_eq hcomparable',
    .of_changes (changes_rearranged ha hb hnames hnames' hfa hfb)
      (unchanged_rearranged ha hb hnames hnames' hfa hfb)⟩

/-! ## Two shelves -/

def shelf (tools : List Tool) (envVars : List EnvVar) : Config where
  name := "shelf"
  version := "1"
  description := ""
  baseUrl := "http://pets.test"
  tools
  envVars

def kindThenSize : Tool := petTool "find" [("kind", { type := "string" }), ("size", { type := "number" })]

def sizeThenKind : Tool := petTool "find" [("size", { type := "number" }), ("kind", { type := "string" })]

def textSize : Tool := petTool "find" [("size", { type := "string" })]

theorem reordered_self (t : Tool) : t.Reordered t := ⟨⟨rfl, .refl _, .refl _⟩, rfl⟩

theorem reordered_shelf : (shelf [kindThenSize, petTool "list" []] []).Reordered
    (shelf [petTool "list" [], sizeThenKind] []) where
  tools := ⟨_, .swap _ _ [], .cons (reordered_self _) (.cons ⟨⟨rfl, .swap _ _ [], .refl _⟩, rfl⟩ .nil)⟩
  envVars := .refl _
  others := rfl

theorem reordered_variables (t : Tool) (v w : EnvVar) : (shelf [t] [v, w]).Reordered (shelf [t] [w, v]) where
  tools := .of_perm reordered_self (.refl _)
  envVars := .swap w v []
  others := rfl

def shelfKey : EnvVar := ⟨"SHELF_KEY", "Key", true, none⟩

def shelfToken : EnvVar := ⟨"SHELF_TOKEN", "Token", false, none⟩

theorem unambiguous_shelf : (shelf [kindThenSize, petTool "list" []] []).Unambiguous where
  tools := by decide
  envs := by decide
  parameters := by decide
  enums := by
    have hkind : RepresentableEnum { type := "string" } := List.forall_mem_nil _
    have hsize : RepresentableEnum { type := "number" } := List.forall_mem_nil _
    simp only [shelf, kindThenSize, petTool, Config.RepresentableEnums, RepresentableEnums, List.forall_mem_cons]
    simp [hkind, hsize]

theorem unambiguous_textSize : (shelf [textSize] [shelfKey, shelfToken]).Unambiguous where
  tools := by decide
  envs := by decide
  parameters := by decide
  enums := by simp [shelf, textSize, petTool, Config.RepresentableEnums, RepresentableEnums, RepresentableEnum]

/-- On the one side tools and parameters change places, on the other the variables. -/
theorem comparison_reordered_shelf :
    (shelf [kindThenSize, petTool "list" []] []).Reordered (shelf [petTool "list" [], sizeThenKind] []) ∧
    (shelf [textSize] [shelfKey, shelfToken]).Reordered (shelf [textSize] [shelfToken, shelfKey]) ∧
    (shelf [kindThenSize, petTool "list" []] []).Unambiguous ∧
    (shelf [textSize] [shelfKey, shelfToken]).Unambiguous ∧
    ∃ d e,
      compareConfigs (shelf [kindThenSize, petTool "list" []] []) (shelf [textSize] [shelfKey, shelfToken]) = .ok d ∧
      compareConfigs (shelf [petTool "list" [], sizeThenKind] []) (shelf [textSize] [shelfToken, shelfKey]) = .ok e ∧
      d.Same e :=
  ⟨reordered_shelf, reordered_variables .., unambiguous_shelf, unambiguous_textSize,
    comparison_reordered reordered_shelf (reordered_variables ..) unambiguous_shelf unambiguous_textSize⟩

end Diff

end ToolServer
