import ToolServer.Proofs.Reference.Related
import ToolServer.Proofs.Schema.Direct

/-!
# Resolving leaves no reference

In a regular document a node is resolved to a value without references, whether it comes from the memory,
is a placeholder, leads nowhere or is cut off below the greatest depth. Where a map of properties should
stand, and stands behind references, one stands in the result.
-/

namespace ToolServer.Reference

open Document Schema

/-! ## Regular nodes -/

/-- The nodes that stand behind the references of a node, itself included. -/
inductive Leads (root : Value) : Value → Value → Prop
  | refl {v} : Leads root v v
  | ref {es r t w} : refOf? es = some r → follow root r = some t → Leads root t w → Leads root (.map es) w

def LeadsToMaps (root v : Value) : Prop := ∀ w, Leads root v w → ∃ es, w = .map es

structure RegularEntry (root : Value) (e : Scalar × Value) : Prop where
  ref : e.1 = .text "$ref" → ∃ r, e.2 = .text r
  properties : e.1 = .text "properties" → LeadsToMaps root e.2
  spelled : Spelled e.1

/-- A node whose references are texts and whose properties are maps, once references are resolved. No
reference hides in a pair, and no word of schemas in a key of another kind. -/
structure Regular (root v : Value) : Prop where
  entries : EachEntry (RegularEntry root) v
  pairs : ∀ a b, Within v (.pair a b) → EachEntry (·.1 ≠ .text "$ref") (.pair a b)

section
variable {root : Value}

theorem no_ref_of_refOf? {es : Entries} (h : ∀ e ∈ es, RegularEntry root e) (hr : refOf? es = none) :
    ∀ e ∈ es, e.1 ≠ .text "$ref" := by
  intro e he hk
  obtain ⟨v, hv⟩ := Entries.get?_of_mem (hk ▸ he : (Scalar.text "$ref", e.2) ∈ es)
  obtain ⟨r, rfl⟩ := (h _ (Entries.mem_of_get? hv)).ref rfl
  unfold refOf? at hr
  rw [hv] at hr
  cases hr

theorem regularEntry_text_iff {k : String} {v : Value} : RegularEntry root (.text k, v) ↔
    (k = "$ref" → ∃ r, v = .text r) ∧ (k = "properties" → LeadsToMaps root v) :=
  ⟨fun h => ⟨fun hk => h.ref (congrArg _ hk), fun hk => h.properties (congrArg _ hk)⟩,
    fun h => ⟨fun hk => h.1 (Scalar.text.inj hk), fun hk => h.2 (Scalar.text.inj hk), spelled_text k⟩⟩

theorem leadsToMaps_of_no_ref {es : Entries} (h : refOf? es = none) : LeadsToMaps root (.map es) := by
  intro w hw
  cases hw with
  | refl => exact ⟨es, rfl⟩
  | ref hr _ _ =>
    rw [h] at hr
    cases hr

theorem Regular.part {v w : Value} (h : Regular root v) (hw : Within v w) : Regular root w where
  entries := h.entries.part hw
  pairs a b hab := h.pairs a b (hw.trans hab)

theorem Regular.item {vs : List Value} (h : Regular root (.list vs)) : ∀ v ∈ vs, Regular root v :=
  fun _ hv => h.part (.of_item hv)

theorem Regular.entry {es : Entries} (h : Regular root (.map es)) :
    ∀ e ∈ es, RegularEntry root e ∧ Regular root e.2 :=
  fun e he => ⟨h.entries es .refl e he, h.part (.of_entry he)⟩

theorem Regular.settled {v : Value} (h : Regular root v) (hv : IsLeaf v) : Settled v := by
  intro es hes e he
  have hr := h.entries es hes e he
  cases hes with
  | refl => exact hv.elim
  | item => exact hv.elim
  | entry => exact hv.elim
  | first hes =>
    have hno := h.pairs _ _ .refl es (.first hes) e he
    exact ⟨hno, fun hk => hr.properties hk _ .refl, hr.spelled⟩
  | second hes =>
    have hno := h.pairs _ _ .refl es (.second hes) e he
    exact ⟨hno, fun hk => hr.properties hk _ .refl, hr.spelled⟩

theorem regular_of_settled {v : Value} (h : Settled v) : Regular root v where
  entries es hes e he := by
    have hs := h es hes e he
    refine ⟨fun hk => absurd hk hs.no_ref, fun hk w hw => ?_, hs.spelled⟩
    obtain ⟨ps, hps⟩ := hs.properties hk
    have hin : Within v (.map ps) := hes.trans (hps ▸ .of_entry he)
    rw [hps] at hw
    exact leadsToMaps_of_no_ref (refOf?_of_no_ref fun p hp => (h ps hin p hp).no_ref) w hw
  pairs a b hab := EachEntry.part (Settled.no_ref h) hab

/-! ## Resolving -/

def SettlesTo (root v w : Value) : Prop :=
  Regular root v → Settled w ∧ (LeadsToMaps root v → ∃ es, w = .map es)

theorem placeholder_settled (r : String) : Settled (placeholder r) := by
  refine EachEntry.map_iff.mpr fun e he => ?_
  rcases List.mem_cons.mp he with rfl | he
  · exact ⟨⟨by simp, by simp, spelled_text _⟩, .of_scalar _⟩
  · obtain rfl := List.mem_singleton.mp he
    exact ⟨⟨by simp, by simp, spelled_text _⟩, .of_scalar _⟩

/-- **Resolving settles.** -/
theorem closed_settlesTo (hroot : Regular root root) : Closed root (SettlesTo root) where
  leaf h hv := ⟨hv.settled h, fun h => h _ .refl⟩
  list hws hv := by
    refine ⟨EachEntry.list_iff.mpr fun w hw => ?_, fun h => ?_⟩
    · obtain ⟨v, hmem, hvw, -⟩ := exists_of_forall₂ hws w hw
      exact (hvw (hv.item v hmem)).1
    · obtain ⟨es, h⟩ := h _ .refl
      cases h
  map {es es' fs} hsub he hfs hv := by
    refine ⟨EachEntry.map_iff.mpr fun f hf => ?_, fun _ => ⟨_, rfl⟩⟩
    have hes : ∀ e ∈ es', RegularEntry root e := fun e hmem => (hv.entry e (hsub.mem hmem)).1
    obtain ⟨e, hmem, hkey, hef⟩ := exists_of_forall₂ hfs f hf
    obtain ⟨hw, hmap⟩ := hef (hv.entry e (hsub.mem hmem)).2
    refine ⟨⟨?_, fun hk => hmap ((hes e hmem).properties (hkey ▸ hk)), hkey ▸ (hes e hmem).spelled⟩, hw⟩
    exact hkey ▸ no_ref_of_refOf? hes he e hmem
  ref h hf hw hv := by
    obtain ⟨hw, hmap⟩ := hw (hroot.part (within_of_follow hf))
    exact ⟨hw, fun hl => hmap fun u hu => hl u (.ref h hf hu)⟩
  placeholder {r t} _ _ := ⟨placeholder_settled r, fun _ => ⟨_, rfl⟩⟩

end

end ToolServer.Reference
