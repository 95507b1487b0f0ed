import ToolServer.Proofs.Reference.Related
import ToolServer.Proofs.Schema.Fit

/-!
# Resolving JSON data

A node of a document is tame if it is finite JSON data and what comes to stand under `required` in it is no
list, or one of texts. What a tame node is resolved to is tame.
-/

namespace ToolServer.Reference

open Document
open Json (FiniteData)
open Schema (TextItems Tidy)

/-- The nodes that may come to stand in the place of a node. The text of a reference may itself come to stand
there by a reference. -/
inductive Stands (root : Value) : Value → Value → Prop
  | refl {v} : Stands root v v
  | ref {es u r t w} : (.text "$ref", u) ∈ es → Stands root u (.text r) → follow root r = some t →
      Stands root t w → Stands root (.map es) w

def StandsForTexts (root v : Value) : Prop := ∀ w, Stands root v w → TextItems w

structure Tame (root v : Value) : Prop where
  data : FiniteData v
  required : EachEntry (fun e => e.1 = .text "required" → StandsForTexts root e.2) v

structure TamesTo (root v w : Value) : Prop where
  stands : ∀ s, Stands root w (.text s) → Stands root v (.text s)
  texts : StandsForTexts root v → StandsForTexts root w
  tame : Tame root v → Tame root w

section
variable {root : Value}

theorem Tame.part {v w : Value} (h : Tame root v) (hw : Within v w) : Tame root w where
  data := h.data.part hw
  required := h.required.part hw

theorem tame_text (s : String) : Tame root (.text s) where
  data := .text s
  required := .of_scalar _

theorem Tame.tidy {v : Value} (h : Tame root v) : Tidy v where
  data := h.data
  required := h.required.imp fun _ he hkey => he hkey _ .refl

theorem Tame.elements {v : Value} (h : Tame root v) : Gives v.elements (fun vs => ∀ w ∈ vs, Tame root w) :=
  h.data.elements.mono fun vs hvs w hw => by
    rcases hvs w hw with hw | ⟨s, rfl⟩
    · exact h.part hw
    · exact tame_text s

theorem textItems_map (es : Entries) : TextItems (.map es) := fun vs h => by cases h

theorem stands_of_refOf? {es : Entries} {r : String} {t w : Value} (h : refOf? es = some r)
    (hf : follow root r = some t) (hw : Stands root t w) : Stands root (.map es) w := by
  unfold refOf? at h
  split at h
  · rename_i q hq
    cases h
    exact .ref (Entries.mem_of_get? hq) .refl hf hw
  · cases h

/-- A map without references stands for itself only. -/
theorem stands_of_no_ref {es : Entries} (h : ∀ e ∈ es, e.1 ≠ .text "$ref") {w : Value}
    (hw : Stands root (.map es) w) : w = .map es := by
  cases hw with
  | refl => rfl
  | ref hu _ _ _ => exact absurd rfl (h _ hu)

/-! ## Placeholders -/

theorem placeholder_entry (r : String) : ∃ es, placeholder r = .map es ∧ Ordered.Distinct es ∧
    ∀ e ∈ es, (∃ k s, e = (.text k, .text s)) ∧ e.1 ≠ .text "$ref" ∧ e.1 ≠ .text "required" := by
  refine ⟨_, rfl, ?_, ?_⟩
  · rw [Ordered.distinct_iff_keys]
    exact (by decide : List.Pairwise (fun j k => (j == k) = false) [Scalar.text "type", .text "description"])
  · simp

theorem placeholder_tamed (r : String) (v : Value) : TamesTo root v (placeholder r) := by
  obtain ⟨es, hes, hdistinct, hentry⟩ := placeholder_entry r
  have hstands : ∀ w, Stands root (placeholder r) w → w = .map es := fun w hw =>
    stands_of_no_ref (fun e he => (hentry e he).2.1) (hes ▸ hw)
  refine ⟨fun s hs => absurd (hstands _ hs) (by simp), fun _ w hw => ?_, fun _ => hes ▸ ⟨?_, ?_⟩⟩
  · rw [hstands w hw]
    exact textItems_map es
  · refine .map (fun e he => ?_) hdistinct fun e he => ?_
    · obtain ⟨⟨k, s, rfl⟩, -⟩ := hentry e he
      exact ⟨k, rfl⟩
    · obtain ⟨⟨k, s, rfl⟩, -⟩ := hentry e he
      exact .text s
  · refine EachEntry.map_iff.mpr fun e he => ?_
    obtain ⟨⟨k, s, rfl⟩, -, hrequired⟩ := hentry e he
    exact ⟨fun h => absurd h hrequired, .of_scalar _⟩

/-- **Resolving keeps tame nodes tame.** -/
theorem closed_tamesTo (hroot : Tame root root) : Closed root (TamesTo root) where
  leaf _ := ⟨fun _ h => h, fun h => h, fun h => h⟩
  list {vs ws} hws := by
    refine ⟨fun _ h => (by cases h), fun h w hw => ?_, fun h => ⟨.list fun w hw => ?_, ?_⟩⟩
    · cases hw with
      | refl =>
        rintro _ ⟨⟩ w hw
        obtain ⟨v, hv, -, hleaf⟩ := exists_of_forall₂ hws w hw
        obtain ⟨s, rfl⟩ := h _ .refl vs rfl v hv
        exact ⟨s, hleaf trivial⟩
    · obtain ⟨v, hv, hvw, -⟩ := exists_of_forall₂ hws w hw
      exact (hvw.tame (h.part (.of_item hv))).data
    · refine EachEntry.list_iff.mpr fun w hw => ?_
      obtain ⟨v, hv, hvw, -⟩ := exists_of_forall₂ hws w hw
      exact (hvw.tame (h.part (.of_item hv))).required
  map {es es' fs} hsub he hfs := by
    have hstands : ∀ w, Stands root (.map fs) w → w = .map fs ∨ Stands root (.map es) w := by
      intro w hw
      cases hw with
      | refl => exact .inl rfl
      | ref hu hr hf hw =>
        obtain ⟨e, hmem, hkey, hef⟩ := exists_of_forall₂ hfs _ hu
        have hkey : e.1 = .text "$ref" := hkey.symm
        have hmem : (.text "$ref", e.2) ∈ es := hkey ▸ hsub.mem hmem
        exact .inr (.ref hmem (hef.stands _ hr) hf hw)
    refine ⟨fun s h => ?_, fun h w hw => ?_, fun h => ⟨?_, ?_⟩⟩
    · rcases hstands _ h with h | h
      · cases h
      · exact h
    · rcases hstands w hw with rfl | hw
      · exact textItems_map fs
      · exact h w hw
    · cases h.data with
      | map hkeys hdistinct _ =>
        have hsame : fs.map (·.1) = es'.map (·.1) := map_eq_of_forall₂ (hfs.imp fun _ _ h => h.1)
        refine .map (fun f hf => ?_) ?_ fun f hf => ?_
        · obtain ⟨e, hmem, hkey, -⟩ := exists_of_forall₂ hfs f hf
          exact hkey ▸ hkeys e (hsub.mem hmem)
        · rw [Ordered.distinct_iff_keys, hsame]
          exact Ordered.distinct_iff_keys.mp (hdistinct.sublist hsub)
        · obtain ⟨e, hmem, -, hef⟩ := exists_of_forall₂ hfs f hf
          exact (hef.tame (h.part (.of_entry (hsub.mem hmem)))).data
    · refine EachEntry.map_iff.mpr fun f hf => ?_
      obtain ⟨e, hmem, hkey, hef⟩ := exists_of_forall₂ hfs f hf
      have he : e ∈ es := hsub.mem hmem
      refine ⟨fun hrequired => hef.texts (h.required es .refl e he (hkey ▸ hrequired)), ?_⟩
      exact (hef.tame (h.part (.of_entry he))).required
  ref h hf hw := by
    refine ⟨fun s hs => stands_of_refOf? h hf (hw.stands s hs), fun hv => hw.texts fun u hu => ?_,
      fun _ => hw.tame (hroot.part (within_of_follow hf))⟩
    exact hv u (stands_of_refOf? h hf hu)
  placeholder {r t} _ := placeholder_tamed r t

end

end ToolServer.Reference
