import ToolServer.Document.Elements
import ToolServer.Document.Pointer
import ToolServer.Proofs.Outcome

/-!
# What stands inside a node

Every node that a pointer leads to stands inside the document.
-/

namespace ToolServer.Document

theorem Scalar.beq_text_iff {k : Scalar} {s : String} : (k == .text s) = true ↔ k = .text s := by
  cases k <;> simp [BEq.beq, Scalar.same, Scalar.asInt?]

theorem Scalar.eq_of_text_beq {s : String} {k : Scalar} (h : (Scalar.text s == k) = true) : .text s = k := by
  cases k <;> simp_all [BEq.beq, Scalar.same, Scalar.asInt?]

theorem Entries.mem_of_get? {name : String} {v : Value} :
    ∀ {es : Entries}, Entries.get? es name = some v → (Scalar.text name, v) ∈ es
  | [], h => by cases h
  | (k, w) :: es, h => by
    unfold Entries.get? Ordered.get? at h
    split at h
    · rename_i hk
      rw [Scalar.beq_text_iff.mp hk, Option.some.inj h]
      exact List.mem_cons_self ..
    · exact List.mem_cons_of_mem _ (mem_of_get? h)

theorem Entries.get?_of_mem {name : String} {v : Value} :
    ∀ {es : Entries}, (Scalar.text name, v) ∈ es → ∃ w, Entries.get? es name = some w
  | (k, w) :: es, h => by
    unfold Entries.get? Ordered.get?
    split
    · exact ⟨w, rfl⟩
    · rename_i hk
      refine get?_of_mem ((List.mem_cons.mp h).resolve_left fun h => hk ?_)
      rw [← (Prod.mk.inj h).1]
      exact Scalar.beq_text_iff.mpr rfl

inductive Within : Value → Value → Prop
  | refl {v} : Within v v
  | item {vs v w} : v ∈ vs → Within v w → Within (.list vs) w
  | entry {es e w} : e ∈ es → Within e.2 w → Within (.map es) w
  | first {a b w} : Within a w → Within (.pair a b) w
  | second {a b w} : Within b w → Within (.pair a b) w

namespace Within

theorem trans {u v w : Value} (h : Within u v) (h' : Within v w) : Within u w := by
  induction h with
  | refl => exact h'
  | item hm _ ih => exact .item hm (ih h')
  | entry hm _ ih => exact .entry hm (ih h')
  | first _ ih => exact .first (ih h')
  | second _ ih => exact .second (ih h')

theorem of_item {vs : List Value} {v : Value} (h : v ∈ vs) : Within (.list vs) v := .item h .refl

theorem of_entry {es : Entries} {e : Scalar × Value} (h : e ∈ es) : Within (.map es) e.2 := .entry h .refl

@[simp] theorem scalar_iff {s : Scalar} {w : Value} : Within (.scalar s) w ↔ w = .scalar s :=
  ⟨fun h => by cases h; rfl, fun h => h ▸ .refl⟩

theorem list_iff {vs : List Value} {w : Value} :
    Within (.list vs) w ↔ w = .list vs ∨ ∃ v ∈ vs, Within v w := by
  constructor
  · intro h
    cases h with
    | refl => exact .inl rfl
    | item hm h => exact .inr ⟨_, hm, h⟩
  · rintro (rfl | ⟨v, hm, h⟩)
    · exact .refl
    · exact .item hm h

theorem map_iff {es : Entries} {w : Value} :
    Within (.map es) w ↔ w = .map es ∨ ∃ e ∈ es, Within e.2 w := by
  constructor
  · intro h
    cases h with
    | refl => exact .inl rfl
    | entry hm h => exact .inr ⟨_, hm, h⟩
  · rintro (rfl | ⟨e, hm, h⟩)
    · exact .refl
    · exact .entry hm h

end Within

def EachEntry (P : Scalar × Value → Prop) (v : Value) : Prop := ∀ es, Within v (.map es) → ∀ e ∈ es, P e

namespace EachEntry

variable {P Q : Scalar × Value → Prop}

theorem part {v w : Value} (h : EachEntry P v) (hw : Within v w) : EachEntry P w :=
  fun es hes => h es (hw.trans hes)

theorem imp {v : Value} (h : EachEntry P v) (hPQ : ∀ e, P e → Q e) : EachEntry Q v :=
  fun es hes e he => hPQ e (h es hes e he)

theorem of_scalar (s : Scalar) : EachEntry P (.scalar s) := fun es h => by cases h

theorem list_iff {vs : List Value} : EachEntry P (.list vs) ↔ ∀ v ∈ vs, EachEntry P v := by
  refine ⟨fun h v hv => h.part (.of_item hv), fun h es hes => ?_⟩
  cases hes with
  | item hv hes => exact h _ hv es hes

theorem map_iff {es : Entries} : EachEntry P (.map es) ↔ ∀ e ∈ es, P e ∧ EachEntry P e.2 := by
  refine ⟨fun h e he => ⟨h es .refl e he, h.part (.of_entry he)⟩, fun h fs hfs => ?_⟩
  cases hfs with
  | refl => exact fun e he => (h e he).1
  | entry he hfs => exact (h _ he).2 fs hfs

end EachEntry

theorem Value.elements_within (v : Value) :
    Gives v.elements (fun vs => ∀ w ∈ vs, Within v w ∨ ∃ s, w = .scalar s) := by
  cases v with
  | list vs => exact .ok fun w hw => .inl (.of_item hw)
  | map es => exact .ok (List.forall_mem_map.mpr fun e _ => .inr ⟨_, rfl⟩)
  | set ms => exact .ok (List.forall_mem_map.mpr fun s _ => .inr ⟨_, rfl⟩)
  | pair a b =>
    refine .ok fun w hw => ?_
    rcases List.mem_cons.mp hw with rfl | hw
    · exact .inl (.first .refl)
    · obtain rfl := List.mem_singleton.mp hw
      exact .inl (.second .refl)
  | scalar s =>
    cases s with
    | text s => exact .ok (List.forall_mem_map.mpr fun c _ => .inr ⟨_, rfl⟩)
    | bytes bs => exact .ok (List.forall_mem_map.mpr fun b _ => .inr ⟨_, rfl⟩)
    | _ => exact .error _

theorem Pointer.mem_of_item? {vs : List Value} {i : Int} {w : Value} (h : item? vs i = some w) : w ∈ vs := by
  unfold item? at h
  generalize (if i < 0 then i + vs.length else i) = place at h
  simp only at h
  split at h
  · cases h
  · exact List.mem_of_getElem? h

theorem Pointer.within_of_step {token : List Char} {v w : Value} (h : step token v = some w) :
    Within v w := by
  unfold step at h
  split at h
  · exact Within.of_entry (Entries.mem_of_get? h)
  · split at h
    · exact Within.of_item (mem_of_item? h)
    · cases h
  · cases h

theorem Pointer.within_of_walk : ∀ {tokens : List (List Char)} {v w : Value},
    walk v tokens = some w → Within v w
  | [], v, w, h => by
    cases h; exact .refl
  | token :: tokens, v, w, h => by
    unfold walk at h
    rw [List.foldlM_cons] at h
    obtain ⟨u, hu, hw⟩ := Option.bind_eq_some_iff.mp h
    exact (within_of_step hu).trans (within_of_walk hw)

theorem within_of_follow {root t : Value} {ref : String} (h : follow root ref = some t) : Within root t := by
  unfold follow at h
  obtain ⟨tokens, -, h⟩ := Option.bind_eq_some_iff.mp h
  obtain ⟨node, hw, h⟩ := Option.bind_eq_some_iff.mp h
  split at h
  · cases h
  · cases h; exact Pointer.within_of_walk hw

end ToolServer.Document
