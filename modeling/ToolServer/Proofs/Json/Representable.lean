import ToolServer.Json.Writer
import ToolServer.Proofs.Outcome

/-!
# Values that JSON represents

Null, truth values, numbers and texts, and the lists, maps and pairs that are made of them, where no integer has too
many digits. They are the values that have a written form: `representable_iff`.
-/

namespace ToolServer.Json

open Document (Value Scalar Entries)

def RepresentableScalar : Scalar → Prop
  | .date _ | .moment _ | .bytes _ => False
  | .int n => Decimal.isWritable n = true
  | _ => True

instance : DecidablePred RepresentableScalar := fun s => by unfold RepresentableScalar; split <;> infer_instance

inductive Representable : Value → Prop
  | scalar {s} : RepresentableScalar s → Representable (.scalar s)
  | list {vs} : (∀ v ∈ vs, Representable v) → Representable (.list vs)
  | map {es} : (∀ e ∈ es, RepresentableScalar e.1) → (∀ e ∈ es, Representable e.2) → Representable (.map es)
  | pair {a b} : Representable a → Representable b → Representable (.pair a b)

theorem scalarText_isOk {s : Scalar} : (∃ t, scalarText s = .ok t) ↔ RepresentableScalar s := by
  cases s with
  | int n =>
    rw [scalarText, RepresentableScalar]
    split <;> simp [*]
  | _ => simp [scalarText, RepresentableScalar]

theorem keyText_isOk {s : Scalar} : (∃ t, keyText s = .ok t) ↔ RepresentableScalar s := by
  rw [← scalarText_isOk]
  cases s with
  | text s => exact ⟨fun _ => ⟨_, rfl⟩, fun _ => ⟨_, rfl⟩⟩
  | _ => exact exists_map_ok_iff

mutual
theorem valueText_isOk : ∀ {v : Value} {layout : Layout}, (∃ t, valueText layout v = .ok t) ↔ Representable v
  | .scalar s, _ => scalarText_isOk.trans ⟨.scalar, fun | .scalar h => h⟩
  | .list vs, layout => by
    rw [valueText, exists_map_ok_iff, itemTexts_isOk]
    exact ⟨.list, fun | .list h => h⟩
  | .map es, layout => by
    rw [valueText, exists_map_ok_iff, memberTexts_isOk]
    exact ⟨fun h => .map h.1 h.2, fun | .map hk hv => ⟨hk, hv⟩⟩
  | .pair a b, layout => by
    constructor
    · rintro ⟨t, h⟩
      obtain ⟨x, hx, h⟩ := bind_eq_ok_iff.mp h
      obtain ⟨y, hy, -⟩ := bind_eq_ok_iff.mp h
      exact .pair (valueText_isOk.mp ⟨x, hx⟩) (valueText_isOk.mp ⟨y, hy⟩)
    · intro h
      cases h with
      | pair ha hb =>
        obtain ⟨x, hx⟩ := valueText_isOk.mpr ha
        obtain ⟨y, hy⟩ := valueText_isOk.mpr hb
        exact ⟨_, bind_eq_ok_iff.mpr ⟨x, hx, bind_eq_ok_iff.mpr ⟨y, hy, rfl⟩⟩⟩
  | .set ms, layout => ⟨fun ⟨t, h⟩ => (by rw [valueText] at h; cases h), fun h => (by cases h)⟩
theorem itemTexts_isOk : ∀ {vs : List Value} {layout : Layout},
    (∃ ts, itemTexts layout vs = .ok ts) ↔ ∀ v ∈ vs, Representable v
  | [], layout => ⟨fun _ => List.forall_mem_nil _, fun _ => ⟨[], rfl⟩⟩
  | v :: vs, layout => by
    rw [List.forall_mem_cons]
    constructor
    · rintro ⟨ts, h⟩
      obtain ⟨t, ht, h⟩ := bind_eq_ok_iff.mp h
      obtain ⟨ts, hts, -⟩ := bind_eq_ok_iff.mp h
      exact ⟨valueText_isOk.mp ⟨t, ht⟩, itemTexts_isOk.mp ⟨ts, hts⟩⟩
    · rintro ⟨hv, hvs⟩
      obtain ⟨t, ht⟩ := valueText_isOk.mpr hv
      obtain ⟨ts, hts⟩ := itemTexts_isOk.mpr hvs
      exact ⟨_, bind_eq_ok_iff.mpr ⟨t, ht, bind_eq_ok_iff.mpr ⟨ts, hts, rfl⟩⟩⟩
theorem memberTexts_isOk : ∀ {es : List (Scalar × Value)} {layout : Layout},
    (∃ ts, memberTexts layout es = .ok ts) ↔
      (∀ e ∈ es, RepresentableScalar e.1) ∧ ∀ e ∈ es, Representable e.2
  | [], layout => ⟨fun _ => ⟨List.forall_mem_nil _, List.forall_mem_nil _⟩, fun _ => ⟨[], rfl⟩⟩
  | (k, v) :: es, layout => by
    rw [List.forall_mem_cons, List.forall_mem_cons]
    constructor
    · rintro ⟨ts, h⟩
      obtain ⟨s, hs, h⟩ := bind_eq_ok_iff.mp h
      obtain ⟨t, ht, h⟩ := bind_eq_ok_iff.mp h
      obtain ⟨ts, hts, -⟩ := bind_eq_ok_iff.mp h
      obtain ⟨hkeys, hvalues⟩ := memberTexts_isOk.mp ⟨ts, hts⟩
      exact ⟨⟨keyText_isOk.mp ⟨s, hs⟩, hkeys⟩, valueText_isOk.mp ⟨t, ht⟩, hvalues⟩
    · rintro ⟨⟨hk, hkeys⟩, hv, hvalues⟩
      obtain ⟨s, hs⟩ := keyText_isOk.mpr hk
      obtain ⟨t, ht⟩ := valueText_isOk.mpr hv
      obtain ⟨ts, hts⟩ := memberTexts_isOk.mpr ⟨hkeys, hvalues⟩
      exact ⟨_, bind_eq_ok_iff.mpr ⟨s, hs, bind_eq_ok_iff.mpr ⟨t, ht, bind_eq_ok_iff.mpr ⟨ts, hts, rfl⟩⟩⟩⟩
end

/-- **The values with a written form are those that JSON represents.** -/
theorem representable_iff {v : Value} : (∃ t, write v = .ok t) ↔ Representable v := valueText_isOk

theorem bracket_of_write_list {vs : List Value} {t : String} (h : write (.list vs) = .ok t) :
    ∃ rest, t = "[" ++ rest := by
  obtain ⟨ts, -, h⟩ := bind_eq_ok_iff.mp h
  cases h
  unfold Layout.enclose
  split
  · exact ⟨"]", rfl⟩
  · exact ⟨", ".intercalate ts ++ "]", by rw [String.append_assoc]⟩

end ToolServer.Json
