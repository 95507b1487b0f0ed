import ToolServer.Proofs.Decimal.Digits
import ToolServer.Proofs.Json.Representable
import ToolServer.Proofs.Json.Spelling

/-!
# JSON in ASCII

On one line a value is written with printable characters of ASCII only: numbers have none but digits and a few
marks, and strings have escapes for all else.
-/

namespace ToolServer.Json

open Decimal Text
open Document (Value Scalar)

def isAsciiPrintable (c : Char) : Bool := ' ' ≤ c && c ≤ '~'

theorem isAsciiPrintable_iff {c : Char} : isAsciiPrintable c = true ↔ 0x20 ≤ c.toNat ∧ c.toNat < 0x7f := by
  simp [isAsciiPrintable, le_iff_toNat, Nat.lt_succ_iff]

def InAscii (s : List Char) : Prop := ∀ c ∈ s, isAsciiPrintable c = true

def IsAscii (s : String) : Prop := InAscii s.toList

namespace InAscii

variable {s t : List Char}

theorem fixed (h : s.all isAsciiPrintable = true) : InAscii s := List.all_eq_true.mp h

theorem append (hs : InAscii s) (ht : InAscii t) : InAscii (s ++ t) := by
  intro c hc
  rcases List.mem_append.mp hc with hc | hc
  · exact hs c hc
  · exact ht c hc

theorem cons {c : Char} (hc : isAsciiPrintable c = true) (hs : InAscii s) : InAscii (c :: s) :=
  List.forall_mem_cons.mpr ⟨hc, hs⟩

theorem of_subset (hs : InAscii s) (h : t ⊆ s) : InAscii t := fun c hc => hs c (h hc)

theorem replicate {c : Char} (hc : isAsciiPrintable c = true) (n : Nat) : InAscii (List.replicate n c) := by
  intro d hd
  rw [List.eq_of_mem_replicate hd]
  exact hc

theorem digits (n : Nat) : InAscii (Decimal.digits n) := by
  intro c hc
  have hdigit := isAsciiDigit_iff.mp (isAsciiDigit_of_mem_digits c hc)
  exact isAsciiPrintable_iff.mpr (by omega)

theorem padded (width n : Nat) : InAscii (Decimal.padded width n) := append (.replicate rfl _) (.digits n)

theorem hexText (n : Nat) : InAscii (hexText 4 n) := by
  have hdigit : ∀ d < 16, isAsciiPrintable (hexChar d) = true := by decide
  exact forall_mem_hexText hdigit 4 n

end InAscii

namespace IsAscii

theorem append {s t : String} (hs : IsAscii s) (ht : IsAscii t) : IsAscii (s ++ t) := by
  rw [IsAscii, String.toList_append]
  exact InAscii.append hs ht

theorem ofList {s : List Char} (h : InAscii s) : IsAscii (String.ofList s) := by
  rw [IsAscii, String.toList_ofList]
  exact h

theorem intercalate {mark : String} (hmark : IsAscii mark) : ∀ {ts : List String}, (∀ t ∈ ts, IsAscii t) →
    IsAscii (mark.intercalate ts)
  | [], _ => by
    rw [String.intercalate_nil]
    exact ofList (s := []) (.fixed rfl)
  | [t], h => by
    rw [String.intercalate_singleton]
    exact h t (List.mem_singleton_self t)
  | t :: u :: ts, h => by
    rw [String.intercalate_cons_cons]
    obtain ⟨ht, hrest⟩ := List.forall_mem_cons.mp h
    exact (ht.append hmark).append (intercalate hmark hrest)

/-! ## Numbers -/

theorem intText (n : Int) : IsAscii (Decimal.intText n) := by
  unfold Decimal.intText
  split
  · exact .append (ofList (.fixed rfl)) (ofList (.digits _))
  · exact ofList (.digits _)

end IsAscii

theorem inAscii_shortest (x : Double) : InAscii x.shortest.1 := by
  unfold Double.shortest
  dsimp only
  split
  · exact List.forall_mem_nil _
  · rename_i d _
    exact (InAscii.digits d).of_subset fun c hc =>
      List.mem_reverse.mp ((List.dropWhile_suffix _).subset (List.mem_reverse.mp hc))

theorem inAscii_magnitudeText {ds : List Char} (h : InAscii ds) (point : Int) :
    InAscii (Double.magnitudeText ds point) := by
  unfold Double.magnitudeText
  split
  · split
    · exact .append (.append (.fixed rfl) (.replicate rfl _)) h
    · have htake : InAscii (ds.take point.natAbs) := h.of_subset (List.take_subset ..)
      have hpart : InAscii (if (ds.drop point.natAbs).isEmpty then ['0'] else ds.drop point.natAbs) := by
        split
        · exact .fixed rfl
        · exact h.of_subset (List.drop_subset ..)
      exact .append (.append htake (.replicate rfl _)) (.cons rfl hpart)
  · have hsign : InAscii ['e', if point - 1 < 0 then '-' else '+'] := by split <;> exact .fixed rfl
    refine .append (.append ?_ hsign) (.padded 2 _)
    split
    · exact h
    · exact h
    · obtain ⟨hfirst, hrest⟩ := List.forall_mem_cons.mp h
      exact .cons hfirst (.cons rfl hrest)

theorem isAscii_finiteText (x : Double) : IsAscii x.finiteText := by
  have hmagnitude : InAscii (if x.isZero then "0.0".toList else Double.magnitudeText x.shortest.1 x.shortest.2) := by
    split
    · exact IsAscii.ofList (.fixed rfl)
    · exact inAscii_magnitudeText (inAscii_shortest x) _
  unfold Double.finiteText
  refine .ofList ?_
  split
  · exact .cons rfl hmagnitude
  · exact hmagnitude

theorem isAscii_realText (x : Double) : IsAscii (realText x) := by
  unfold realText
  split_ifs
  · exact .ofList (.fixed rfl)
  · exact .ofList (.fixed rfl)
  · exact .ofList (.fixed rfl)
  · exact isAscii_finiteText x

/-! ## Values -/

theorem inAscii_stringChar (c : Char) : InAscii (stringChar c) := by
  have hescape (n : Nat) : InAscii (unicodeEscape n) := .cons rfl (.cons rfl (.hexText n))
  have hspelling := spelling c
  generalize stringChar c = written at hspelling ⊢
  cases hspelling with
  | letter h =>
    have hletters : ∀ e ∈ letterEscapes, isAsciiPrintable e.1 = true := List.all_eq_true.mp rfl
    exact .cons rfl (.cons (hletters _ h) (List.forall_mem_nil _))
  | plain _ _ hlow hhigh => exact .cons (isAsciiPrintable_iff.mpr ⟨hlow, hhigh⟩) (List.forall_mem_nil _)
  | unit _ => exact hescape _
  | units => exact .append (hescape _) (hescape _)

theorem isAscii_quoted (s : String) : IsAscii (quoted s) := by
  have hbody : InAscii (stringBody s.toList) := by
    intro c hc
    obtain ⟨d, -, hd⟩ := List.mem_flatMap.mp hc
    exact inAscii_stringChar d c hd
  exact .ofList (.cons rfl (.append hbody (.fixed rfl)))

theorem isAscii_scalarText (s : Scalar) : Gives (scalarText s) IsAscii := by
  cases s with
  | null => exact .ok (.ofList (.fixed rfl))
  | bool b => exact .ok (by cases b <;> exact .ofList (.fixed rfl))
  | int n =>
    rw [scalarText]
    split
    · exact .ok (.intText n)
    · exact .error _
  | real x => exact .ok (isAscii_realText x)
  | text s => exact .ok (isAscii_quoted s)
  | date _ => exact .error _
  | moment _ => exact .error _
  | bytes _ => exact .error _

theorem isAscii_keyText (k : Scalar) : Gives (keyText k) IsAscii := by
  cases k with
  | text s => exact .ok (isAscii_quoted s)
  | _ => exact .any fun t => .ok (isAscii_quoted t)

theorem isAscii_enclose {opening closing : String} (hopening : IsAscii opening) (hclosing : IsAscii closing)
    {members : List String} (h : ∀ m ∈ members, IsAscii m) : IsAscii (Layout.line.enclose opening closing members) := by
  unfold Layout.enclose
  split
  · exact hopening.append hclosing
  · exact (hopening.append (.intercalate (.ofList (.fixed rfl)) h)).append hclosing

mutual
theorem isAscii_valueText : ∀ v : Value, Gives (valueText .line v) IsAscii
  | .scalar s => isAscii_scalarText s
  | .list vs => (isAscii_itemTexts vs).bind fun _ h => .ok (isAscii_enclose (.ofList (.fixed rfl)) (.ofList (.fixed rfl)) h)
  | .map es => (isAscii_memberTexts es).bind fun _ h => .ok (isAscii_enclose (.ofList (.fixed rfl)) (.ofList (.fixed rfl)) h)
  | .pair a b => (isAscii_valueText a).bind fun _ hx => (isAscii_valueText b).bind fun _ hy =>
    .ok (isAscii_enclose (.ofList (.fixed rfl)) (.ofList (.fixed rfl))
      (List.forall_mem_cons.mpr ⟨hx, List.forall_mem_cons.mpr ⟨hy, List.forall_mem_nil _⟩⟩))
  | .set _ => .error _
theorem isAscii_itemTexts : ∀ vs : List Value, Gives (itemTexts .line vs) (fun ts => ∀ t ∈ ts, IsAscii t)
  | [] => .ok (List.forall_mem_nil _)
  | v :: vs => (isAscii_valueText v).bind fun _ ht => (isAscii_itemTexts vs).bind fun _ hts =>
    .ok (List.forall_mem_cons.mpr ⟨ht, hts⟩)
theorem isAscii_memberTexts : ∀ es : List (Scalar × Value),
    Gives (memberTexts .line es) (fun ts => ∀ t ∈ ts, IsAscii t)
  | [] => .ok (List.forall_mem_nil _)
  | (k, v) :: es => (isAscii_keyText k).bind fun _ hk => (isAscii_valueText v).bind fun _ ht =>
    (isAscii_memberTexts es).bind fun _ hts =>
      .ok (List.forall_mem_cons.mpr ⟨(hk.append (.ofList (.fixed rfl))).append ht, hts⟩)
end

/-- **A value on one line is written in ASCII.** -/
theorem isAscii_write (v : Value) : Gives (write v) IsAscii := isAscii_valueText v

end ToolServer.Json
