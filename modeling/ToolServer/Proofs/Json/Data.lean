import Mathlib.Data.List.TakeWhile
import ToolServer.Document.Plain
import ToolServer.Json.Reader
import ToolServer.Proofs.Decimal.Digits
import ToolServer.Proofs.Document.Equality

/-!
# JSON data

Null, truth values, numbers and texts, and the lists and maps that are made of them, where the keys of a map
are different texts. Such data is its own plain form and, if its numbers are finite, equal to itself. A JSON
text is read as nothing else.
-/

namespace ToolServer.Decimal.Double

def Finite (x : Double) : Prop := x.exponentField ≠ 2047

instance : DecidablePred Finite := fun x => inferInstanceAs (Decidable (x.exponentField ≠ 2047))

theorem equals_self {x : Double} (h : x.Finite) : x.equals x = true := by
  have hnan : x.isNan = false := by simp [isNan, show x.exponentField ≠ 2047 from h]
  exact equals_iff.mpr (.inl ⟨hnan, rfl⟩)

end ToolServer.Decimal.Double

namespace ToolServer.Json

open Decimal (Double)
open Document (Value Scalar Entries Within)

def TextKeys (es : Entries) : Prop := ∀ e ∈ es, ∃ name, e.1 = .text name

inductive Data (number : Double → Prop) : Value → Prop
  | null : Data number .null
  | bool (b) : Data number (.bool b)
  | int {n} : Decimal.isWritable n = true → Data number (.int n)
  | real {x} : number x → Data number (.real x)
  | text (s) : Data number (.text s)
  | list {vs} : (∀ v ∈ vs, Data number v) → Data number (.list vs)
  | map {es} : TextKeys es → Ordered.Distinct es → (∀ e ∈ es, Data number e.2) → Data number (.map es)

abbrev FiniteData : Value → Prop := Data Double.Finite

namespace Data

variable {number : Double → Prop} {v w : Value}

theorem part (h : Data number v) (hw : Within v w) : Data number w := by
  induction hw with
  | refl => exact h
  | item hv _ ih =>
    cases h with
    | list hvs => exact ih (hvs _ hv)
  | entry he _ ih =>
    cases h with
    | map _ _ hes => exact ih (hes _ he)
  | first _ _ => cases h
  | second _ _ => cases h

theorem restrict {other : Double → Prop} (h : Data number v) (hother : ∀ x, Within v (.real x) → other x) :
    Data other v := by
  induction h with
  | null => exact .null
  | bool b => exact .bool b
  | int h => exact .int h
  | real _ => exact .real (hother _ .refl)
  | text s => exact .text s
  | list _ ih => exact .list fun v hv => ih v hv fun x hx => hother x (.item hv hx)
  | map hkeys hdistinct _ ih => exact .map hkeys hdistinct fun e he => ih e he fun x hx => hother x (.entry he hx)

theorem elements (h : Data number v) : Gives v.elements (fun vs => ∀ w ∈ vs, Within v w ∨ ∃ s, w = .text s) := by
  cases h with
  | list _ => exact .ok fun w hw => .inl (.of_item hw)
  | map hkeys _ _ =>
    refine .ok (List.forall_mem_map.mpr fun e he => .inr ?_)
    obtain ⟨name, hname⟩ := hkeys e he
    exact ⟨name, congrArg Value.scalar hname⟩
  | text s => exact .ok (List.forall_mem_map.mpr fun c _ => .inr ⟨_, rfl⟩)
  | _ => exact .error _

/-! ## Plain forms -/

theorem plainItems_eq : ∀ {vs : List Value}, (∀ v ∈ vs, v.plain = v) → Value.plainItems vs = vs
  | [], _ => rfl
  | v :: vs, h => by
    obtain ⟨hv, hvs⟩ := List.forall_mem_cons.mp h
    rw [Value.plainItems, hv, plainItems_eq hvs]

theorem plainEntries_eq : ∀ {es : Entries}, TextKeys es → (∀ e ∈ es, e.2.plain = e.2) → Value.plainEntries es = es
  | [], _, _ => rfl
  | (k, v) :: es, hkeys, h => by
    obtain ⟨⟨name, hk⟩, hrest⟩ := List.forall_mem_cons.mp hkeys
    obtain ⟨hv, hes⟩ := List.forall_mem_cons.mp h
    have hk : k = .text name := hk
    have hv : v.plain = v := hv
    rw [Value.plainEntries, hv, plainEntries_eq hrest hes, hk]
    rfl

theorem plain_eq (h : Data number v) : v.plain = v := by
  induction h with
  | list _ ih => rw [Value.plain, plainItems_eq ih]
  | map hkeys hdistinct _ ih => rw [Value.plain, plainEntries_eq hkeys ih, Ordered.ofPairs_of_distinct hdistinct]
  | _ => rfl

/-! ## Equality -/

theorem sameItems_self : ∀ {vs : List Value}, (∀ v ∈ vs, Value.same v v = true) → Value.sameItems vs vs = true
  | [], _ => rfl
  | v :: vs, h => by
    obtain ⟨hv, hvs⟩ := List.forall_mem_cons.mp h
    rw [Value.sameItems, hv, sameItems_self hvs]
    rfl

theorem same_self (h : FiniteData v) : Value.same v v = true := by
  induction h with
  | null => rfl
  | bool b => exact beq_self_eq_true (if b then (1 : Int) else 0)
  | @int n _ => exact beq_self_eq_true n
  | real hx => exact Double.equals_self hx
  | text s => exact beq_self_eq_true s
  | list _ ih => exact sameItems_self ih
  | @map es hkeys hdistinct _ ih =>
    refine Bool.and_eq_true_iff.mpr ⟨beq_self_eq_true es.length, Value.sameEntries_iff.mpr fun e he => ?_⟩
    obtain ⟨name, hk⟩ := hkeys e he
    have hself : (e.1 == e.1) = true := hk ▸ beq_self_eq_true name
    exact ⟨e.2, Ordered.get?_of_mem hdistinct he hself, ih e he⟩

end Data

/-! ## Reading -/

abbrev Read : Value → Prop := Data fun _ => True

theorem readMagnitude_data (negative : Bool) (start text : List Char) :
    Gives (readMagnitude negative start text) (fun r => Read r.1) := by
  unfold readMagnitude
  extract_lets whole
  have hwhole : ∀ c ∈ whole, Text.isAsciiDigit c = true := by
    unfold whole
    split
    · exact List.forall_mem_singleton.mpr rfl
    · exact fun c hc => List.mem_takeWhile_imp hc
  clear_value whole
  split
  · exact .error _
  · rcases readPart (text.drop whole.length) with ⟨part, rest⟩
    rcases readExponent rest with ⟨exponent, rest⟩
    dsimp only
    split
    · split
      · exact .error _
      · rename_i hfew
        have habs : ∀ n : Nat, (if negative then -(n : Int) else n).natAbs = n := by cases negative <;> simp
        exact .ok (.int (Decimal.isWritable_of_natAbs hwhole (Nat.le_of_not_lt hfew) (habs _)))
    · exact .ok (.real trivial)

theorem readScalar_data (text : List Char) : Gives (readScalar text) (fun r => Read r.1) := by
  unfold readScalar
  split
  · rename_i word v hfind
    have hmem : (word, v) ∈ literals := List.mem_of_find?_eq_some hfind
    refine .ok ?_
    simp only [literals, List.mem_cons, Prod.mk.injEq, List.not_mem_nil, or_false] at hmem
    rcases hmem with ⟨-, rfl⟩ | ⟨-, rfl⟩ | ⟨-, rfl⟩ | ⟨-, rfl⟩ | ⟨-, rfl⟩ | ⟨-, rfl⟩
    · exact .null
    · exact .bool true
    · exact .bool false
    · exact .real trivial
    · exact .real trivial
    · exact .real trivial
  · split
    · exact readMagnitude_data true _ _
    · exact readMagnitude_data false _ _

theorem Data.put {number : Double → Prop} {es : Entries} (h : Data number (.map es)) (name : String) {v : Value}
    (hv : Data number v) : Data number (.map (Ordered.put (.text name) v es)) := by
  cases h with
  | map hkeys hdistinct hes =>
    have hmem : ∀ e ∈ Ordered.put (.text name) v es, (∃ key, e.1 = .text key) ∧ Data number e.2 := by
      intro e he
      rcases Ordered.mem_put he with he | ⟨hv', hk⟩
      · exact ⟨hkeys e he, hes e he⟩
      · refine ⟨?_, hv' ▸ hv⟩
        rcases hk with hk | ⟨-, w, he⟩
        · exact ⟨name, hk⟩
        · exact hkeys (e.1, w) he
    exact .map (fun e he => (hmem e he).1) (Ordered.distinct_put _ v hdistinct) fun e he => (hmem e he).2

mutual
theorem readValue_data : ∀ (fuel : Nat) (text : List Char), Gives (readValue fuel text) (fun r => Read r.1)
  | 0, _ => .error _
  | fuel + 1, text => by
    unfold readValue
    split
    · exact Gives.any fun r => .ok (.text _)
    · split
      · exact .ok (.map (fun e he => by cases he) .nil fun e he => by cases he)
      · exact readMembers_data fuel (.map (fun e he => by cases he) .nil fun e he => by cases he) _
    · split
      · exact .ok (.list fun v hv => by cases hv)
      · exact readItems_data fuel (fun v hv => by cases hv) _
    · exact readScalar_data _
theorem readItems_data : ∀ (fuel : Nat) {items : List Value}, (∀ v ∈ items, Read v) → ∀ text,
    Gives (readItems fuel items text) (fun r => Read r.1)
  | 0, _, _, _ => .error _
  | fuel + 1, items, hitems, text => by
    unfold readItems
    refine (readValue_data fuel text).bind fun r hr => ?_
    have hall : ∀ v ∈ r.1 :: items, Read v := List.forall_mem_cons.mpr ⟨hr, hitems⟩
    dsimp only
    split
    · exact .ok (.list fun v hv => hall v (List.mem_reverse.mp hv))
    · exact readItems_data fuel hall _
    · exact .error _
theorem readMembers_data : ∀ (fuel : Nat) {es : Entries}, Read (.map es) → ∀ text,
    Gives (readMembers fuel es text) (fun r => Read r.1)
  | 0, _, _, _ => .error _
  | fuel + 1, es, hes, text => by
    unfold readMembers
    split
    · refine Gives.any fun r => ?_
      dsimp only
      split
      · refine (readValue_data fuel _).bind fun s hs => ?_
        have hput := hes.put r.1 hs
        split
        · exact .ok hput
        · exact readMembers_data fuel hput _
        · exact .error _
      · exact .error _
    · exact .error _
end

theorem readText_data (text : List Char) : Gives (readText text) Read := by
  unfold readText
  split
  · exact .error _
  · refine (readValue_data _ _).bind fun r hr => ?_
    dsimp only
    split
    · exact .ok hr
    · exact .error _

theorem read_data (text : String) : Gives (read text) Read := by
  intro v hv
  unfold read at hv
  cases h : readText text.toList with
  | error f =>
    rw [h] at hv
    cases hv
  | ok w =>
    rw [h] at hv
    cases hv
    exact readText_data _ _ h

end ToolServer.Json
