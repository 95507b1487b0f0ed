import Mathlib.Data.Finset.Card
import ToolServer.Diff.Change
import ToolServer.Proofs.Ordered

/-!
# Tools and variables by name

Of the tools, and of the variables, of one name the last counts. What is listed of a map by its keys says under a
key only what is listed of the one entry there.
-/

namespace ToolServer

namespace Config

def toolNamed (c : Config) (name : String) : Option Tool := c.tools.findRev? (·.name == name)

def envNamed (c : Config) (name : String) : Option EnvVar := c.envVars.findRev? (·.name == name)

def toolNames (c : Config) : Finset String := (c.tools.map (·.name)).toFinset

def envNames (c : Config) : Finset String := (c.envVars.map (·.name)).toFinset

end Config

namespace Diff

open Ordered

/-! ## Maps by name -/

section
variable {α : Type} (name : α → String) (l : List α) (k : String)

theorem get?_byName : get? k (byName name l) = l.findRev? (name · == k) := by
  rw [byName, get?_ofPairs, List.findRev?_eq_find?_reverse, List.findRev?_eq_find?_reverse,
    ← List.map_reverse, List.find?_map, Option.map_map]
  simp [Function.comp_def]

theorem distinct_byName : Distinct (byName name l) := distinct_ofPairs _

end

/-! ## Maps by key -/

section
variable {β γ : Type}

def keys (m : List (String × β)) : Finset String := (m.map (·.1)).toFinset

theorem mem_keys {k : String} {m : List (String × β)} : k ∈ keys m ↔ contains k m = true := by
  rw [keys, List.mem_toFinset, mem_keys_iff]

theorem keys_byName {α : Type} (name : α → String) (l : List α) :
    keys (byName name l) = (l.map name).toFinset := by
  ext k
  rw [mem_keys, contains_iff, get?_byName, List.findRev?_eq_find?_reverse, ← Option.isSome_iff_exists,
    List.find?_isSome]
  simp

theorem card_keys {m : List (String × β)} (h : Distinct m) : (keys m).card = m.length := by
  rw [keys, List.toFinset_card_of_nodup (distinct_iff_nodup.mp h), List.length_map]

theorem keys_missing (m : List (String × β)) (n : List (String × γ)) : keys (missing m n) = keys n \ keys m := by
  ext k
  rw [Finset.mem_sdiff, mem_keys, mem_keys, mem_keys, contains_iff, contains_iff, missing,
    get?_filter (fun k => !contains k m)]
  by_cases h : contains k m = true
  · simp [h]
  · simp [h]

theorem distinct_missing (m : List (String × β)) {n : List (String × γ)} (hn : Distinct n) :
    Distinct (missing m n) := distinct_filter hn _

theorem length_missing {m : List (String × β)} {n : List (String × γ)} (hn : Distinct n) :
    (missing m n).length = (keys n \ keys m).card := by
  rw [← keys_missing, card_keys (distinct_missing m hn)]

theorem get?_missing (k : String) (m : List (String × β)) (n : List (String × γ)) :
    get? k (missing m n) = match get? k m with
      | some _ => none
      | none => get? k n := by
  rw [missing, get?_filter (fun k => !contains k m)]
  cases h : get? k m with
  | some v => simp [contains_iff.mpr ⟨v, h⟩]
  | none =>
    have hno : contains k m = false := by
      rw [← Bool.not_eq_true, contains_iff, h]
      simp
    simp [hno]

theorem mem_keys_filter {k : String} {m : List (String × β)} (hm : Distinct m) {p : String × β → Bool} :
    k ∈ keys (m.filter p) ↔ ∃ v, get? k m = some v ∧ p (k, v) = true := by
  rw [mem_keys, ← mem_keys_iff, List.mem_map]
  constructor
  · rintro ⟨e, he, rfl⟩
    obtain ⟨he, hp⟩ := List.mem_filter.mp he
    exact ⟨e.2, get?_of_mem hm he (beq_self_eq_true _), hp⟩
  · rintro ⟨v, hv, hp⟩
    exact ⟨(k, v), List.mem_filter.mpr ⟨pair_mem_of_get? hv, hp⟩, rfl⟩

theorem length_common {m : List (String × β)} {n : List (String × γ)} (hn : Distinct n) :
    (n.filter fun e => contains e.1 m).length = (keys m ∩ keys n).card := by
  have hkeys : keys (n.filter fun e => contains e.1 m) = keys m ∩ keys n := by
    ext k
    rw [Finset.mem_inter, mem_keys_filter hn, mem_keys, mem_keys, contains_iff (m := n)]
    exact ⟨fun ⟨v, hv, hm⟩ => ⟨hm, v, hv⟩, fun ⟨hm, v, hv⟩ => ⟨v, hv, hm⟩⟩
  rw [← hkeys, card_keys (distinct_filter hn _)]

/-- What is listed under a key is what is listed of its entry. -/
theorem filter_filterMap_keyed (key : γ → Option String) (f : String × β → Option γ) (k : String) :
    ∀ {m : List (String × β)}, Distinct m → (∀ e c, f e = some c → key c = some e.1) →
      (m.filterMap f).filter (key · == some k) = ((get? k m).bind fun v => f (k, v)).toList
  | [], _, _ => rfl
  | (j, v) :: m, hm, hf => by
    obtain ⟨hj, hm⟩ := List.pairwise_cons.mp hm
    have ih := filter_filterMap_keyed key f k hm hf
    rw [List.filterMap_cons, get?]
    by_cases hjk : j = k
    · subst hjk
      have hnone : get? j m = none := by
        cases hget : get? j m with
        | none => rfl
        | some w => exact absurd (hj _ (pair_mem_of_get? hget)) (by simp)
      rw [hnone] at ih
      cases hv : f (j, v) with
      | none => simpa [hv] using ih
      | some c => simpa [hv, hf _ c hv] using ih
    · cases hv : f (j, v) with
      | none => simpa [hjk] using ih
      | some c => simpa [hjk, hf _ c hv] using ih

theorem filter_map_keyed (key : γ → Option String) (f : String × β → γ) (k : String) {m : List (String × β)}
    (hm : Distinct m) (hf : ∀ e, key (f e) = some e.1) :
    (m.map f).filter (key · == some k) = ((get? k m).map fun v => f (k, v)).toList := by
  have hkey : ∀ e c, (some ∘ f) e = some c → key c = some e.1 := fun e c hc => Option.some.inj hc ▸ hf e
  rw [← List.filterMap_eq_map, filter_filterMap_keyed key (some ∘ f) k hm hkey]
  cases get? k m <;> rfl

theorem filterMap_eq_map_filter {α : Type} {f : α → Option γ} {g : α → γ} (h : ∀ a c, f a = some c → c = g a)
    (l : List α) : l.filterMap f = (l.filter fun a => (f a).isSome).map g := by
  induction l with
  | nil => rfl
  | cons a l ih =>
    rw [List.filterMap_cons, List.filter_cons]
    cases ha : f a with
    | none => simpa using ih
    | some c => simp [ih, h a c ha]

end

/-! ## Two servers -/

section
variable (c : Config) (name : String)

theorem get?_toolsByName : get? name (toolsByName c) = c.toolNamed name := get?_byName ..

theorem get?_envsByName : get? name (envsByName c) = c.envNamed name := get?_byName ..

theorem distinct_toolsByName : Distinct (toolsByName c) := distinct_byName ..

theorem distinct_envsByName : Distinct (envsByName c) := distinct_byName ..

theorem keys_toolsByName : keys (toolsByName c) = c.toolNames := keys_byName ..

theorem keys_envsByName : keys (envsByName c) = c.envNames := keys_byName ..

end

end Diff

end ToolServer
