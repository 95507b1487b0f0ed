import Mathlib.Data.List.Infix
import ToolServer.Proofs.Composition.Collision

/-!
# Variables of composed sources

Every variable of a mapped tool begins with `API_`. A variable under one prefix can be one under another only
if the second prefix goes on from the first as the name of a credential does (`shared_iff`), and
`variables_apart_iff` says of a whole composition when no two sources read the same variable.
-/

namespace ToolServer.Composition

open Api Naming

/-! ## Names of variables -/

theorem credentialVariable_api (c : Scheme) : ∃ rest, credentialVariable c = "API_" ++ rest := by
  unfold credentialVariable
  split
  · split
    · exact ⟨"BEARER_TOKEN", rfl⟩
    · split
      · exact ⟨"BASIC_AUTH", rfl⟩
      · exact ⟨"HTTP_AUTH", rfl⟩
  · split
    · exact ⟨"KEY_" ++ envSegment (keyName c), by rw [← String.append_assoc]; rfl⟩
    · split
      · exact ⟨"OAUTH_TOKEN", rfl⟩
      · exact ⟨"AUTH_" ++ envSegment c.name, by rw [← String.append_assoc]; rfl⟩

theorem reads_api {t : Tool} (h : PlainHandler t.handler) : ∀ v ∈ t.reads, ∃ rest, v = "API_" ++ rest := by
  intro v hv
  rcases List.mem_cons.mp hv with rfl | hv
  · exact ⟨"BASE_URL", by rw [Handler.baseUrlName, h.base]; rfl⟩
  · obtain ⟨a, ha, rfl⟩ := List.mem_map.mp hv
    rw [h.auth a ha]
    exact credentialVariable_api a.scheme

/-- A text in which `API_` follows an underscore holds both. -/
theorem infix_of_join {x start rest : String} (h : x = start ++ "_" ++ ("API_" ++ rest)) :
    "_API_".toList <:+: x.toList := by
  refine ⟨start.toList, rest.toList, ?_⟩
  rw [h]
  simp

theorem underscore_mem_join (p q : String) : '_' ∈ (p ++ "_" ++ q).toList := by simp

/-- If `API_` goes on elsewhere than where the word begins, it does so behind the word. -/
theorem opens_of_join (word : String) {segment start rest : String} (hword : '_' ∉ word.toList)
    (hother : word ++ "_" ++ segment ≠ "API_" ++ rest)
    (h : "API_" ++ word ++ "_" ++ segment = start ++ "_" ++ ("API_" ++ rest)) :
    ∃ d, start = "API_" ++ word ++ d := by
  rcases append_join_eq_iff.mp h with ⟨hs, -⟩ | ⟨d, hs, -⟩ | ⟨d, hs, hrest⟩
  · exact ⟨"", by rw [hs, String.append_empty]⟩
  · exact ⟨"_" ++ d, by rw [hs, String.append_assoc]⟩
  · have hs : "API" ++ "_" ++ word = start ++ "_" ++ d := hs
    rcases append_join_eq_iff.mp hs with ⟨-, rfl⟩ | ⟨e, -, he⟩ | ⟨e, he, -⟩
    · exact absurd hrest.symm hother
    · exact absurd (he ▸ underscore_mem_join e d) hword
    · exact absurd (he ▸ underscore_mem_join start e) (by decide)

theorem opens_of_credentialVariable {c : Scheme} {start rest : String}
    (h : credentialVariable c = start ++ "_" ++ ("API_" ++ rest)) :
    (∃ d, start = "API_KEY" ++ d) ∨ ∃ d, start = "API_AUTH" ++ d := by
  have hfixed : ∀ x : String, ¬ "_API_".toList <:+: x.toList → x ≠ start ++ "_" ++ ("API_" ++ rest) :=
    fun x hx he => hx (infix_of_join he)
  unfold credentialVariable at h
  split at h
  · split at h
    · exact absurd h (hfixed _ (by decide))
    · split at h
      · exact absurd h (hfixed _ (by decide))
      · exact absurd h (hfixed _ (by decide))
  · split at h
    · refine .inl (opens_of_join "KEY" (by decide) (fun he => ?_) h)
      simpa using congrArg String.toList he
    · split at h
      · exact absurd h (hfixed _ (by decide))
      · refine .inr (opens_of_join "AUTH" (by decide) (fun he => ?_) h)
        simpa using congrArg String.toList he

/-! ## Variables under prefixes -/

theorem nonempty_some {x : String} (h : x ≠ "") : nonempty (some x) = some x := by simp [nonempty, h]

theorem baseUrlName_prefixedTool (s : Source) (t : Tool) :
    (prefixedTool s t).handler.baseUrlName = variablePrefix s.toolPrefix ++ "_API_BASE_URL" := by
  have hne : variablePrefix s.toolPrefix ++ "_API_BASE_URL" ≠ "" := by simp
  show (nonempty (some (variablePrefix s.toolPrefix ++ "_API_BASE_URL"))).getD baseUrlVariable = _
  rw [nonempty_some hne, Option.getD_some]

theorem reads_prefixedTool (s : Source) {t : Tool} (h : PlainHandler t.handler) :
    (prefixedTool s t).reads = t.reads.map fun v => variablePrefix s.toolPrefix ++ "_" ++ v := by
  have hplain : t.handler.baseUrlName = "API_BASE_URL" := by
    rw [Handler.baseUrlName, h.base]
    rfl
  have hjoin : variablePrefix s.toolPrefix ++ "_API_BASE_URL" =
      variablePrefix s.toolPrefix ++ "_" ++ "API_BASE_URL" := by
    rw [String.append_assoc]
    rfl
  rw [Tool.reads, Tool.reads, baseUrlName_prefixedTool, hplain, hjoin]
  simp [prefixedTool]

/-- The prefix of the second source goes on from that of the first as the variable of some credentials of
the first tool does, and behind that follows a variable of the second tool. -/
def Imitates (s s' : Source) (t t' : Tool) : Prop :=
  ∃ e, s'.toolPrefix = s.toolPrefix ++ "_" ++ e ∧ ((∃ d, e = "api_key" ++ d) ∨ ∃ d, e = "api_auth" ++ d) ∧
    ∃ a ∈ t.handler.auth, ∃ v ∈ t'.reads, a.envVar = Text.upper e ++ "_" ++ v

theorem opens_of_upper {word e d : String} (hword : ∀ c ∈ word.toList, isPrefixChar c = true)
    (he : ∀ c ∈ e.toList, isPrefixChar c = true) (h : Text.upper e = Text.upper word ++ d) :
    ∃ d, e = word ++ d := by
  obtain ⟨d, hd, -⟩ := (upper_eq_append_iff hword he).mp h
  exact ⟨d, hd⟩

theorem imitates_of_join {s s' : Source} {t t' : Tool} (ht : PlainHandler t.handler) (ht' : PlainHandler t'.handler)
    {start x y : String} (hp : variablePrefix s'.toolPrefix = variablePrefix s.toolPrefix ++ "_" ++ start)
    (hx : x ∈ t.reads) (hy : y ∈ t'.reads) (h : x = start ++ "_" ++ y) : Imitates s s' t t' := by
  obtain ⟨e, hpe, rfl⟩ := (upper_eq_join_iff s.toolPrefix_chars s'.toolPrefix_chars).mp hp
  obtain ⟨rest, hrest⟩ := reads_api ht' y hy
  have he : ∀ c ∈ e.toList, isPrefixChar c = true := by
    intro c hc
    refine s'.toolPrefix_chars c ?_
    rw [hpe, String.toList_append]
    exact List.mem_append_right _ hc
  rcases List.mem_cons.mp hx with rfl | hx
  · -- the base address has a fixed name, in which the mark does not occur
    rw [Handler.baseUrlName, ht.base, hrest] at h
    exact absurd (infix_of_join h) (by decide)
  · obtain ⟨a, ha, rfl⟩ := List.mem_map.mp hx
    refine ⟨e, hpe, ?_, a, ha, y, hy, h⟩
    rw [ht.auth a ha, hrest] at h
    rcases opens_of_credentialVariable h with ⟨d, hd⟩ | ⟨d, hd⟩
    · exact .inl (opens_of_upper (List.all_eq_true.mp (by decide)) he hd)
    · exact .inr (opens_of_upper (List.all_eq_true.mp (by decide)) he hd)

theorem shared_of_imitates {s s' : Source} {t t' : Tool} (ht : PlainHandler t.handler)
    (ht' : PlainHandler t'.handler) (h : Imitates s s' t t') :
    ∃ v, v ∈ (prefixedTool s t).reads ∧ v ∈ (prefixedTool s' t').reads := by
  obtain ⟨e, hp, -, a, ha, v, hv, hav⟩ := h
  rw [reads_prefixedTool s ht, reads_prefixedTool s' ht']
  have hread : a.envVar ∈ t.reads := List.mem_cons_of_mem _ (List.mem_map_of_mem ha)
  refine ⟨_, List.mem_map.mpr ⟨a.envVar, hread, rfl⟩, List.mem_map.mpr ⟨v, hv, ?_⟩⟩
  have hstart : variablePrefix s'.toolPrefix = variablePrefix s.toolPrefix ++ "_" ++ Text.upper e :=
    (upper_eq_join_iff s.toolPrefix_chars s'.toolPrefix_chars).mpr ⟨e, hp, rfl⟩
  exact append_join_eq_iff.mpr (.inr (.inr ⟨Text.upper e, hstart, hav⟩))

theorem shared_iff {s s' : Source} (hne : s.toolPrefix ≠ s'.toolPrefix) {t t' : Tool}
    (ht : PlainHandler t.handler) (ht' : PlainHandler t'.handler) :
    (∃ v, v ∈ (prefixedTool s t).reads ∧ v ∈ (prefixedTool s' t').reads) ↔
      Imitates s s' t t' ∨ Imitates s' s t' t := by
  constructor
  · rintro ⟨v, hv, hv'⟩
    rw [reads_prefixedTool s ht] at hv
    rw [reads_prefixedTool s' ht'] at hv'
    obtain ⟨x, hx, rfl⟩ := List.mem_map.mp hv
    obtain ⟨y, hy, he⟩ := List.mem_map.mp hv'
    rcases append_join_eq_iff.mp he.symm with ⟨hp, -⟩ | ⟨start, hp, hxy⟩ | ⟨start, hp, hyx⟩
    · exact absurd (upper_injective s.toolPrefix_chars s'.toolPrefix_chars hp) hne
    · exact .inl (imitates_of_join ht ht' hp hx hy hxy)
    · exact .inr (imitates_of_join ht' ht hp hy hx hyx)
  · rintro (h | h)
    · exact shared_of_imitates ht ht' h
    · obtain ⟨v, hv', hv⟩ := shared_of_imitates ht' ht h
      exact ⟨v, hv, hv'⟩

example : variablePrefix "acme" ++ "_" ++ "API_KEY_API_KEY_K" =
    variablePrefix "acme_api_key" ++ "_" ++ "API_KEY_K" := by decide +kernel

/-! ## Compositions -/

def Result.Has (r : Result) (s : Source) (t : Tool) : Prop := t ∈ s.tools ∧ prefixedTool s t ∈ r.config.tools

theorem rejection?_of_has {sources : List Source} {serverName description : Option String} {r : Result}
    (h : compose sources serverName description = .ok r) {s : Source} {t : Tool} (hr : r.Has s t) :
    rejection? sources = none := by
  cases hrej : rejection? sources with
  | none => rfl
  | some problem =>
    rw [compose, hrej] at h
    cases h
    cases hr.2

/-- **Sources share a variable only by imitation.** -/
theorem variables_apart_iff {sources : List Source} {serverName description : Option String} {r : Result}
    (h : compose sources serverName description = .ok r) :
    (∀ s ∈ sources, ∀ s' ∈ sources, s ≠ s' → ∀ t t', r.Has s t → r.Has s' t' →
      ∀ v ∈ (prefixedTool s t).reads, v ∉ (prefixedTool s' t').reads) ↔
    ∀ s ∈ sources, ∀ s' ∈ sources, ∀ t t', r.Has s t → r.Has s' t' → ¬ Imitates s s' t t' := by
  constructor
  · intro hapart s hs s' hs' t t' ht ht' himitates
    obtain ⟨v, hv, hv'⟩ := shared_of_imitates (s.tools_plain t ht.1) (s'.tools_plain t' ht'.1) himitates
    refine hapart s hs s' hs' ?_ t t' ht ht' v hv hv'
    rintro rfl
    obtain ⟨e, hp, -⟩ := himitates
    exact ne_join _ e hp
  · intro hfree s hs s' hs' hne t t' ht ht' v hv hv'
    have hprefixes := (rejection?_eq_none.mp (rejection?_of_has h ht)).2.2
    have hp : s.toolPrefix ≠ s'.toolPrefix := fun hp => hne (toolPrefix_inj hprefixes hs hs' hp)
    rcases (shared_iff hp (s.tools_plain t ht.1) (s'.tools_plain t' ht'.1)).mp ⟨v, hv, hv'⟩ with hi | hi
    · exact hfree s hs s' hs' t t' ht ht' hi
    · exact hfree s' hs' s hs t' t ht' ht hi

def keyText (key : String) : String :=
  "\x7b\"openapi\":\"3.\",\"paths\":\x7b\"/i\":\x7b\"get\":\x7b\"security\":[\x7b\"k\":[]\x7d]\x7d\x7d\x7d," ++
    "\"components\":\x7b\"securitySchemes\":\x7b\"k\":\x7b\"type\":\"apiKey\",\"name\":\"" ++ key ++ "\"\x7d\x7d\x7d\x7d"

def acme : Source := ⟨"acme", keyText "API_KEY_K", none, []⟩

def acmeKeys : Source := ⟨"acme API key", keyText "K", none, []⟩

/-- Both sources read `ACME_API_KEY_API_KEY_K`. -/
theorem variables_apart_iff_acme : ∃ r, compose [acme, acmeKeys] none none = .ok r ∧
    ((∀ s ∈ [acme, acmeKeys], ∀ s' ∈ [acme, acmeKeys], s ≠ s' → ∀ t t', r.Has s t → r.Has s' t' →
      ∀ v ∈ (prefixedTool s t).reads, v ∉ (prefixedTool s' t').reads) ↔
    ∀ s ∈ [acme, acmeKeys], ∀ s' ∈ [acme, acmeKeys], ∀ t t', r.Has s t → r.Has s' t' →
      ¬ Imitates s s' t t') := by
  obtain ⟨r, h⟩ : ∃ r, compose [acme, acmeKeys] none none = .ok r := exists_ok (by decide +kernel)
  exact ⟨r, h, variables_apart_iff h⟩

end ToolServer.Composition
