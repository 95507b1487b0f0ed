import ToolServer.Emit.Python
import ToolServer.Emit.TypeScript
import ToolServer.Proofs.Naming.Prefix
import ToolServer.Proofs.Text.Piece
import ToolServer.Proofs.Text.Run
import ToolServer.Proofs.Tool.Insertion

/-!
# Server names

A server is named by the words of its title, which are joined by hyphens and then cut to 50 characters. Joined words
have a hyphen at no end, but where the cut falls behind a hyphen the name has one: `serverName_slug_iff` says what
holds of every name, and what holds just where the cut falls elsewhere.
-/

namespace ToolServer.Naming

open Text Emit

/-! ## Words of titles -/

/-- The words of a title: the runs of letters and digits in its small form. -/
def titleWords (title : String) : List (List Char) := runs isSlugChar (lower title).toList

def joinedWords (title : String) : List Char := joinWith '-' (titleWords title)

/-- The first 50 characters of the joined words end with a hyphen. -/
def CutAtHyphen (title : String) : Prop := (joinedWords title)[49]? = some '-'

instance (title : String) : Decidable (CutAtHyphen title) := inferInstanceAs (Decidable (_ = _))

theorem isRun_of_mem_titleWords {title : String} : ∀ w ∈ titleWords title, IsRun isSlugChar w :=
  fun _ => isRun_of_mem_runs

theorem serverName_eq (title : String) : serverName title =
    if (joinedWords title).take 50 = [] then "api-server" else String.ofList ((joinedWords title).take 50) := by
  have hslug : slug '-' title = joinedWords title := stripWhile_collapse (by decide) (lower title).toList
  unfold serverName
  rw [hslug]
  simp [maxServerName]

/-! ## Slugs -/

structure BeginsSlug (name : String) : Prop where
  nonempty : name ≠ ""
  short : name.toList.length ≤ 50
  chars : ∀ c ∈ name.toList, isSlugChar c = true ∨ c = '-'
  first : name.toList.head? ≠ some '-'
  apart : ¬ ['-', '-'] <:+: name.toList

/-- At most 50 small letters, digits and hyphens, with no hyphen at an end or behind another one. -/
structure IsSlug (name : String) : Prop extends BeginsSlug name where
  last : name.toList.getLast? ≠ some '-'

theorem isRun_default : ∀ w ∈ ["api".toList, "server".toList], IsRun isSlugChar w := by
  simp only [List.forall_mem_cons]
  refine ⟨⟨by simp, ?_⟩, ⟨by simp, ?_⟩, List.forall_mem_nil _⟩
  · simp [isSlugChar, isAsciiLower]
  · simp [isSlugChar, isAsciiLower]

theorem isSlug_default : IsSlug "api-server" where
  nonempty := by decide
  short := by decide
  chars := by simp [isSlugChar, isAsciiLower]
  first := by simp
  apart := marks_apart (by decide) isRun_default List.prefix_rfl
  last := by simp

theorem beginsSlug_serverName (title : String) : BeginsSlug (serverName title) := by
  rw [serverName_eq]
  by_cases hempty : (joinedWords title).take 50 = []
  · rw [if_pos hempty]
    exact isSlug_default.toBeginsSlug
  · rw [if_neg hempty]
    have hcut : (joinedWords title).take 50 <+: joinedWords title := List.take_prefix 50 _
    refine ⟨by simpa using hempty, by simp, ?_, ?_, ?_⟩
    · intro c hc
      rw [String.toList_ofList] at hc
      rcases mem_joinWith (hcut.mem hc) with hc | ⟨w, hw, hc⟩
      · exact .inr hc
      · exact .inl ((isRun_of_mem_titleWords w hw).keep c hc)
    · rw [String.toList_ofList, List.head?_take, if_neg (by decide)]
      exact head?_joinWith (by decide) isRun_of_mem_titleWords
    · rw [String.toList_ofList]
      exact marks_apart (by decide) isRun_of_mem_titleWords hcut

theorem last_serverName_iff (title : String) :
    (serverName title).toList.getLast? = some '-' ↔ CutAtHyphen title := by
  have hlast : (joinedWords title).getLast? ≠ some '-' := getLast?_joinWith (by decide) isRun_of_mem_titleWords
  rw [serverName_eq, CutAtHyphen]
  by_cases hempty : (joinedWords title).take 50 = []
  · have hnil : joinedWords title = [] := by simpa using hempty
    simp [hnil]
  · rw [if_neg hempty, String.toList_ofList, List.getLast?_take]
    cases hcut : (joinedWords title)[49]? with
    | some c => simp
    | none => simpa [hcut] using hlast

theorem isSlug_serverName_iff (title : String) : IsSlug (serverName title) ↔ ¬ CutAtHyphen title := by
  rw [← last_serverName_iff]
  exact ⟨IsSlug.last, fun h => ⟨beginsSlug_serverName title, h⟩⟩

/-! ## Names of names -/

theorem small_of_slugChar {c : Char} (h : isSlugChar c = true ∨ c = '-') : c.toNat < 0x80 ∧ small c = c := by
  have hrange : 97 ≤ c.toNat ∧ c.toNat ≤ 122 ∨ 48 ≤ c.toNat ∧ c.toNat ≤ 57 ∨ c.toNat = 45 := by
    rcases h with h | rfl
    · simp only [isSlugChar, Bool.or_eq_true, isAsciiLower_iff, isAsciiDigit_iff] at h
      omega
    · decide
  have hupper : ¬ isAsciiUpper c = true := fun hu => by
    have := isAsciiUpper_iff.mp hu
    omega
  exact ⟨by omega, if_neg hupper⟩

theorem lower_of_chars {name : String} (h : ∀ c ∈ name.toList, isSlugChar c = true ∨ c = '-') : lower name = name := by
  rw [← String.toList_inj, lower, String.toList_ofList,
    lowerAfter_ascii [] _ fun c hc => (small_of_slugChar (h c hc)).1]
  exact (List.map_congr_left fun c hc => (small_of_slugChar (h c hc)).2).trans (List.map_id _)

/-- A text that begins as a slug is its own name unless a hyphen ends it. -/
theorem serverName_eq_self_iff {name : String} (h : BeginsSlug name) :
    serverName name = name ↔ name.toList.getLast? ≠ some '-' := by
  have hjoined : name.toList = joinedWords name ∨ name.toList = joinedWords name ++ ['-'] := by
    unfold joinedWords titleWords
    rw [lower_of_chars h.chars]
    exact eq_joinWith_runs (by decide) h.chars h.first h.apart
  constructor
  · intro hself hlast
    have hcut : CutAtHyphen name := (last_serverName_iff name).mp (by rw [hself, hlast])
    rcases hjoined with hjoined | hjoined
    · exact getLast?_joinWith (by decide) isRun_of_mem_titleWords (hjoined ▸ hlast)
    · obtain ⟨hlong, -⟩ := List.getElem?_eq_some_iff.mp hcut
      have hshort := h.short
      rw [hjoined, List.length_append, List.length_singleton] at hshort
      omega
  · intro hlast
    have hname : (joinedWords name).take 50 = name.toList := by
      rcases hjoined with hjoined | hjoined
      · rw [← hjoined, List.take_of_length_le h.short]
      · exact absurd (by rw [hjoined, List.getLast?_concat]) hlast
    rw [serverName_eq, hname, if_neg (by simpa using h.nonempty), String.ofList_toList]

/-! ## Distribution -/

/-- The manifests of both projects give a server this name. -/
structure DistributedAs (c : Config) (name : String) : Prop where
  python : ∃ before after, Python.manifest c = joinLines (before ++ ["[project]", "name = \"" ++ name ++ "\""] ++ after)
  typeScript : ∃ rest, TypeScript.manifest c = .map (TypeScript.member "name" (.text name) :: rest)

theorem distributedAs (c : Config) : DistributedAs c ("mcp-" ++ c.name) where
  python := by
    have hline : "name = \"mcp-" ++ c.name = "name = \"" ++ ("mcp-" ++ c.name) := by
      rw [← String.append_assoc]
      rfl
    unfold Python.manifest
    rw [hline]
    exact ⟨["[build-system]", "requires = [\"setuptools>=61\"]", "build-backend = \"setuptools.build_meta\"", ""],
      _, rfl⟩
  typeScript := ⟨_, rfl⟩

def EndsInWord (name : String) : Prop := ∃ c, name.toList.getLast? = some c ∧ isSlugChar c = true

theorem endsInWord_append_iff {name : String} (h : BeginsSlug name) (start : String) :
    EndsInWord (start ++ name) ↔ name.toList.getLast? ≠ some '-' := by
  have hne : name.toList ≠ [] := by simpa using h.nonempty
  have hlast : (start ++ name).toList.getLast? = some (name.toList.getLast hne) := by
    rw [String.toList_append, List.getLast?_append_of_ne_nil _ hne, List.getLast?_eq_some_getLast hne]
  rw [EndsInWord, hlast, List.getLast?_eq_some_getLast hne]
  constructor
  · rintro ⟨c, hc, hword⟩ hmark
    rw [hc, Option.some_inj] at hmark
    rw [hmark] at hword
    exact absurd hword (by decide)
  · intro hmark
    exact ⟨_, rfl, (h.chars _ (List.getLast_mem hne)).resolve_right fun e => hmark (by rw [e])⟩

/-- **A title's name begins as a slug, and is one just when the cut falls behind no hyphen.** Just then the name is its
own name, and what a server of that title is distributed as ends in a letter or a digit. -/
theorem serverName_slug_iff (title : String) : BeginsSlug (serverName title) ∧
    (IsSlug (serverName title) ↔ ¬ CutAtHyphen title) ∧
    (serverName (serverName title) = serverName title ↔ ¬ CutAtHyphen title) ∧
    ∀ d c, d.title = title → Config.ofDescription d = .ok c →
      DistributedAs c ("mcp-" ++ serverName title) ∧
      (EndsInWord ("mcp-" ++ serverName title) ↔ ¬ CutAtHyphen title) := by
  have hbegins := beginsSlug_serverName title
  have hlast : (serverName title).toList.getLast? ≠ some '-' ↔ ¬ CutAtHyphen title :=
    not_congr (last_serverName_iff title)
  refine ⟨hbegins, isSlug_serverName_iff title, (serverName_eq_self_iff hbegins).trans hlast, ?_⟩
  rintro d c rfl hc
  have hname : c.name = serverName d.title := by
    obtain ⟨tools, -, rfl⟩ := ofDescription_ok_iff.mp hc
    simp only [Api.Description.server]
  refine ⟨?_, (endsInWord_append_iff hbegins "mcp-").trans hlast⟩
  rw [← hname]
  exact distributedAs c

def longTitle : String := String.ofList (List.replicate 49 'a') ++ " b"

def longDescription : Api.Description where
  title := longTitle
  description := ""
  version := "1"
  baseUrl := "https://pets.example"
  servers := []
  endpoints := []
  schemes := []
  schemas := []

theorem serverName_slug_iff_long : ∃ c, Config.ofDescription longDescription = .ok c ∧
    DistributedAs c ("mcp-" ++ (String.ofList (List.replicate 49 'a') ++ "-")) ∧
    ¬ IsSlug (serverName longTitle) ∧ serverName (serverName longTitle) ≠ serverName longTitle ∧
    ¬ EndsInWord ("mcp-" ++ serverName longTitle) := by
  have hc : Config.ofDescription longDescription = .ok (longDescription.server []) :=
    ofDescription_ok_iff.mpr ⟨[], rfl, rfl⟩
  have hname : serverName longTitle = String.ofList (List.replicate 49 'a') ++ "-" := by decide +kernel
  have hcut : CutAtHyphen longTitle := by decide +kernel
  obtain ⟨-, hslug, hself, hserved⟩ := serverName_slug_iff longTitle
  obtain ⟨hdistributed, hends⟩ := hserved longDescription _ rfl hc
  exact ⟨_, hc, hname ▸ hdistributed, fun h => hslug.mp h hcut, fun h => hself.mp h hcut, fun h => hends.mp h hcut⟩

end ToolServer.Naming
