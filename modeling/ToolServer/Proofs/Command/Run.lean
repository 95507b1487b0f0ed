import ToolServer.Proofs.Command.Decision
import ToolServer.Proofs.Command.Delivery

/-!
# Runs on a file tree

A run that ends without a fault has delivered the files that the server gives, and one that a fault ends has changed
nothing before it writes: `run_delivers`. The writing of files is not undone, so a fault in it leaves those before it,
and may leave a beginning of its own.
-/

namespace ToolServer.Command

open Emit (Language project)

/-! ## Names of generated files -/

def fileNames : Language → List String
  | .python => ["pyproject.toml", "server.py", ".env.example", "Dockerfile", "README.md"]
  | .typescript => ["package.json", "tsconfig.json", "src/index.ts", "src/tools.ts", "src/http-client.ts",
      ".env.example", "Dockerfile", "README.md"]

theorem project_names {l : Language} {c : Config} {files : List Emit.File} (h : project l c = .ok files) :
    files.map (·.1) = fileNames l := by
  cases l with
  | python =>
    have h : Emit.Python.files c = .ok files := h
    unfold Emit.Python.files at h
    split at h
    · cases h
      rfl
    · cases h
  | typescript =>
    obtain ⟨manifest, -, h⟩ := bind_eq_ok_iff.mp h
    obtain ⟨options, -, h⟩ := bind_eq_ok_iff.mp h
    obtain ⟨tools, -, h⟩ := bind_eq_ok_iff.mp h
    cases h
    rfl

theorem apart_of_project {l : Language} {c : Config} {files : List Emit.File} (h : project l c = .ok files) :
    Apart files := by
  have hparts : files.map (fun file => (Path.ofText file.1).parts) =
      (fileNames l).map fun name => (Path.ofText name).parts := by
    rw [← project_names h, List.map_map]
    rfl
  refine ⟨?_, fun file hfile => ?_⟩
  · rw [hparts]
    cases l <;> decide +kernel
  · have hmem : (Path.ofText file.1).parts ∈ (fileNames l).map fun name => (Path.ofText name).parts :=
      hparts ▸ List.mem_map_of_mem hfile
    have hnone : ∀ parts ∈ (fileNames l).map fun name => (Path.ofText name).parts, ".." ∉ parts := by
      cases l <;> decide +kernel
    exact hnone _ hmem

theorem ne_nil_of_project {l : Language} {c : Config} {files : List Emit.File} (h : project l c = .ok files) :
    files ≠ [] := by
  rintro rfl
  have hnames := project_names h
  cases l <;> cases hnames

/-! ## Runs -/

/-- A fault ended a run while it wrote the files of a server. Those before it are delivered, and of the one at which
it came nothing or a beginning. -/
def Interrupted (d : Disk) (words : List String) (o : Outcome) : Prop :=
  ∃ verb g c job f written file rest left, Asks words verb g ∧ Makes d g verb c ∧ Emits g c job ∧
    o.ending = .crash (.disk f) ∧ job.files = written ++ file :: rest ∧ Remains file left ∧
    Delivered d o.disk job.output (written ++ left)

/-- What a run comes to is decided on the tree as it is, and then written. -/
theorem run_of_decided (d : Disk) (words : List String) :
    ((run d words).disk = d ∧ ((run d words).ending.code = 0 → ∀ verb g, Asks words verb g →
      verb = .generate ∨ verb = .compose → g.has .help = true)) ∨
    ∃ verb g c job, Asks words verb g ∧ Makes d g verb c ∧ Emits g c job ∧
      (((run d words).ending = .exit 0 ∧ Reached d (run d words).disk job.output job.files none) ∨
        ∃ f, (run d words).ending = .crash (.disk f) ∧ Reached d (run d words).disk job.output job.files (some f)) := by
  have h := decide_decided d words
  unfold run
  rcases hrun : (d.viewer.decide words).run [] with ⟨decision, events⟩
  rw [hrun] at h
  cases h with
  | ended h => exact .inl ⟨rfl, h⟩
  | @write verb g c job hasks hmakes hemits =>
    refine .inr ⟨verb, g, c, job, hasks, hmakes, hemits, ?_⟩
    obtain ⟨l, -, hfiles⟩ := hemits.files
    exact leaves_carryOut (hemits.output ▸ Path.plain_ofText _) rfl (ne_nil_of_project hfiles) (apart_of_project hfiles)
      ⟨d, events⟩

/-- **A run that generates files delivers all of them, or ends with a fault.** A fault before the writing changes
nothing. -/
theorem run_delivers (d : Disk) (words : List String) :
    ((run d words).ending.code ≠ 0 → (run d words).disk = d ∨ Interrupted d words (run d words)) ∧
    ∀ verb g, Asks words verb g → verb = .generate ∨ verb = .compose → (run d words).ending.code = 0 →
      (g.has .help = true ∧ (run d words).disk = d) ∨
      ∃ c job, Makes d g verb c ∧ Emits g c job ∧ Delivered d (run d words).disk job.output job.files := by
  rcases run_of_decided d words with ⟨hsame, hhelp⟩ | ⟨verb, g, c, job, hasks, hmakes, hemits, hend⟩
  · exact ⟨fun _ => .inl hsame, fun verb g hasks hverb hcode => .inl ⟨hhelp hcode verb g hasks hverb, hsame⟩⟩
  · rcases hend with ⟨hexit, hreached⟩ | ⟨f, hcrash, hreached⟩
    · refine ⟨fun hcode => ?_, fun verb' g' hasks' _ _ => .inr ?_⟩
      · rw [hexit] at hcode
        exact absurd rfl hcode
      · obtain ⟨rfl, rfl⟩ := hasks.unique hasks'
        cases hreached with
        | whole hdelivered => exact ⟨c, job, hmakes, hemits, hdelivered⟩
    · refine ⟨fun _ => .inr ?_, fun _ _ _ _ hcode => ?_⟩
      · cases hreached with
        | part hsplit hleft hdelivered =>
          exact ⟨verb, g, c, job, f, _, _, _, _, hasks, hmakes, hemits, hcrash, hsplit, hleft, hdelivered⟩
      · rw [hcrash] at hcode
        cases hcode

/-! ## A directory in the way -/

def bareDescription : String := "\x7b\"openapi\":\"3.\",\"paths\":\x7b\x7d\x7d"

def describedTree : Disk := .ofFiles [("s.json", bareDescription)]

/-- A tree in which a directory has the name of a file that is generated. -/
def blockedTree : Disk := .ofFiles [("s.json", bareDescription), ("o/server.py/x", "")]

def generateWords : List String := ["generate", "s.json", "-o", "o", "-l", "python"]

def generateGiven : Given := ⟨[(.output, "o"), (.language, "python")], ["s.json"]⟩

theorem asks_generateWords : Asks generateWords .generate generateGiven :=
  ⟨⟨[], generateWords⟩, "generate", generateWords.tail, rfl, rfl, rfl, rfl, rfl⟩

theorem code_blockedTree : (run blockedTree generateWords).ending.code ≠ 0 := by decide +kernel

theorem look_blockedTree : blockedTree.look "o/pyproject.toml" = .missing ∧
    (run blockedTree generateWords).disk.look "o/pyproject.toml" ≠ .missing := by decide +kernel

/-- One run is stopped by the directory, and the other writes all files. -/
theorem run_delivers_generate :
    ((run blockedTree generateWords).ending.code ≠ 0 ∧
      Interrupted blockedTree generateWords (run blockedTree generateWords)) ∧
    (run describedTree generateWords).ending.code = 0 ∧
      ∃ c job, Makes describedTree generateGiven .generate c ∧ Emits generateGiven c job ∧
        Delivered describedTree (run describedTree generateWords).disk job.output job.files := by
  have hcode : (run describedTree generateWords).ending.code = 0 := by decide +kernel
  refine ⟨⟨code_blockedTree, ?_⟩, hcode, ?_⟩
  · refine ((run_delivers blockedTree generateWords).1 code_blockedTree).resolve_left fun hsame => ?_
    obtain ⟨hbefore, hafter⟩ := look_blockedTree
    rw [hsame] at hafter
    exact hafter hbefore
  · have h := (run_delivers describedTree generateWords).2 _ _ asks_generateWords (.inl rfl) hcode
    exact h.resolve_left fun ⟨hhelp, _⟩ => absurd hhelp (by decide)

/-- A file that was written before the fault stays, and help ends without a fault and without files. -/
theorem run_blocked :
    (Asks generateWords .generate generateGiven ∧ (run blockedTree generateWords).ending.code ≠ 0 ∧
      blockedTree.look "o/pyproject.toml" = .missing ∧
      (run blockedTree generateWords).disk.look "o/pyproject.toml" ≠ .missing) ∧
    (Asks ["generate", "--help"] .generate ⟨[(.help, "")], []⟩ ∧
      (run blockedTree ["generate", "--help"]).ending.code = 0 ∧
      (run blockedTree ["generate", "--help"]).disk.files = blockedTree.files) :=
  ⟨⟨asks_generateWords, code_blockedTree, look_blockedTree⟩,
    ⟨⟨[], ["generate", "--help"]⟩, "generate", ["--help"], rfl, rfl, rfl, rfl, rfl⟩, by decide +kernel⟩

end ToolServer.Command
