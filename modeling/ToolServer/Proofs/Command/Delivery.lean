import ToolServer.Command.Run
import ToolServer.Proofs.Command.Place

/-!
# Delivery of files

The files of a job are written one after the other. Each step keeps the directories and changes no other file, so what
was written before it stays: `leaves_carryOut`. Where a step stops the writing, the files before it are delivered, and
of its own there may be a beginning.
-/

namespace ToolServer.Command

open Disk

/-! ## Delivered files -/

/-- The files stand below a directory with their contents, and all other files are as they were. -/
structure Delivered (d d' : Disk) (output : Path) (files : List Emit.File) : Prop where
  placed : ∀ file ∈ files, ∃ root, d'.place output.text = .ok root ∧
    d'.place (output.below file.1).text = .ok (root ++ (Path.ofText file.1).parts)
  present : ∀ file ∈ files, d'.look (output.below file.1).text = .file file.2
  others : ∀ place, (∀ file ∈ files, d'.place (output.below file.1).text ≠ .ok place) →
    Ordered.get? place d'.files = Ordered.get? place d.files

/-- Names of files that lead to places of their own, below the directory that they are read from. -/
structure Apart (files : List Emit.File) : Prop where
  nodup : (files.map fun file => (Path.ofText file.1).parts).Nodup
  below : ∀ file ∈ files, ".." ∉ (Path.ofText file.1).parts

theorem look_eq_file_iff {d : Disk} {path content : String} : d.look path = .file content ↔
    ∃ place, d.place path = .ok place ∧ Ordered.get? place d.files = some content := by
  unfold look
  cases h : d.place path with
  | error f => simp
  | ok place =>
    dsimp only
    unfold nodeAt
    cases hget : Ordered.get? place d.files with
    | some c => simp [hget]
    | none =>
      dsimp only
      split <;> simp [hget]

namespace Delivered

variable {d m d' : Disk} {output : Path} {files : List Emit.File} {file : Emit.File}

theorem of_files_eq (h : d'.files = d.files) : Delivered d d' output [] :=
  ⟨List.forall_mem_nil _, List.forall_mem_nil _, fun place _ => by rw [h]⟩

theorem of_keeps (h : Keeps d m) (h' : Delivered m d' output files) : Delivered d d' output files :=
  ⟨h'.placed, h'.present, fun place hplace => by rw [h'.others place hplace, h.files]⟩

theorem one (houtput : output.Plain) (hbelow : ".." ∉ (Path.ofText file.1).parts)
    {place : List String} (hplace : d.place (output.below file.1).text = .ok place) (hputs : Puts d d' place file.2) :
    Delivered d d' output [file] := by
  have hplace' : d'.place (output.below file.1).text = .ok place := hputs.grows.place hplace
  rw [place_below houtput] at hplace
  obtain ⟨root, hroot, hwalk⟩ := bind_eq_ok_iff.mp hplace
  have hfound : Ordered.get? place d'.files = some file.2 := by
    rw [hputs.files]
    exact Ordered.get?_put_self ..
  refine ⟨List.forall_mem_singleton.mpr ?_, List.forall_mem_singleton.mpr ?_, fun other hother => ?_⟩
  · exact ⟨root, hputs.grows.place hroot, walk_ofText hwalk hbelow ▸ hplace'⟩
  · exact look_eq_file_iff.mpr ⟨place, hplace', hfound⟩
  · have hne : other ≠ place := by
      rintro rfl
      exact hother file (List.mem_singleton_self file) hplace'
    rw [hputs.files, Ordered.get?_put_of_ne hne]

/-- What was delivered stays while other files are. -/
theorem cons (h : Delivered d m output [file]) (hgrows : Grows m d') (h' : Delivered m d' output files)
    (hapart : ∀ other ∈ files, (Path.ofText other.1).parts ≠ (Path.ofText file.1).parts) :
    Delivered d d' output (file :: files) := by
  obtain ⟨root, hroot, hplace⟩ := h.placed file (List.mem_singleton_self file)
  have hroot : d'.place output.text = .ok root := hgrows.place hroot
  have hplace : d'.place (output.below file.1).text = .ok (root ++ (Path.ofText file.1).parts) := hgrows.place hplace
  -- both places are below the same root, so files of other names leave this one alone
  have hfree : ∀ other ∈ files, d'.place (output.below other.1).text ≠ .ok (root ++ (Path.ofText file.1).parts) := by
    intro other hother hsame
    obtain ⟨root', hroot', hplace'⟩ := h'.placed other hother
    rw [hroot] at hroot'
    cases hroot'
    rw [hplace'] at hsame
    exact hapart other hother (List.append_cancel_left (Except.ok.inj hsame))
  refine ⟨List.forall_mem_cons.mpr ⟨⟨root, hroot, hplace⟩, h'.placed⟩,
    List.forall_mem_cons.mpr ⟨?_, h'.present⟩, fun place hothers => ?_⟩
  · obtain ⟨place, hfound, hget⟩ := look_eq_file_iff.mp (h.present file (List.mem_singleton_self file))
    have heq : place = root ++ (Path.ofText file.1).parts :=
      Except.ok.inj ((hgrows.place hfound).symm.trans hplace)
    rw [look_eq_file_iff]
    exact ⟨_, hplace, by rw [h'.others _ hfree, ← heq, hget]⟩
  · obtain ⟨hfile, hfiles⟩ := List.forall_mem_cons.mp hothers
    rw [h'.others place hfiles]
    exact h.others place (List.forall_mem_singleton.mpr fun hm => hfile (hgrows.place hm))

end Delivered

/-! ## Steps on a file tree -/

/-- What holds of the answer of a step, and of the world that it leaves. -/
def Leaves {α : Type} (w : World) (x : StateM World α) (Q : α → World → Prop) : Prop := Q (x.run w).1 (x.run w).2

namespace Leaves

variable {α β : Type} {w : World} {x : StateM World α} {f : α → StateM World β}

theorem bind {P : α → World → Prop} {Q : β → World → Prop} (hx : Leaves w x P)
    (hf : ∀ a v, P a v → Leaves v (f a) Q) : Leaves w (x >>= f) Q := hf _ _ hx

theorem mono {P Q : α → World → Prop} (hx : Leaves w x P) (h : ∀ a v, P a v → Q a v) : Leaves w x Q := h _ _ hx

end Leaves

/-- A step on the tree gives its fault, if any, and the tree that it leaves. -/
theorem leaves_keep (step : Disk → Option DiskFault × Disk) (w : World) :
    Leaves w (keep step) fun r v => step w.disk = (r, v.disk) := rfl

/-! ## Directories -/

section
variable (w : World) (path : String)

theorem leaves_makeFolder : Leaves w (Disk.writer.makeFolder path) fun _ v => Keeps w.disk v.disk := by
  refine (leaves_keep (·.makeFolder path) w).mono fun r v h => ?_
  have hkeeps := makeFolder_keeps w.disk path
  rwa [h] at hkeeps

theorem leaves_unlessFolder (f : DiskFault) : Leaves w (Disk.writer.unlessFolder path f) fun _ v => Keeps w.disk v.disk := by
  refine Leaves.bind (P := fun _ v => v = w) rfl fun node v hv => ?_
  subst hv
  cases node <;> exact .refl _

theorem leaves_makeLast : Leaves w (Disk.writer.makeLast path) fun _ v => Keeps w.disk v.disk := by
  refine (leaves_makeFolder w path).bind fun r v hv => ?_
  split
  · exact hv
  · exact hv
  · exact (leaves_unlessFolder v path _).mono fun _ _ => hv.trans

theorem leaves_makeFolders : ∀ (levels : Nat) (p : Path) (w : World),
    Leaves w (Disk.writer.makeFolders levels p) fun _ v => Keeps w.disk v.disk
  | 0, p, w => leaves_makeLast w p.text
  | levels + 1, p, w => by
    refine (leaves_makeFolder w p.text).bind fun r v hv => ?_
    split
    · exact hv
    · split
      · exact hv
      · refine (leaves_makeFolders levels p.parent v).bind fun r u hu => ?_
        split
        · exact (leaves_makeLast u p.text).mono fun _ _ h => hv.trans (hu.trans h)
        · exact hv.trans hu
    · exact (leaves_unlessFolder v p.text _).mono fun _ _ => hv.trans

end

/-! ## Files -/

/-- What is left of a file whose writing was stopped: nothing, or a beginning. -/
inductive Remains (file : Emit.File) : List Emit.File → Prop
  | nothing : Remains file []
  | beginning {text : String} : text.toList <+: file.2.toList → Remains file [(file.1, text)]

theorem Remains.name {file left : Emit.File} {files : List Emit.File} (h : Remains file files) (hleft : left ∈ files) :
    left.1 = file.1 := by
  cases h with
  | nothing => cases hleft
  | beginning _ =>
    obtain rfl := List.mem_singleton.mp hleft
    rfl

section
variable {output : Path} (houtput : output.Plain)
include houtput

theorem leaves_writeFile {file : Emit.File} (hbelow : ".." ∉ (Path.ofText file.1).parts) (w : World) :
    Leaves w (Disk.writer.writeFile output file) fun r v => Grows w.disk v.disk ∧
      ((r = none ∧ Delivered w.disk v.disk output [file]) ∨
        ∃ f left, r = some f ∧ Remains file left ∧ Delivered w.disk v.disk output left) := by
  refine (leaves_makeFolders _ _ w).bind fun r u hu => ?_
  split
  · exact ⟨hu.grows, .inr ⟨_, [], rfl, .nothing, .of_files_eq hu.files⟩⟩
  · refine (leaves_keep (·.write (output.below file.1).text file.2) u).bind fun r v hv => ?_
    have hwritten := write_written u.disk (output.below file.1).text file.2
    rw [hv] at hwritten
    generalize hdisk : v.disk = d at hwritten
    cases hwritten with
    | whole hplace hputs =>
      exact ⟨hu.grows.trans (hdisk ▸ hputs.grows), .inl ⟨rfl, hdisk ▸ .of_keeps hu (.one houtput hbelow hplace hputs)⟩⟩
    | beginning hplace htext hputs =>
      exact ⟨hu.grows.trans (hdisk ▸ hputs.grows),
        .inr ⟨_, _, rfl, .beginning htext, hdisk ▸ .of_keeps hu (.one houtput hbelow hplace hputs)⟩⟩
    | nothing => exact ⟨hdisk ▸ hu.grows, .inr ⟨_, [], rfl, .nothing, hdisk ▸ .of_files_eq hu.files⟩⟩

/-- How far the writing of files has come when it ends, without a fault or with one. -/
inductive Reached (d d' : Disk) (output : Path) (files : List Emit.File) : Option DiskFault → Prop
  | whole : Delivered d d' output files → Reached d d' output files none
  | part {f written file rest left} : files = written ++ file :: rest → Remains file left →
      Delivered d d' output (written ++ left) → Reached d d' output files (some f)

theorem leaves_writeFiles : ∀ {files : List Emit.File}, Apart files → ∀ w : World,
    Leaves w (Disk.writer.writeFiles output files) fun r v => Grows w.disk v.disk ∧ Reached w.disk v.disk output files r
  | [], _, w => ⟨.refl _, .whole (.of_files_eq rfl)⟩
  | file :: files, hapart, w => by
    obtain ⟨hnodup, hbelow⟩ := hapart
    obtain ⟨hfresh, hnodup⟩ := List.nodup_cons.mp hnodup
    obtain ⟨hfile, hfiles⟩ := List.forall_mem_cons.mp hbelow
    have hother : ∀ other ∈ files, (Path.ofText other.1).parts ≠ (Path.ofText file.1).parts :=
      fun other hmem heq => hfresh (List.mem_map.mpr ⟨other, hmem, heq⟩)
    refine (leaves_writeFile houtput hfile w).bind fun r u hu => ?_
    obtain ⟨hgrows, ⟨rfl, hone⟩ | ⟨f, left, rfl, hleft, hone⟩⟩ := hu
    · refine (leaves_writeFiles ⟨hnodup, hfiles⟩ u).mono fun r v hv => ⟨hgrows.trans hv.1, ?_⟩
      cases hv.2 with
      | whole h => exact .whole (hone.cons hv.1 h hother)
      | @part _ written stopped rest left hsplit hleft h =>
        obtain ⟨hwritten, hstopped⟩ := List.forall_mem_append.mp (hsplit ▸ hother)
        have hsplit : file :: files = (file :: written) ++ stopped :: rest := congrArg (file :: ·) hsplit
        refine .part hsplit hleft (hone.cons hv.1 h (List.forall_mem_append.mpr ⟨hwritten, fun other hmem => ?_⟩))
        rw [hleft.name hmem]
        exact hstopped stopped (List.mem_cons_self ..)
    · exact ⟨hgrows, .part (List.nil_append _).symm hleft hone⟩

/-- **Writing ends well with all files delivered, or at a fault with those before it.** Of the file at which it ends
there may be a beginning. -/
theorem leaves_carryOut {job : Writing} (hjob : job.output = output) (hne : job.files ≠ []) (hapart : Apart job.files)
    (w : World) : Leaves w (Disk.writer.carryOut job) fun e v =>
      (e = .exit 0 ∧ Reached w.disk v.disk output job.files none) ∨
      ∃ f, e = .crash (.disk f) ∧ Reached w.disk v.disk output job.files (some f) := by
  obtain ⟨file, files, hfiles⟩ := List.exists_cons_of_ne_nil hne
  refine (leaves_makeFolders _ _ w).bind fun made u hu => ?_
  cases made with
  | some f => exact .inr ⟨f, rfl, .part (hfiles.trans (List.nil_append _).symm) .nothing (.of_files_eq hu.files)⟩
  | none =>
    subst hjob
    refine (leaves_writeFiles houtput hapart u).bind fun r v hv => ?_
    cases hv.2 with
    | whole h => exact .inl ⟨rfl, .whole (.of_keeps hu h)⟩
    | part hsplit hleft h => exact .inr ⟨_, rfl, .part hsplit hleft (.of_keeps hu h)⟩

end

end ToolServer.Command
