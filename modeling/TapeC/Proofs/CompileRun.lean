import TapeC.Proofs.Build

/-!
The temporary file of a compile run.

A run that finds its compiler and can create its temporary file goes on to write the C
text to it, and to start the compiler if all of it was taken.  Whatever becomes of that,
and whatever the compiler does, there are three trees it can leave (`Ready.tree_run`):
the one with the temporary file in it, that tree with the output written, and the tree
from before if the compiler removes its source.  In the first two the file is found
again by its name and can be removed.
-/

namespace TapeC

namespace Workspace

theorem started_discard (home : Path) (source : Text) (o : Outcome) :
    (discard home source o).started = o.started := by
  unfold discard
  split
  · rfl
  · rfl

theorem tree_discard (home : Path) (source : Text) (o : Outcome) :
    (discard home source o).tree = match o.tree.find home source with
      | .ok p => o.tree.erase p
      | .error _ => o.tree := by
  unfold discard FileTree.removeFile
  cases o.tree.find home source with
  | ok p => rfl
  | error e => rfl

end Workspace

/-! ## Compile runs -/

/-- A compile run that is asked for. -/
structure Compilation where
  code : Text
  out : Text
  options : CompileOptions
  canceled : Bool

namespace Compilation

open Workspace

def outcome (c : Compilation) (w : Workspace) : Outcome :=
  w.compile c.canceled c.code c.out c.options

/-- The compiler is there, and a temporary file was created. -/
structure Ready (c : Compilation) (w : Workspace) (compiler : Executable)
    (source : TempFile.Created) : Prop where
  lookup : w.lookup c.options.compilerName = .ok compiler
  create : TempFile.create w.seed w.tree w.home (w.sourceDir c.options) = .ok source

theorem ready_or_refused (c : Compilation) (w : Workspace) :
    (∃ compiler source, c.Ready w compiler source) ∨
      (c.outcome w).tree = w.tree ∧ (c.outcome w).started = false := by
  cases hlookup : w.lookup c.options.compilerName with
  | error fault =>
    right
    simp only [outcome, compile, hlookup]
    exact ⟨rfl, rfl⟩
  | ok compiler =>
    cases hcreate : TempFile.create w.seed w.tree w.home (w.sourceDir c.options) with
    | error e =>
      right
      rw [outcome, compile_of_create_error hlookup hcreate]
      exact ⟨rfl, rfl⟩
    | ok source => exact Or.inl ⟨compiler, source, hlookup, hcreate⟩

/-- What is in the temporary file once it was written. -/
def written (c : Compilation) (w : Workspace) (source : TempFile.Created) : Text :=
  w.tree.taken source.path c.code

/-- The workspace with the temporary file in place. -/
def placed (c : Compilation) (w : Workspace) (source : TempFile.Created) : Workspace :=
  { w with tree := w.tree.set source.path (.file (c.written w source)) }

def args (c : Compilation) (source : TempFile.Created) : List Text :=
  Tool.arguments source.name c.out c.options.extra

/-- What the compiler does with the temporary file in place, as far as its limit lets
it. -/
def run (c : Compilation) (w : Workspace) (compiler : Executable)
    (source : TempFile.Created) : Tool.Run :=
  compiler.tool.runUntil (w.expiry c.options compiler.tool (c.args source)) (c.placed w source)
    (c.args source)

/-- What is left when the compiler is done and the temporary file not yet removed. -/
def ran (c : Compilation) (w : Workspace) (compiler : Executable)
    (source : TempFile.Created) : Outcome :=
  w.runOn c.canceled c.options compiler source c.code c.out

/-- The compiler was started, and it has removed its source. -/
def Removes (c : Compilation) (w : Workspace) (compiler : Executable)
    (source : TempFile.Created) : Prop :=
  (c.outcome w).started = true ∧
    (c.run w compiler source).tree.find w.home source.name = .error .notFound

variable {c : Compilation} {w : Workspace} {compiler : Executable} {source : TempFile.Created}

namespace Ready

theorem isNewIn (h : c.Ready w compiler source) : source.IsNewIn w.tree w.home :=
  TempFile.isNewIn_of_create h.create

theorem outcome_eq (h : c.Ready w compiler source) :
    c.outcome w = if c.options.keepTemp then c.ran w compiler source
      else discard w.home source.name (c.ran w compiler source) :=
  compile_of_create h.lookup h.create c.canceled c.out

theorem started_eq (h : c.Ready w compiler source) :
    (c.outcome w).started = (c.ran w compiler source).started := by
  rw [h.outcome_eq]
  split
  · rfl
  · exact started_discard _ _ _

theorem ran_of_written (h : c.Ready w compiler source) (hwritten : c.written w source = c.code) :
    c.ran w compiler source =
      (c.placed w source).invoke c.canceled c.options compiler (c.args source) := by
  rw [ran, runOn_of_taken h.isNewIn hwritten, placed, hwritten]
  rfl

theorem ran_of_not_written (h : c.Ready w compiler source)
    (hwritten : c.written w source ≠ c.code) :
    c.ran w compiler source = .refused (c.placed w source).tree
      ⟨[Text.ascii "write temp file"], .file ⟨.writing, source.name, .noSpace⟩⟩ :=
  runOn_of_not_taken h.isNewIn hwritten _ _ _ _

/-- A compiler that was started had all of the C text before it. -/
theorem written_of_started (h : c.Ready w compiler source)
    (hstarted : (c.outcome w).started = true) : c.written w source = c.code := by
  by_contra hwritten
  rw [h.started_eq, h.ran_of_not_written hwritten] at hstarted
  cases hstarted

theorem tree_ran (h : c.Ready w compiler source) :
    (c.ran w compiler source).tree =
      if (c.ran w compiler source).started then (c.run w compiler source).tree
      else (c.placed w source).tree := by
  by_cases hwritten : c.written w source = c.code
  · rw [h.ran_of_written hwritten]
    rcases (c.placed w source).invoke_cases c.canceled c.options compiler (c.args source) rfl with
      ⟨f, hrefused⟩ | ⟨f, hran, _⟩
    · rw [hrefused]
      rfl
    · rw [hran]
      rfl
  · rw [h.ran_of_not_written hwritten]
    rfl

theorem ne_of_not_isPath (h : c.Ready w compiler source) {q : Path}
    (hq : TempFile.isPath q = false) : q ≠ source.path := by
  rintro rfl
  rw [h.isNewIn.isPath] at hq
  cases hq

theorem sameDirectories_placed (h : c.Ready w compiler source) :
    FileTree.SameDirectories w.tree (c.placed w source).tree :=
  FileTree.sameDirectories_set (FileTree.not_isDirectory_of_target h.isNewIn.target) rfl

theorem find_placed (h : c.Ready w compiler source) :
    (c.placed w source).tree.find w.home source.name = .ok source.path := by
  refine FileTree.find_of_target h.sameDirectories_placed h.isNewIn.target ?_
  show ((w.tree.set source.path _).get? source.path).isSome
  rw [FileTree.get?_set_self _ h.isNewIn.ne_nil]
  rfl

theorem find_absent (h : c.Ready w compiler source) :
    w.tree.find w.home source.name = .error .notFound :=
  FileTree.find_of_target_absent h.isNewIn.target (h.isNewIn.isNew.get? h.isNewIn.ne_nil)

/-- The trees that a compiler can leave: the one it was given, that with the output
written, which is no temporary file, and the one from before its source was there. -/
theorem tree_run (h : c.Ready w compiler source)
    (hout : TempFile.isPath (FileTree.parts c.out) = false) :
    (c.run w compiler source).tree = (c.placed w source).tree ∨
    (∃ q content, TempFile.isPath q = false ∧ (c.placed w source).tree.isDirectory q = false ∧
      (c.run w compiler source).tree = (c.placed w source).tree.write q content) ∨
    (c.run w compiler source).tree = w.tree := by
  rcases compiler.tool.tree_runUntil (w.expiry c.options compiler.tool (c.args source))
    (c.placed w source) (c.args source) with hdone | hnothing
  · rcases compiler.tool.tree_run_cases (c.placed w source) source.name c.out c.options.extra with
      hsame | ⟨q, content, hq, hwrite⟩ | ⟨p, hp, herase⟩
    · exact Or.inl (hdone.trans hsame)
    · refine Or.inr (Or.inl ⟨q, content, ?_, FileTree.not_isDirectory_of_target hq,
        hdone.trans hwrite⟩)
      rw [TempFile.isPath, FileTree.getLast?_of_target hq]
      exact hout
    · obtain rfl : p = source.path := Except.ok.inj (hp.symm.trans h.find_placed)
      exact Or.inr (Or.inr (hdone.trans (herase.trans
        (FileTree.erase_set_of_fresh _ _ h.isNewIn.isNew))))
  · exact Or.inl hnothing

/-- A run that has not removed its source can still find it. -/
theorem tree_run_of_find (h : c.Ready w compiler source)
    (hout : TempFile.isPath (FileTree.parts c.out) = false) :
    (c.run w compiler source).tree = w.tree ∨
      TempFile.files (c.run w compiler source).tree =
          TempFile.files w.tree ++ [(source.path, c.written w source)] ∧
        (c.run w compiler source).tree.find w.home source.name = .ok source.path := by
  have hplaced := TempFile.files_set_of_isNew h.isNewIn.isNew h.isNewIn.isPath (c.written w source)
  rcases h.tree_run hout with hsame | ⟨q, content, hq, hfile, hwrite⟩ | hgone
  · rw [hsame]
    exact Or.inr ⟨hplaced, h.find_placed⟩
  · rw [hwrite, TempFile.files_write_of_not_isPath hq]
    exact Or.inr ⟨hplaced,
      FileTree.find_write_set h.isNewIn.target rfl hfile (h.ne_of_not_isPath hq) content⟩
  · exact Or.inl hgone

theorem tree_ran_of_removes (h : c.Ready w compiler source)
    (hout : TempFile.isPath (FileTree.parts c.out) = false)
    (hremoves : c.Removes w compiler source) : (c.ran w compiler source).tree = w.tree := by
  rw [h.tree_ran, if_pos (h.started_eq.symm.trans hremoves.1)]
  refine (h.tree_run_of_find hout).resolve_right fun hfound => ?_
  rw [hremoves.2] at hfound
  cases hfound.2

theorem files_ran (h : c.Ready w compiler source)
    (hout : TempFile.isPath (FileTree.parts c.out) = false)
    (hremoves : ¬ c.Removes w compiler source) :
    TempFile.files (c.ran w compiler source).tree =
        TempFile.files w.tree ++ [(source.path, c.written w source)] ∧
      (c.ran w compiler source).tree.find w.home source.name = .ok source.path := by
  rw [h.tree_ran]
  split
  · next hstarted =>
    refine (h.tree_run_of_find hout).resolve_left fun hgone => hremoves ⟨?_, ?_⟩
    · exact h.started_eq.trans hstarted
    · rw [hgone]
      exact h.find_absent
  · exact ⟨TempFile.files_set_of_isNew h.isNewIn.isNew h.isNewIn.isPath _, h.find_placed⟩

/-- Removing the temporary file at the end gives the old temporary files back.  If the
compiler has removed it there is nothing left to remove. -/
theorem discard_ran (h : c.Ready w compiler source)
    (hout : TempFile.isPath (FileTree.parts c.out) = false) :
    TempFile.files (discard w.home source.name (c.ran w compiler source)).tree =
        TempFile.files w.tree ∧
      ∀ q, TempFile.isPath q = false →
        (discard w.home source.name (c.ran w compiler source)).tree.get? q =
          (c.ran w compiler source).tree.get? q := by
  rw [tree_discard]
  by_cases hremoves : c.Removes w compiler source
  · rw [h.tree_ran_of_removes hout hremoves, h.find_absent]
    exact ⟨rfl, fun _ _ => rfl⟩
  · obtain ⟨hfiles, hfind⟩ := h.files_ran hout hremoves
    rw [hfind]
    refine ⟨?_, fun q hq => FileTree.get?_erase_ne _ (h.ne_of_not_isPath hq)⟩
    show TempFile.files ((c.ran w compiler source).tree.erase source.path) = TempFile.files w.tree
    rw [TempFile.files_erase, hfiles, TempFile.filter_files_append h.isNewIn.isNew]

end Ready

/-! ## Temporary files before and after -/

theorem files_outcome (c : Compilation) (w : Workspace)
    (hout : TempFile.isPath (FileTree.parts c.out) = false) (hkeep : c.options.keepTemp = false) :
    TempFile.files (c.outcome w).tree = TempFile.files w.tree := by
  rcases c.ready_or_refused w with ⟨compiler, source, h⟩ | ⟨htree, _⟩
  · rw [h.outcome_eq, hkeep]
    exact (h.discard_ran hout).1
  · rw [htree]

theorem files_outcome_of_kept (h : c.Ready w compiler source)
    (hout : TempFile.isPath (FileTree.parts c.out) = false) (hkeep : c.options.keepTemp = true)
    (hremoves : ¬ c.Removes w compiler source) :
    TempFile.files (c.outcome w).tree =
      TempFile.files w.tree ++ [(source.path, c.written w source)] := by
  rw [h.outcome_eq, hkeep]
  exact (h.files_ran hout hremoves).1

theorem files_outcome_of_removed (h : c.Ready w compiler source)
    (hout : TempFile.isPath (FileTree.parts c.out) = false) (hkeep : c.options.keepTemp = true)
    (hremoves : c.Removes w compiler source) :
    TempFile.files (c.outcome w).tree = TempFile.files w.tree := by
  rw [h.outcome_eq, hkeep]
  show TempFile.files (c.ran w compiler source).tree = TempFile.files w.tree
  rw [h.tree_ran_of_removes hout hremoves]

/-- Any other file is as the compiler left it. -/
theorem get?_outcome (h : c.Ready w compiler source)
    (hout : TempFile.isPath (FileTree.parts c.out) = false) {q : Path}
    (hq : TempFile.isPath q = false) :
    (c.outcome w).tree.get? q = if (c.outcome w).started then
        (c.run w compiler source).tree.get? q
      else w.tree.get? q := by
  have hran : (c.outcome w).tree.get? q = (c.ran w compiler source).tree.get? q := by
    rw [h.outcome_eq]
    split
    · rfl
    · exact (h.discard_ran hout).2 q hq
  rw [hran, h.tree_ran, h.started_eq]
  split
  · rfl
  · exact FileTree.get?_set_ne _ (h.ne_of_not_isPath hq) _

end Compilation
end TapeC
