import TapeC.Proofs.CompileRun
import TapeC.Proofs.Delivery
import TapeC.Session

/-!
Temporary files over whole sessions.

A step of a session comes down to at most one compile run (`Workspace.compilation?`), and
a step without one changes at most the file in which it stores a C text.  What a
compile run does to the temporary files is therefore what a step does, and by
induction what a session does: a step that is not asked to keep its temporary file
leaves them as they were, and one that is asked adds its own at the end.  If the device
could not take all of the C text, the file that is kept holds only a beginning of it.
-/

namespace TapeC

/-! ## Steps -/

namespace Step

/-- Whether a step changes files by hand. -/
def isByHand : Step → Bool
  | write _ _ | makeDirectory _ | remove _ => true
  | _ => false

/-- The name of the output that a step is given; it is empty if there is none. -/
def output : Step → Text
  | compile _ out _ _ => out
  | build _ out _ _ _ => out
  | run args _ =>
    match CommandLine.Request.ofArguments args with
    | .ok r => r.settings.output
    | .error _ => []
  | _ => []

/-- Whether a step is asked to keep its temporary file. -/
def keepsTemp : Step → Bool
  | compile _ _ o _ => o.keepTemp
  | build _ _ _ o _ => o.keepTemp
  | run args _ =>
    match CommandLine.Request.ofArguments args with
    | .ok r => r.settings.keepTemp
    | .error _ => false
  | _ => false

end Step

/-- Whether a compiler was started. -/
def Answer.started : Answer → Bool
  | compiled o => o.started
  | exited e => e.started
  | _ => false

namespace Workspace

/-- The compile run of a build: there is one if the file can be read and its brackets
are in order. -/
def buildCompilation? (w : Workspace) (canceled : Bool) (name out : Text) (p : Prelude)
    (o : CompileOptions) : Option Compilation :=
  match w.readFile name with
  | .error _ => none
  | .ok text =>
    let listing := Listing.ofText p text
    if listing.wellFormed then
      some ⟨listing.code, if out.isEmpty then defaultOutput else out, o, canceled⟩
    else none

/-- The compile run of a step, if it gets that far. -/
def compilation? (w : Workspace) : Step → Option Compilation
  | .compile code out o canceled => some ⟨code, out, o, canceled⟩
  | .build name out p o canceled => w.buildCompilation? canceled name out p o
  | .run args _ =>
    match CommandLine.Request.ofArguments args with
    | .ok ⟨.build, s, [name]⟩ =>
      w.buildCompilation? false name s.output s.prelude s.compileOptions
    | _ => none
  | _ => none

/-- A step runs an argument list that stores a C text in a named file, and it gets as far
as writing to that file what the device takes. -/
inductive StoresCode (w : Workspace) : Step → Path → Text → Prop where
  | intro {args : List Text} {sink : CommandLine.Sink} {s : CommandLine.Settings}
      {name text : Text} {p : Path}
      (hargs : CommandLine.Request.ofArguments args = .ok ⟨.emit, s, [name]⟩)
      (hout : s.output ≠ []) (hread : w.readFile name = .ok text)
      (hgood : (Listing.ofText s.prelude text).wellFormed = true)
      (htarget : w.tree.target w.home s.output = .ok p) :
      StoresCode w (.run args sink) p (w.tree.taken p (Listing.ofText s.prelude text).code)

theorem StoresCode.target {w : Workspace} {s : Step} {p : Path} {content : Text}
    (h : w.StoresCode s p content) : w.tree.target w.home s.output = .ok p := by
  cases h with
  | intro hargs _ _ _ htarget =>
    simp only [Step.output, hargs]
    exact htarget

theorem buildCompilation?_eq_some {w : Workspace} {canceled : Bool} {name out : Text}
    {p : Prelude} {o : CompileOptions} {c : Compilation}
    (h : w.buildCompilation? canceled name out p o = some c) :
    c.options = o ∧ c.out = (if out.isEmpty then defaultOutput else out) ∧
      (w.build canceled name out p o).tree = (c.outcome w).tree ∧
      (w.build canceled name out p o).started = (c.outcome w).started := by
  cases hread : w.readFile name with
  | error e =>
    simp only [buildCompilation?, hread] at h
    cases h
  | ok text =>
    simp only [buildCompilation?, hread] at h
    split at h
    · next hgood =>
      obtain rfl := Option.some.inj h
      rw [build_of_wellFormed hread hgood]
      exact ⟨rfl, rfl, rfl, rfl⟩
    · cases h

theorem buildCompilation?_eq_none {w : Workspace} {canceled : Bool} {name out : Text}
    {p : Prelude} {o : CompileOptions} (h : w.buildCompilation? canceled name out p o = none) :
    (w.build canceled name out p o).tree = w.tree ∧
      (w.build canceled name out p o).started = false := by
  cases hread : w.readFile name with
  | error e =>
    rw [build_of_readFile_error hread]
    exact ⟨rfl, rfl⟩
  | ok text =>
    simp only [buildCompilation?, hread] at h
    split at h
    · cases h
    · next hbad =>
      obtain ⟨f, hbuild, _⟩ := build_of_malformed hread (Bool.eq_false_iff.mpr hbad) canceled out o
      rw [hbuild]
      exact ⟨rfl, rfl⟩

end Workspace

namespace CommandLine

theorem tree_runBuild (w : Workspace) (sink : Sink) (s : Settings) (name : Text) :
    (runBuild w sink s name).tree =
        (w.build false name s.output s.prelude s.compileOptions).tree ∧
      (runBuild w sink s name).started =
        (w.build false name s.output s.prelude s.compileOptions).started := by
  simp only [runBuild]
  split
  · exact ⟨rfl, rfl⟩
  · exact ⟨rfl, rfl⟩

theorem tree_runFilter (w : Workspace) (sink : Sink) (s : Settings) (name : Text) :
    (runFilter w sink s name).tree = w.tree ∧ (runFilter w sink s name).started = false := by
  simp only [runFilter]
  split
  · exact ⟨rfl, rfl⟩
  · split
    · exact ⟨rfl, rfl⟩
    · exact ⟨rfl, rfl⟩

theorem tree_runEmit (w : Workspace) (sink : Sink) (s : Settings) (name : Text) :
    (runEmit w sink s name).started = false ∧
      ((runEmit w sink s name).tree = w.tree ∨
        ∃ text q, s.output ≠ [] ∧ w.readFile name = .ok text ∧
          (Listing.ofText s.prelude text).wellFormed = true ∧
          w.tree.target w.home s.output = .ok q ∧
          (runEmit w sink s name).tree =
            w.tree.write q (w.tree.taken q (Listing.ofText s.prelude text).code)) := by
  rcases runEmit_cases w sink s name with
    ⟨f, hend⟩ | ⟨text, hread, hgood, ⟨_, hend⟩ | ⟨hout, q, _, hq, rfl, hend⟩⟩
  · rw [hend]
    exact ⟨rfl, Or.inl rfl⟩
  · rw [hend]
    exact ⟨rfl, Or.inl rfl⟩
  · split at hend
    · rw [hend]
      exact ⟨rfl, Or.inr ⟨text, q, hout, hread, hgood, hq, rfl⟩⟩
    · obtain ⟨f, hend⟩ := hend
      rw [hend]
      exact ⟨rfl, Or.inr ⟨text, q, hout, hread, hgood, hq, rfl⟩⟩

/-- Only the build of a single input gets as far as a compile run. -/
theorem exists_build_of_compilation {w : Workspace} {args : List Text} {sink : Sink}
    {c : Compilation} (h : w.compilation? (.run args sink) = some c) :
    ∃ s name, Request.ofArguments args = .ok ⟨.build, s, [name]⟩ ∧
      w.buildCompilation? false name s.output s.prelude s.compileOptions = some c := by
  simp only [Workspace.compilation?] at h
  split at h
  · next s name hread => exact ⟨s, name, hread, h⟩
  · cases h

/-- What a run without a compile run can do to the tree: store a C text, or nothing. -/
theorem tree_run_of_no_compilation {w : Workspace} {args : List Text} {sink : Sink}
    (h : w.compilation? (.run args sink) = none) :
    (run w sink args).started = false ∧
      ((run w sink args).tree = w.tree ∨
        ∃ q content, w.StoresCode (.run args sink) q content ∧
          (run w sink args).tree = w.tree.write q content) := by
  cases hread : Request.ofArguments args with
  | error f =>
    rw [run, hread]
    exact ⟨rfl, Or.inl rfl⟩
  | ok r =>
    have hrun : run w sink args = perform w sink r := by rw [run, hread]
    obtain ⟨command, s, inputs⟩ := r
    rcases inputs with _ | ⟨name, _ | ⟨second, more⟩⟩
    · rw [hrun]
      exact ⟨rfl, Or.inl rfl⟩
    · cases command with
      | build =>
        have hnone : w.buildCompilation? false name s.output s.prelude s.compileOptions = none := by
          simpa only [Workspace.compilation?, hread] using h
        have hbuild := tree_runBuild w sink s name
        have hrefused := Workspace.buildCompilation?_eq_none hnone
        rw [hrun, perform]
        exact ⟨hbuild.2.trans hrefused.2, Or.inl (hbuild.1.trans hrefused.1)⟩
      | filter =>
        rw [hrun, perform]
        exact ⟨(tree_runFilter w sink s name).2, Or.inl (tree_runFilter w sink s name).1⟩
      | emit =>
        have hemit : run w sink args = runEmit w sink s name := hrun
        obtain ⟨hstarted, htree⟩ := tree_runEmit w sink s name
        rw [← hemit] at hstarted htree
        refine ⟨hstarted, htree.imp_right ?_⟩
        rintro ⟨text, q, hout, hfile, hgood, hq, hwrite⟩
        exact ⟨q, _, .intro hread hout hfile hgood hq, hwrite⟩
    · rw [hrun]
      exact ⟨rfl, Or.inl rfl⟩

end CommandLine

namespace Workspace

open FileTree (parts)

theorem isPath_buildOutput {out : Text} (h : TempFile.isPath (parts out) = false) :
    TempFile.isPath (parts (if out.isEmpty then defaultOutput else out)) = false := by
  split
  · decide
  · exact h

theorem step_of_compilation {w : Workspace} {s : Step} {c : Compilation}
    (h : w.compilation? s = some c) :
    (w.step s).1.tree = (c.outcome w).tree ∧ (w.step s).2.started = (c.outcome w).started ∧
      c.options.keepTemp = s.keepsTemp ∧
      (TempFile.isPath (parts s.output) = false → TempFile.isPath (parts c.out) = false) := by
  cases s with
  | compile code out o canceled =>
    obtain rfl := Option.some.inj h
    exact ⟨rfl, rfl, rfl, id⟩
  | build name out p o canceled =>
    obtain ⟨rfl, hout, htree, hstarted⟩ := buildCompilation?_eq_some h
    exact ⟨htree, hstarted, rfl, fun hplain => hout ▸ isPath_buildOutput hplain⟩
  | run args sink =>
    obtain ⟨settings, name, hread, hbuild⟩ := CommandLine.exists_build_of_compilation h
    obtain ⟨hoptions, hout, htree, hstarted⟩ := buildCompilation?_eq_some hbuild
    have hrun : CommandLine.run w sink args = CommandLine.runBuild w sink settings name := by
      simp only [CommandLine.run, hread, CommandLine.perform]
    have hran := CommandLine.tree_runBuild w sink settings name
    refine ⟨?_, ?_, ?_, ?_⟩
    · show (CommandLine.run w sink args).tree = _
      rw [hrun, hran.1, htree]
    · show (CommandLine.run w sink args).started = _
      rw [hrun, hran.2, hstarted]
    · rw [hoptions]
      simp only [Step.keepsTemp, hread, CommandLine.Settings.compileOptions]
    · simp only [Step.output, hread]
      exact fun hplain => hout ▸ isPath_buildOutput hplain
  | write _ _ => cases h
  | makeDirectory _ => cases h
  | remove _ => cases h
  | list _ _ => cases h

theorem step_of_no_compilation {w : Workspace} {s : Step} (hhand : s.isByHand = false)
    (h : w.compilation? s = none) :
    (w.step s).2.started = false ∧
      ((w.step s).1.tree = w.tree ∨
        ∃ q content, w.StoresCode s q content ∧
          (w.step s).1.tree = w.tree.write q content) := by
  cases s with
  | compile _ _ _ _ => cases h
  | build name out p o canceled =>
    have hrefused := buildCompilation?_eq_none h
    exact ⟨hrefused.2, Or.inl hrefused.1⟩
  | run args sink => exact CommandLine.tree_run_of_no_compilation h
  | list name p =>
    simp only [step]
    split
    · exact ⟨rfl, Or.inl rfl⟩
    · exact ⟨rfl, Or.inl rfl⟩
  | write _ _ => cases hhand
  | makeDirectory _ => cases hhand
  | remove _ => cases hhand

/-! ## What a step does to the files -/

/-- A step gets as far as a compile run, the compiler is there, and a temporary file was
created. -/
structure Prepares (w : Workspace) (s : Step) (c : Compilation) (compiler : Executable)
    (source : TempFile.Created) : Prop where
  compilation : w.compilation? s = some c
  ready : c.Ready w compiler source

/-- A step leaves its temporary file behind: it is asked to, it creates one, and if a
compiler is started the file is still there when that is done. -/
structure Keeps (w : Workspace) (s : Step) (c : Compilation) (compiler : Executable)
    (source : TempFile.Created) : Prop extends w.Prepares s c compiler source where
  asked : s.keepsTemp = true
  there : (w.step s).2.started = true →
    (c.run w compiler source).tree.find w.home source.name ≠ .error .notFound

/-- Every file after a step is accounted for. -/
structure Accounted (before : Workspace) (s : Step) (after : Workspace) (answer : Answer) :
    Prop where
  unkept : s.keepsTemp = false → TempFile.files after.tree = TempFile.files before.tree
  /-- The file that is kept is new, and it holds the C text.  If the device had no room for
  all of that it holds a beginning, and then no compiler was started. -/
  kept : ∀ c compiler source, before.Keeps s c compiler source →
    source.IsNewIn before.tree before.home ∧ ∃ content,
      TempFile.files after.tree = TempFile.files before.tree ++ [(source.path, content)] ∧
        if before.tree.taken source.path c.code = c.code then content = c.code
        else content <+: c.code ∧ content ≠ c.code ∧ answer.started = false
  none_kept : (∀ c compiler source, ¬ before.Keeps s c compiler source) →
    TempFile.files after.tree = TempFile.files before.tree
  /-- Any other file is as the compiler left it, which had all of the C text before it. -/
  started : answer.started = true →
    ∃ c compiler source, before.Prepares s c compiler source ∧
      c.written before source = c.code ∧
      ∀ q, TempFile.isPath q = false →
        after.tree.get? q = (c.run before compiler source).tree.get? q
  /-- Without a compiler any other file is as before, or it is the one in which a C text
  was stored, as far as its device took it. -/
  idle : answer.started = false →
    (∀ q, TempFile.isPath q = false → after.tree.get? q = before.tree.get? q) ∨
      ∃ p content, before.StoresCode s p content ∧ after.tree = before.tree.write p content

theorem accounted_of_no_compilation {w : Workspace} {s : Step} (hhand : s.isByHand = false)
    (hout : TempFile.isPath (parts s.output) = false) (h : w.compilation? s = none) :
    w.Accounted s (w.step s).1 (w.step s).2 := by
  obtain ⟨hstarted, htree⟩ := step_of_no_compilation hhand h
  have hfiles : TempFile.files (w.step s).1.tree = TempFile.files w.tree := by
    rcases htree with hsame | ⟨q, content, hstores, hwrite⟩
    · rw [hsame]
    · have hplain : TempFile.isPath q = false := by
        rw [TempFile.isPath, FileTree.getLast?_of_target hstores.target]
        exact hout
      rw [hwrite, TempFile.files_write_of_not_isPath hplain]
  refine ⟨fun _ => hfiles, ?_, fun _ => hfiles, ?_, ?_⟩
  · intro c compiler source hkeeps
    cases h.symm.trans hkeeps.compilation
  · intro hyes
    rw [hstarted] at hyes
    cases hyes
  · intro _
    rcases htree with hsame | hstored
    · left
      intro q _
      rw [hsame]
    · exact Or.inr hstored

theorem accounted_of_compilation {w : Workspace} {s : Step} {c : Compilation}
    (hout : TempFile.isPath (parts s.output) = false) (h : w.compilation? s = some c) :
    w.Accounted s (w.step s).1 (w.step s).2 := by
  obtain ⟨htree, hstarted, hkeep, hplain⟩ := step_of_compilation h
  have hcout := hplain hout
  have hunkept : s.keepsTemp = false →
      TempFile.files (w.step s).1.tree = TempFile.files w.tree := by
    intro hno
    rw [htree]
    exact c.files_outcome w hcout (hkeep.trans hno)
  refine ⟨hunkept, ?_, ?_, ?_, ?_⟩
  · intro c' compiler source hkeeps
    obtain rfl : c = c' := Option.some.inj (h.symm.trans hkeeps.compilation)
    have hready := hkeeps.ready
    have hremoves : ¬ c.Removes w compiler source := by
      rintro ⟨hran, hgone⟩
      exact hkeeps.there (hstarted.trans hran) hgone
    refine ⟨hready.isNewIn, c.written w source, ?_, ?_⟩
    · rw [htree]
      exact Compilation.files_outcome_of_kept hready hcout (hkeep.trans hkeeps.asked) hremoves
    · split
      · next htaken => exact htaken
      · next htaken =>
        refine ⟨FileTree.taken_prefix _ _ _, htaken, ?_⟩
        rw [hstarted]
        exact Bool.eq_false_iff.2 fun hran => htaken (hready.written_of_started hran)
  · intro hnone
    cases hyes : s.keepsTemp with
    | false => exact hunkept hyes
    | true =>
      rw [htree]
      rcases c.ready_or_refused w with ⟨compiler, source, hready⟩ | ⟨hrefused, _⟩
      · refine Compilation.files_outcome_of_removed hready hcout (hkeep.trans hyes) ?_
        by_contra hremoves
        refine hnone c compiler source ⟨⟨h, hready⟩, hyes, fun hran hgone => hremoves ⟨?_, hgone⟩⟩
        exact hstarted.symm.trans hran
      · rw [hrefused]
  · intro hyes
    rw [hstarted] at hyes
    rcases c.ready_or_refused w with ⟨compiler, source, hready⟩ | ⟨_, hno⟩
    · refine ⟨c, compiler, source, ⟨h, hready⟩, hready.written_of_started hyes, fun q hq => ?_⟩
      rw [htree, Compilation.get?_outcome hready hcout hq, if_pos hyes]
    · rw [hno] at hyes
      cases hyes
  · intro hno
    left
    intro q hq
    rw [hstarted] at hno
    rw [htree]
    rcases c.ready_or_refused w with ⟨compiler, source, hready⟩ | ⟨hrefused, _⟩
    · rw [Compilation.get?_outcome hready hcout hq, hno]
      rfl
    · rw [hrefused]

theorem accounted_step {w : Workspace} {s : Step} (hhand : s.isByHand = false)
    (hout : TempFile.isPath (parts s.output) = false) :
    w.Accounted s (w.step s).1 (w.step s).2 := by
  cases h : w.compilation? s with
  | none => exact accounted_of_no_compilation hhand hout h
  | some c => exact accounted_of_compilation hout h

/-- A step adds at most one temporary file, and only if it is asked to keep it. -/
theorem Accounted.exists_added {before : Workspace} {s : Step} {after : Workspace}
    {answer : Answer} (h : before.Accounted s after answer) :
    ∃ added, TempFile.files after.tree = TempFile.files before.tree ++ added ∧
      added.length ≤ [s].countP Step.keepsTemp := by
  by_cases hkept : ∃ c compiler source, before.Keeps s c compiler source
  · obtain ⟨c, compiler, source, hkeeps⟩ := hkept
    obtain ⟨_, content, hfiles, _⟩ := h.kept c compiler source hkeeps
    exact ⟨_, hfiles, by simp [hkeeps.asked]⟩
  · have hfiles := h.none_kept fun c compiler source hkeeps => hkept ⟨c, compiler, source, hkeeps⟩
    exact ⟨[], by rw [hfiles, List.append_nil], Nat.zero_le _⟩

/-! ## Sessions -/

/-- The workspace after the last step. -/
def after (w : Workspace) (ss : List Step) : Workspace :=
  ((w.steps ss).getLast?.map Prod.fst).getD w

theorem after_cons (w : Workspace) (s : Step) (ss : List Step) :
    w.after (s :: ss) = (w.step s).1.after ss := by
  rw [after, after, steps, List.getLast?_cons]
  cases ((w.step s).1.steps ss).getLast? with
  | none => rfl
  | some r => rfl

theorem getElem?_steps (w : Workspace) (done : List Step) (s : Step) (rest : List Step) :
    (w.steps (done ++ s :: rest))[done.length]? = some ((w.after done).step s) := by
  induction done generalizing w with
  | nil => rfl
  | cons first done ih =>
    rw [List.cons_append, steps, List.length_cons, List.getElem?_cons_succ, ih, after_cons]

theorem files_after {ss : List Step} (hhand : ∀ s ∈ ss, s.isByHand = false)
    (hout : ∀ s ∈ ss, TempFile.isPath (parts s.output) = false) (w : Workspace) :
    ∃ added, TempFile.files (w.after ss).tree = TempFile.files w.tree ++ added ∧
      added.length ≤ ss.countP Step.keepsTemp := by
  induction ss generalizing w with
  | nil => exact ⟨[], (List.append_nil _).symm, Nat.le_refl 0⟩
  | cons s ss ih =>
    have hstep := accounted_step (w := w) (hhand s List.mem_cons_self) (hout s List.mem_cons_self)
    obtain ⟨first, hfirst, hone⟩ := hstep.exists_added
    obtain ⟨rest, hrest, hcount⟩ := ih (fun s hs => hhand s (List.mem_cons_of_mem _ hs))
      (fun s hs => hout s (List.mem_cons_of_mem _ hs)) (w.step s).1
    refine ⟨first ++ rest, ?_, ?_⟩
    · rw [after_cons, hrest, hfirst, List.append_assoc]
    · have hsplit : (s :: ss).countP Step.keepsTemp =
          [s].countP Step.keepsTemp + ss.countP Step.keepsTemp := by
        rw [← List.countP_append, List.singleton_append]
      rw [List.length_append]
      omega

/-- In a session of listings, compile runs, builds and argument lists, with no output
that has the name of a temporary file, every step accounts for every file.  Over the
whole session no temporary file is lost, and there are no more new ones than steps
that were asked to keep theirs. -/
theorem steps_account_for_files (w : Workspace) (ss : List Step)
    (hhand : ∀ s ∈ ss, s.isByHand = false)
    (hout : ∀ s ∈ ss, TempFile.isPath (parts s.output) = false) :
    (∀ done s rest, ss = done ++ s :: rest →
      ∃ next answer, (w.steps ss)[done.length]? = some (next, answer) ∧
        (w.after done).Accounted s next answer) ∧
    TempFile.files w.tree <+: TempFile.files (w.after ss).tree ∧
    (TempFile.files (w.after ss).tree).length ≤
      (TempFile.files w.tree).length + ss.countP Step.keepsTemp := by
  obtain ⟨added, hfiles, hcount⟩ := files_after hhand hout w
  refine ⟨?_, ?_, ?_⟩
  · rintro done s rest rfl
    have hs : s ∈ done ++ s :: rest := List.mem_append_right _ List.mem_cons_self
    exact ⟨_, _, w.getElem?_steps done s rest, accounted_step (hhand s hs) (hout s hs)⟩
  · rw [hfiles]
    exact List.prefix_append _ _
  · rw [hfiles, List.length_append]
    omega

/-- A compile run that keeps its temporary file, one whose compiler removes it, a build
whose compiler crashes, a listing, and a C text stored in a file. -/
theorem steps_account_for_files_mixed :
    let w := (fresh [Text.ascii "w"] 0).put (Text.ascii "a") (Text.ascii "x+[-]")
    let kept := Step.compile (Text.ascii "int") (Text.ascii "out") ⟨[], [], [], true, 0⟩ false
    let removed := Step.compile (Text.ascii "int") (Text.ascii "out")
      ⟨Text.ascii "cc-rmsrc", [], [], true, 0⟩ false
    let ss := [kept, removed,
      .build (Text.ascii "a") [] .standard ⟨Text.ascii "cc-kill", [], [], false, 0⟩ false,
      .list (Text.ascii "a") .standard,
      .run [Text.ascii "translate", Text.ascii "-o", Text.ascii "x.c", Text.ascii "a"] .full]
    (∀ s ∈ ss, s.isByHand = false) ∧
      (∀ s ∈ ss, TempFile.isPath (parts s.output) = false) ∧
      (∃ next answer, (w.steps ss)[1]? = some (next, answer) ∧
        (w.after [kept]).Accounted removed next answer) ∧
      TempFile.files w.tree <+: TempFile.files (w.after ss).tree ∧
      (TempFile.files (w.after ss).tree).length ≤ 2 ∧
      (TempFile.files (w.after ss).tree).map Prod.snd = [Text.ascii "int"] := by
  intro w kept removed ss
  have hhand : ∀ s ∈ ss, s.isByHand = false := by decide +kernel
  have hout : ∀ s ∈ ss, TempFile.isPath (parts s.output) = false := by decide +kernel
  have haccount := steps_account_for_files w ss hhand hout
  exact ⟨hhand, hout, haccount.1 [kept] removed _ rfl, haccount.2.1, haccount.2.2,
    by decide +kernel⟩

/-- A step that is asked to keep its temporary file, on a device with room for two bytes:
what it keeps is not the C text. -/
theorem kept_file_cut_short :
    let w := fresh [Text.ascii "w"] 0
    let full := { w with tree := { w.tree with devices := [⟨[Text.ascii "w", Text.ascii "tmp"], 2⟩] } }
    let s := Step.compile (Text.ascii "int") (Text.ascii "out") ⟨[], [], [], true, 0⟩ false
    TempFile.files full.tree = [] ∧
      (TempFile.files (full.step s).1.tree).map Prod.snd = [Text.ascii "in"] ∧
      (full.step s).2.started = false := by
  intro w full s
  exact ⟨by decide +kernel, by decide +kernel, by decide +kernel⟩

end Workspace
end TapeC
