import TapeC.CommandLine.Run
import TapeC.Proofs.FileTree

/-!
What a run with status zero has handed over.

The two subcommands have one result each: the C text of a program, for standard
output or for a named file, and the program without its comments, for standard
output.  `success_iff_delivered` says when they end with status zero and what has
arrived by then.  There is one gap.  A C text that is printed on a device which takes
nothing is lost, and the status is zero all the same; the filtered program is never
lost in this way, since its write is looked at.
-/

namespace TapeC

/-! ## Loading -/

theorem Diagnostic.report_eq_none_iff {name text : Text} {l : Listing} :
    report name text l = none ↔ l.wellFormed = true := by
  unfold report Listing.fault?
  by_cases h : l.wellFormed = true
  · simp [h]
  · simp [h]

theorem Listing.code_ne_nil (p : Prelude) (text : Text) : (ofText p text).code ≠ [] := by
  have hinclude : Text.ascii "#include <stdio.h>\n\nstatic " ≠ [] := by decide
  simp [ofText, CText.render, Prelude.text, Prelude.declarations, hinclude]

theorem Workspace.load_of_readFile {w : Workspace} {name text : Text}
    (h : w.readFile name = .ok text) (p : Prelude) :
    w.load p name =
      .ok (Listing.ofText p text, Diagnostic.report name text (Listing.ofText p text)) := by
  rw [load, h]

theorem Workspace.load_of_readFile_error {w : Workspace} {name : Text} {e : FileError}
    (h : w.readFile name = .error e) (p : Prelude) : ∃ f, w.load p name = .error f := by
  rw [load, h]
  exact ⟨_, rfl⟩

namespace CommandLine

/-! ## What has to arrive -/

/-- The C text of the only input is where the request wants it: in the named file, or
on standard output if none is named. -/
def CodeDelivered (w : Workspace) (r : Request) (e : Exit) : Prop :=
  ∃ name text, r.inputs = [name] ∧ w.readFile name = .ok text ∧
    if r.settings.output = [] then e.stdout = (Listing.ofText r.settings.prelude text).code
    else e.tree.readFile w.home r.settings.output =
      .ok (Listing.ofText r.settings.prelude text).code

/-- The only input is on standard output without its comments, and a line break after
it. -/
def ProgramDelivered (w : Workspace) (r : Request) (e : Exit) : Prop :=
  ∃ name text, r.inputs = [name] ∧ w.readFile name = .ok text ∧
    e.stdout = Source.filtered text ++ [Byte.newline]

/-- Nothing that a C text needs on its way fails, standard output apart: there is one
input, it can be read, its brackets are in order and the named file can be written. -/
def CodeWritable (w : Workspace) (r : Request) : Prop :=
  ∃ name text, r.inputs = [name] ∧ w.readFile name = .ok text ∧
    (Listing.ofText r.settings.prelude text).wellFormed = true ∧
    (r.settings.output ≠ [] → ∃ tree, w.tree.writeFile w.home r.settings.output
      (Listing.ofText r.settings.prelude text).code = .ok tree)

/-! ## The subcommands -/

section

variable {w : Workspace} {name text : Text}

theorem load_of_wellFormed {p : Prelude} (h : w.readFile name = .ok text)
    (hgood : (Listing.ofText p text).wellFormed = true) :
    w.load p name = .ok (Listing.ofText p text, none) := by
  rw [Workspace.load_of_readFile h, Diagnostic.report_eq_none_iff.2 hgood]

theorem runEmit_print {s : Settings} (h : w.readFile name = .ok text)
    (hgood : (Listing.ofText s.prelude text).wellFormed = true) (hout : s.output = [])
    (sink : Sink) :
    runEmit w sink s name =
      .success w.tree (sink.deliver (Listing.ofText s.prelude text).code) [] := by
  rw [runEmit, load_of_wellFormed h hgood, hout]
  rfl

theorem runEmit_store {s : Settings} {tree : FileTree} (h : w.readFile name = .ok text)
    (hgood : (Listing.ofText s.prelude text).wellFormed = true) (hout : s.output ≠ [])
    (hwrite : w.tree.writeFile w.home s.output (Listing.ofText s.prelude text).code = .ok tree)
    (sink : Sink) : runEmit w sink s name = .success tree [] [] := by
  rw [runEmit, load_of_wellFormed h hgood]
  simp only [hwrite, List.isEmpty_eq_false_iff.2 hout]
  rfl

theorem runEmit_unstored {s : Settings} {failed : FileTree.FailedWrite}
    (h : w.readFile name = .ok text) (hgood : (Listing.ofText s.prelude text).wellFormed = true)
    (hout : s.output ≠ [])
    (hwrite : w.tree.writeFile w.home s.output (Listing.ofText s.prelude text).code =
      .error failed) (sink : Sink) : ∃ f, runEmit w sink s name = .failed failed.tree [] f := by
  rw [runEmit, load_of_wellFormed h hgood]
  simp only [hwrite, List.isEmpty_eq_false_iff.2 hout]
  exact ⟨_, rfl⟩

/-- A C text is printed or stored once everything before that went well, and
otherwise nothing has changed.  To store it is the one step that can fail half way:
its file holds then what the device took. -/
theorem runEmit_cases (w : Workspace) (sink : Sink) (s : Settings) (name : Text) :
    (∃ f, runEmit w sink s name = .failed w.tree [] f) ∨
    ∃ text, w.readFile name = .ok text ∧ (Listing.ofText s.prelude text).wellFormed = true ∧
      (s.output = [] ∧ runEmit w sink s name =
          .success w.tree (sink.deliver (Listing.ofText s.prelude text).code) [] ∨
        s.output ≠ [] ∧ ∃ q written, w.tree.target w.home s.output = .ok q ∧
          written = w.tree.taken q (Listing.ofText s.prelude text).code ∧
          if written = (Listing.ofText s.prelude text).code then
            runEmit w sink s name = .success (w.tree.write q written) [] []
          else ∃ f, runEmit w sink s name = .failed (w.tree.write q written) [] f) := by
  cases hread : w.readFile name with
  | error e =>
    obtain ⟨f, hload⟩ := Workspace.load_of_readFile_error hread s.prelude
    rw [runEmit, hload]
    exact Or.inl ⟨_, rfl⟩
  | ok text =>
    cases hreport : Diagnostic.report name text (Listing.ofText s.prelude text) with
    | some f =>
      rw [runEmit, Workspace.load_of_readFile hread, hreport]
      exact Or.inl ⟨_, rfl⟩
    | none =>
      have hgood := Diagnostic.report_eq_none_iff.1 hreport
      by_cases hout : s.output = []
      · exact Or.inr ⟨text, rfl, hgood, Or.inl ⟨hout, runEmit_print hread hgood hout sink⟩⟩
      rcases w.tree.writeFile_cases w.home s.output (Listing.ofText s.prelude text).code with
        ⟨_, _, hwrite⟩ | ⟨q, hq, ⟨htaken, hwrite⟩ | ⟨htaken, hwrite⟩⟩
      · exact Or.inl (runEmit_unstored hread hgood hout hwrite sink)
      · refine Or.inr ⟨text, rfl, hgood, Or.inr ⟨hout, q, _, hq, rfl, ?_⟩⟩
        rw [if_pos htaken, htaken]
        exact runEmit_store hread hgood hout hwrite sink
      · refine Or.inr ⟨text, rfl, hgood, Or.inr ⟨hout, q, _, hq, rfl, ?_⟩⟩
        rw [if_neg htaken]
        exact runEmit_unstored hread hgood hout hwrite sink

theorem runFilter_of_readFile_error {e : FileError} (h : w.readFile name = .error e) (sink : Sink)
    (s : Settings) : ∃ f, runFilter w sink s name = .failed w.tree [] f := by
  obtain ⟨f, hload⟩ := Workspace.load_of_readFile_error h s.prelude
  rw [runFilter, hload]
  exact ⟨_, rfl⟩

/-- A program whose brackets are not in order is printed as well. -/
theorem runFilter_working (h : w.readFile name = .ok text) (s : Settings) :
    ∃ stderr, runFilter w .working s name =
      .success w.tree (Source.filtered text ++ [Byte.newline]) stderr := by
  rw [runFilter, Workspace.load_of_readFile h]
  exact ⟨_, rfl⟩

theorem runFilter_full (h : w.readFile name = .ok text) (s : Settings) :
    ∃ stderr f, runFilter w .full s name = .failed w.tree stderr f := by
  rw [runFilter, Workspace.load_of_readFile h]
  exact ⟨_, _, rfl⟩

end

theorem status_failed (tree : FileTree) (stderr : Text) (f : Failure Problem) :
    (Exit.failed tree stderr f).status ≠ 0 := Nat.one_ne_zero

theorem status_runEmit_iff {w : Workspace} {r : Request} {name : Text} (hinput : r.inputs = [name])
    (sink : Sink) : (runEmit w sink r.settings name).status = 0 ↔ CodeWritable w r := by
  constructor
  · intro hstatus
    rcases runEmit_cases w sink r.settings name with ⟨f, hrun⟩ | ⟨text, hread, hgood, hend⟩
    · rw [hrun] at hstatus
      exact absurd hstatus (status_failed _ _ _)
    · refine ⟨name, text, hinput, hread, hgood, fun hout => ?_⟩
      rcases hend with ⟨hnone, _⟩ | ⟨_, q, written, hq, rfl, hstore⟩
      · exact absurd hnone hout
      · split at hstore
        · next htaken => exact ⟨_, FileTree.writeFile_of_target hq htaken⟩
        · obtain ⟨f, hrun⟩ := hstore
          rw [hrun] at hstatus
          exact absurd hstatus (status_failed _ _ _)
  · rintro ⟨name', text, hinput', hread, hgood, hwrite⟩
    obtain rfl : name = name' := List.singleton_inj.1 (hinput.symm.trans hinput')
    by_cases hout : r.settings.output = []
    · rw [runEmit_print hread hgood hout]
      rfl
    · obtain ⟨tree, htree⟩ := hwrite hout
      rw [runEmit_store hread hgood hout htree]
      rfl

theorem codeDelivered_iff {w : Workspace} {r : Request} {name : Text} (hinput : r.inputs = [name])
    {sink : Sink} (hwritable : CodeWritable w r) :
    CodeDelivered w r (runEmit w sink r.settings name) ↔
      ¬ (r.settings.output = [] ∧ sink = .full) := by
  obtain ⟨name', text, hinput', hread, hgood, hwrite⟩ := hwritable
  obtain rfl : name = name' := List.singleton_inj.1 (hinput.symm.trans hinput')
  by_cases hout : r.settings.output = []
  · rw [runEmit_print hread hgood hout]
    constructor
    · rintro ⟨_, text', _, _, harrived⟩ ⟨_, rfl⟩
      rw [if_pos hout] at harrived
      exact Listing.code_ne_nil _ text' harrived.symm
    · intro hnotlost
      refine ⟨name, text, hinput, hread, ?_⟩
      rw [if_pos hout]
      cases sink with
      | working => rfl
      | full => exact absurd ⟨hout, rfl⟩ hnotlost
  · obtain ⟨tree, htree⟩ := hwrite hout
    rw [runEmit_store hread hgood hout htree]
    obtain ⟨p, hp, _, rfl⟩ := FileTree.exists_of_writeFile htree
    refine ⟨fun _ hlost => hout hlost.1, fun _ => ⟨name, text, hinput, hread, ?_⟩⟩
    rw [if_neg hout]
    exact FileTree.readFile_write hp _

theorem status_runFilter_iff {w : Workspace} {name : Text} (sink : Sink) (s : Settings) :
    (runFilter w sink s name).status = 0 ↔
      (∃ text, w.readFile name = .ok text) ∧ sink = .working := by
  cases hread : w.readFile name with
  | error e =>
    obtain ⟨f, hrun⟩ := runFilter_of_readFile_error hread sink s
    rw [hrun]
    refine ⟨fun hstatus => absurd hstatus (status_failed _ _ _), ?_⟩
    rintro ⟨⟨text, htext⟩, _⟩
    cases htext
  | ok text =>
    cases sink with
    | working =>
      obtain ⟨stderr, hrun⟩ := runFilter_working hread s
      rw [hrun]
      exact ⟨fun _ => ⟨⟨text, rfl⟩, rfl⟩, fun _ => rfl⟩
    | full =>
      obtain ⟨stderr, f, hrun⟩ := runFilter_full hread s
      rw [hrun]
      exact ⟨fun hstatus => absurd hstatus (status_failed _ _ _), fun h => Sink.noConfusion h.2⟩

/-! ## Whole runs -/

/-- Without a single input the run ends before it has done anything. -/
theorem perform_cases (w : Workspace) (sink : Sink) (r : Request) :
    (∃ name, r.inputs = [name]) ∨ ∃ f, perform w sink r = .failed w.tree [] f := by
  unfold perform
  split
  · exact Or.inr ⟨_, rfl⟩
  · next name hinputs => exact Or.inl ⟨name, hinputs⟩
  · exact Or.inr ⟨_, rfl⟩

theorem exists_input_of_perform {w : Workspace} {sink : Sink} {r : Request}
    (h : (perform w sink r).status = 0) : ∃ name, r.inputs = [name] := by
  rcases perform_cases w sink r with hinput | ⟨f, hend⟩
  · exact hinput
  · rw [hend] at h
    exact absurd h (status_failed _ _ _)

theorem perform_of_input {w : Workspace} {sink : Sink} {r : Request} {name : Text}
    (h : r.inputs = [name]) :
    perform w sink r = match r.command with
      | .build => runBuild w sink r.settings name
      | .emit => runEmit w sink r.settings name
      | .filter => runFilter w sink r.settings name := by
  obtain ⟨command, settings, inputs⟩ := r
  obtain rfl : inputs = [name] := h
  rfl

/-- When the two subcommands end with status zero, and what has arrived by then.  A
failure to understand the arguments, to read, to translate or to write a named file
shows in the status, and so does a failure to print the filtered program.  A C text
that was to be printed has arrived unless standard output takes nothing. -/
theorem success_iff_delivered (w : Workspace) (sink : Sink) (args : List Text) :
    (∀ f, Request.ofArguments args = .error f → (run w sink args).status ≠ 0) ∧
    ∀ r, Request.ofArguments args = .ok r →
      (r.command = .emit →
        ((run w sink args).status = 0 ↔ CodeWritable w r) ∧
        ((run w sink args).status = 0 →
          (CodeDelivered w r (run w sink args) ↔ ¬ (r.settings.output = [] ∧ sink = .full)))) ∧
      (r.command = .filter →
        ((run w sink args).status = 0 ↔
          (∃ name text, r.inputs = [name] ∧ w.readFile name = .ok text) ∧ sink = .working) ∧
        ((run w sink args).status = 0 → ProgramDelivered w r (run w sink args))) := by
  refine ⟨fun f h => ?_, fun r h => ?_⟩
  · rw [run, h]
    exact status_failed _ _ _
  have hrun : run w sink args = perform w sink r := by rw [run, h]
  rw [hrun]
  refine ⟨fun hcommand => ?_, fun hcommand => ?_⟩
  · have hemit : ∀ {name}, r.inputs = [name] →
        perform w sink r = runEmit w sink r.settings name := by
      intro name hinput
      rw [perform_of_input hinput, hcommand]
    have hstatus : (perform w sink r).status = 0 ↔ CodeWritable w r := by
      constructor
      · intro hzero
        obtain ⟨name, hinput⟩ := exists_input_of_perform hzero
        rw [hemit hinput] at hzero
        exact (status_runEmit_iff hinput sink).1 hzero
      · intro hwritable
        have ⟨name, _, hinput, _⟩ := hwritable
        rw [hemit hinput]
        exact (status_runEmit_iff hinput sink).2 hwritable
    refine ⟨hstatus, fun hzero => ?_⟩
    obtain ⟨name, hinput⟩ := exists_input_of_perform hzero
    rw [hemit hinput]
    exact codeDelivered_iff hinput (hstatus.1 hzero)
  · have hfilter : ∀ {name}, r.inputs = [name] →
        perform w sink r = runFilter w sink r.settings name := by
      intro name hinput
      rw [perform_of_input hinput, hcommand]
    refine ⟨⟨fun hzero => ?_, ?_⟩, fun hzero => ?_⟩
    · obtain ⟨name, hinput⟩ := exists_input_of_perform hzero
      rw [hfilter hinput] at hzero
      obtain ⟨⟨text, hread⟩, hsink⟩ := (status_runFilter_iff sink _).1 hzero
      exact ⟨⟨name, text, hinput, hread⟩, hsink⟩
    · rintro ⟨⟨name, text, hinput, hread⟩, hsink⟩
      rw [hfilter hinput]
      exact (status_runFilter_iff sink _).2 ⟨⟨text, hread⟩, hsink⟩
    · obtain ⟨name, hinput⟩ := exists_input_of_perform hzero
      rw [hfilter hinput] at hzero ⊢
      obtain ⟨⟨text, hread⟩, rfl⟩ := (status_runFilter_iff sink _).1 hzero
      obtain ⟨stderr, hdone⟩ := runFilter_working hread r.settings
      rw [hdone]
      exact ⟨name, text, hinput, hread, rfl⟩

/-- A C text stored in a file although standard output takes nothing, and a program
with a stray loop end printed by the filter. -/
theorem success_iff_delivered_both :
    let w := ((Workspace.fresh [Text.ascii "w"] 0).put (Text.ascii "a") (Text.ascii "x+[-]")).put
      (Text.ascii "b") (Text.ascii "y]+")
    let store := [Text.ascii "translate", Text.ascii "-o", Text.ascii "x.c", Text.ascii "a"]
    let print := [Text.ascii "filter", Text.ascii "b"]
    (run w .full store).status = 0 ∧
      CodeDelivered w
        ⟨.emit, { Command.emit.defaults with output := Text.ascii "x.c" }, [Text.ascii "a"]⟩
        (run w .full store) ∧
      (run w .working print).status = 0 ∧
      ProgramDelivered w ⟨.filter, Command.filter.defaults, [Text.ascii "b"]⟩
        (run w .working print) := by
  intro w store print
  have hstore : (run w .full store).status = 0 := by decide +kernel
  have hprint : (run w .working print).status = 0 := by decide +kernel
  refine ⟨hstore, ?_, hprint, ?_⟩
  · exact ((((success_iff_delivered w .full store).2 _ rfl).1 rfl).2 hstore).2 (by decide)
  · exact (((success_iff_delivered w .working print).2 _ rfl).2 rfl).2 hprint

/-- On a device that takes nothing a C text is lost, and the status is zero. -/
theorem emit_succeeds_undelivered :
    let w := (Workspace.fresh [Text.ascii "w"] 0).put (Text.ascii "a") (Text.ascii "+")
    let args := [Text.ascii "translate", Text.ascii "a"]
    let r : Request := ⟨.emit, Command.emit.defaults, [Text.ascii "a"]⟩
    Request.ofArguments args = .ok r ∧ (run w .full args).status = 0 ∧
      (run w .full args).stdout = [] ∧ (run w .full args).tree = w.tree ∧
      ¬ CodeDelivered w r (run w .full args) := by
  intro w args r
  have hstdout : (run w .full args).stdout = [] := by decide +kernel
  refine ⟨rfl, by decide +kernel, hstdout, by decide +kernel, ?_⟩
  rintro ⟨_, text, _, _, harrived⟩
  have hunnamed : r.settings.output = [] := rfl
  rw [if_pos hunnamed, hstdout] at harrived
  exact Listing.code_ne_nil _ text harrived.symm

end CommandLine
end TapeC
