import TapeC.Proofs.Arguments
import TapeC.Proofs.CompileRun
import TapeC.Proofs.Delivery

/-!
Three routes to one C text.

A C text can be printed, stored in a file, or handed through a temporary file to a
compiler that copies it.  The routes read their flags apart from each other and fill
in the defaults of the prelude in different places, but they end at the same bytes
(`routes_agree`).  The last route is the long one: a temporary directory in which a
file can be created and written, a compiler that is started and ends well, and a
temporary file that can be removed.  One output is out of its reach, the temporary file
itself, for a file is not copied onto itself.
-/

namespace TapeC

namespace Workspace

/-- The temporary directory is there, the name of a new file in it is within the limits
of the system, and its device takes the code. -/
structure TempDirReady (w : Workspace) (code : Text) : Prop where
  present : ∃ d, w.tree.find w.home w.tempDir = .ok d ∧ w.tree.isDirectory d = true ∧
    w.tree.taken (d ++ [TempFile.nameOf (TempFile.freshIndex w.seed w.tree)]) code = code
  name : (TempFile.nameOf (TempFile.freshIndex w.seed w.tree)).length ≤ 255
  path : (TempFile.join w.tempDir (TempFile.nameOf (TempFile.freshIndex w.seed w.tree))).length
    < 4096

theorem TempDirReady.exists_create {w : Workspace} {code : Text} (h : w.TempDirReady code) :
    ∃ source, TempFile.create w.seed w.tree w.home w.tempDir = .ok source ∧
      w.tree.taken source.path code = code := by
  obtain ⟨d, hfind, hdir, htaken⟩ := h.present
  have hlength := TempFile.two_lt_length_nameOf (TempFile.freshIndex w.seed w.tree)
  have hfile : w.tree.isDirectory
      (d ++ [TempFile.nameOf (TempFile.freshIndex w.seed w.tree)]) = false := by
    have hnew : w.tree.IsNew (d ++ [TempFile.nameOf (TempFile.freshIndex w.seed w.tree)]) :=
      TempFile.isNew_of_getLast? List.getLast?_concat
    rw [FileTree.isDirectory, hnew.get? (by simp)]
    rfl
  have htarget := FileTree.target_join hfind hdir (TempFile.slash_not_mem_nameOf _)
    (TempFile.nameOf_ne_nil _) (TempFile.zero_not_mem_nameOf _)
    (fun hdot => by rw [hdot] at hlength; exact absurd hlength (by decide))
    (fun hup => by rw [hup] at hlength; exact absurd hlength (by decide)) h.name h.path hfile
  simp only [TempFile.create, htarget]
  exact ⟨_, rfl, htaken⟩

/-- A name is that of the temporary file which a build is about to create. -/
def NamesTempFile (w : Workspace) (out : Text) : Prop :=
  ∃ source, TempFile.create w.seed w.tree w.home w.tempDir = .ok source ∧
    w.tree.target w.home out = .ok source.path

/-! ## A copying compiler ends well -/

theorem refusal?_arguments {source out : Text} (hsource : FileTree.precheck source = .ok ())
    (hout : FileTree.precheck out = .ok ()) :
    Tool.refusal? (Tool.arguments source out []) = none := by
  obtain ⟨hzero, _, hlength⟩ := FileTree.precheck_eq_ok_iff.1 hsource
  obtain ⟨hzero', _, hlength'⟩ := FileTree.precheck_eq_ok_iff.1 hout
  have hshort : ¬ 131072 ≤ source.length := by omega
  have hshort' : ¬ 131072 ≤ out.length := by omega
  have hflag : 0 ∉ Text.ascii "-o" := by decide
  have hflag' : ¬ 131072 ≤ (Text.ascii "-o").length := by decide
  simp [Tool.refusal?, Tool.arguments, hzero, hzero', hflag, hshort, hshort', hflag']

/-- Without a limit, a start that is not refused is a run of the compiler to its end. -/
theorem invoke_of_no_limit {w : Workspace} {o : CompileOptions} {p : Executable}
    {args : List Text} (htime : o.timeout ≤ 0) (hargs : Tool.refusal? args = none)
    (htool : ∀ reason, p.tool ≠ .broken reason) :
    w.invoke false o p args =
      ⟨(p.tool.run w args).tree, (p.tool.run w args).stdout, (p.tool.run w args).stderr, true,
        if (p.tool.run w args).status = 0 then none
        else some ⟨[], .exitStatus o.compilerName (p.tool.run w args).status⟩⟩ := by
  have hexpiry : w.expiry o p.tool args = .never := if_neg (by omega)
  have hstart : p.tool.startRefusal? args = none := by
    unfold Tool.startRefusal?
    rw [hargs]
    cases htoolIs : p.tool with
    | broken reason => exact absurd htoolIs (htool reason)
    | _ => rfl
  have hinvoke := invoke_of_start (w := w) (o := o) (by rw [hexpiry]; exact Expiry.noConfusion)
    hstart rfl
  simp only [hexpiry, ne_eq, not_true_eq_false, if_false] at hinvoke
  exact hinvoke

end Workspace

namespace Compilation

open Workspace

/-- A compile run with a copying compiler that nothing keeps from being started, and an
output that takes the C text. -/
structure Copies (c : Compilation) (w : Workspace) (path : Text) (source : TempFile.Created)
    (q : Path) : Prop where
  ready : c.Ready w ⟨path, .copy⟩ source
  written : c.written w source = c.code
  canceled : c.canceled = false
  timeout : c.options.timeout ≤ 0
  extra : c.options.extra = []
  output : w.tree.target w.home c.out = .ok q
  taken : w.tree.taken q c.code = c.code

namespace Copies

variable {c : Compilation} {w : Workspace} {path : Text} {source : TempFile.Created} {q : Path}

theorem target_placed (h : c.Copies w path source q) :
    (c.placed w source).tree.target w.home c.out = .ok q :=
  FileTree.target_of_sameDirectories h.ready.sameDirectories_placed h.output

theorem run_eq (h : c.Copies w path source q) :
    Tool.copy.run (c.placed w source) (c.args source) =
      if q = source.path then ⟨7, [], [], (c.placed w source).tree⟩
      else ⟨0, [], [], (c.placed w source).tree.write q c.code⟩ := by
  have hread : (c.placed w source).readFile source.name = .ok c.code := by
    rw [← h.written]
    exact FileTree.readFile_set h.ready.isNewIn.target (c.written w source)
  have hsame : (c.placed w source).tree.sameFile (c.placed w source).home source.name c.out =
      decide (source.path = q) := by
    have hfind : (c.placed w source).tree.find (c.placed w source).home source.name =
        .ok source.path := h.ready.find_placed
    have htarget : (c.placed w source).tree.target (c.placed w source).home c.out = .ok q :=
      h.target_placed
    simp only [FileTree.sameFile, hfind, htarget]
  have hwrite : (c.placed w source).tree.writeFile (c.placed w source).home c.out c.code =
      .ok ((c.placed w source).tree.write q c.code) :=
    FileTree.writeFile_of_target h.target_placed h.taken
  show Tool.copyFile (c.placed w source) source.name c.out = _
  by_cases hown : q = source.path
  · simp [Tool.copyFile, hread, hsame, hown]
  · simp [Tool.copyFile, hread, hsame, hwrite, hown, Ne.symm hown]

theorem ran_eq (h : c.Copies w path source q) :
    c.ran w ⟨path, .copy⟩ source =
      if q = source.path then
        ⟨(c.placed w source).tree, [], [], true,
          some ⟨[], .exitStatus c.options.compilerName 7⟩⟩
      else ⟨(c.placed w source).tree.write q c.code, [], [], true, none⟩ := by
  have hargs : Tool.refusal? (c.args source) = none := by
    rw [args, h.extra]
    exact refusal?_arguments (FileTree.exists_of_target h.ready.isNewIn.target).1
      (FileTree.exists_of_target h.output).1
  rw [h.ready.ran_of_written h.written, h.canceled,
    invoke_of_no_limit h.timeout hargs (fun _ => Tool.noConfusion), h.run_eq]
  split
  · rfl
  · rfl

/-- The temporary file is found again after the run, and so it is removed.  A copy onto
itself was refused, and then nothing is left of the run. -/
theorem outcome_eq (h : c.Copies w path source q) (hkeep : c.options.keepTemp = false) :
    c.outcome w =
      if q = source.path then
        ⟨w.tree, [], [], true, some ⟨[], .exitStatus c.options.compilerName 7⟩⟩
      else ⟨((c.placed w source).tree.write q c.code).erase source.path, [], [], true, none⟩ := by
  rw [h.ready.outcome_eq, hkeep, h.ran_eq]
  by_cases hown : q = source.path
  · have herase : (c.placed w source).tree.erase source.path = w.tree :=
      FileTree.erase_set_of_fresh _ _ h.ready.isNewIn.isNew
    simp only [if_pos hown, Workspace.discard, FileTree.removeFile, h.ready.find_placed, herase]
    rfl
  · have hfind := FileTree.find_write_set (e := .file (c.written w source))
      h.ready.isNewIn.target rfl (FileTree.not_isDirectory_of_target h.target_placed) hown c.code
    have hfind : ((c.placed w source).tree.write q c.code).find w.home source.name =
        .ok source.path := hfind
    simp only [if_neg hown, Workspace.discard, FileTree.removeFile, hfind]
    rfl

theorem readFile_copied (h : c.Copies w path source q) (hown : q ≠ source.path) :
    (((c.placed w source).tree.write q c.code).erase source.path).readFile w.home c.out =
      .ok c.code :=
  FileTree.readFile_erase_write h.target_placed
    (FileTree.not_isDirectory_of_target (FileTree.target_of_sameDirectories
      h.ready.sameDirectories_placed h.ready.isNewIn.target)) hown c.code

theorem namesTempFile_iff (h : c.Copies w path source q) (hdir : c.options.tempDir = []) :
    w.NamesTempFile c.out ↔ q = source.path := by
  have hcreate : TempFile.create w.seed w.tree w.home w.tempDir = .ok source := by
    have := h.ready.create
    rwa [sourceDir, hdir] at this
  constructor
  · rintro ⟨source', hcreate', htarget⟩
    obtain rfl : source = source' := Except.ok.inj (hcreate.symm.trans hcreate')
    exact Except.ok.inj (h.output.symm.trans htarget)
  · rintro rfl
    exact ⟨source, hcreate, h.output⟩

end Copies
end Compilation

/-! ## The three routes -/

namespace CommandLine

theorem splitFlag_ne_input (t : Text) : Word.splitFlag t ≠ .input := by
  simp only [Word.splitFlag]
  split
  · exact Word.noConfusion
  · exact Word.noConfusion

/-- What is an input to the root command is one to a subcommand, which has no
subcommands of its own. -/
theorem classify_emit {name : Text} (h : Word.classify .build name = .input) :
    Word.classify .emit name = .input := by
  unfold Word.classify at h ⊢
  split at h
  · rfl
  · cases h
  · exact absurd h (splitFlag_ne_input _)
  · exact absurd h (splitFlag_ne_input _)
  · rfl

/-- The settings of a command that was given a number of cells and an output. -/
def Command.chosen (c : Command) (n : Int) (out : Text) : Settings :=
  { c.defaults with cells := n, output := out }

/-- Choosing the number of cells alone is leaving the cell type and the entry to their
defaults, which the prelude fills in. -/
theorem code_chosen (c : Command) (n : Int) (out text : Text) :
    (Listing.ofText (c.chosen n out).prelude text).code =
      CText.render ⟨n, [], []⟩ (Source.filtered text) := rfl

section

variable {c : Command} {s : Settings} {rest : List Text} {n : Int} {numeral name : Text}

theorem read_cells (hc : c.owns .cells = true) (hn : Decimal.read64 numeral = .ok n) :
    Request.read c s [] (Text.ascii "--cells" :: numeral :: rest) =
      Request.read c { s with cells := n } [] rest := by
  have hflag : Word.classify c (Text.ascii "--cells") = .flag (Text.ascii "cells") none := by
    cases c <;> rfl
  exact Request.read_flag hflag rfl rfl (assignFor_cells hc hn s)

theorem read_output (hc : c.owns .output = true) (out : Text) :
    Request.read c s [] (Text.ascii "-o" :: out :: rest) =
      Request.read c { s with output := out } [] rest := by
  have hflag : Word.classify c (Text.ascii "-o") = .flag (Text.ascii "o") none := by
    cases c <;> rfl
  exact Request.read_flag hflag rfl rfl (assignFor_output hc out s)

theorem read_name (h : Word.classify c name = .input) :
    Request.read c s [] [name] = .ok ⟨c, s, [name]⟩ := by
  rw [Request.read_input h]
  rfl

theorem read_chosen (hcells : c.owns .cells = true) (houtput : c.owns .output = true)
    (hn : Decimal.read64 numeral = .ok n) (hname : Word.classify c name = .input) (out : Text) :
    Request.read c c.defaults [] [Text.ascii "--cells", numeral, Text.ascii "-o", out, name] =
      .ok ⟨c, c.chosen n out, [name]⟩ := by
  rw [read_cells hcells hn, read_output houtput, read_name hname]
  rfl

theorem run_of_request {w : Workspace} {sink : Sink} {args : List Text} {r : Request}
    (h : Request.ofArguments args = .ok r) : run w sink args = perform w sink r := by
  rw [run, h]

end

section

variable {w : Workspace} {n : Int} {numeral name out text path : Text} {q : Path}

theorem run_print (hn : Decimal.read64 numeral = .ok n) (hname : Word.classify .emit name = .input)
    (hread : w.readFile name = .ok text)
    (hgood : (Listing.ofText ⟨n, [], []⟩ text).wellFormed = true) :
    run w .working [Text.ascii "translate", Text.ascii "--cells", numeral, name] =
      .success w.tree (CText.render ⟨n, [], []⟩ (Source.filtered text)) [] := by
  have hrest : Request.read .emit Command.emit.defaults [] [Text.ascii "--cells", numeral, name] =
      .ok ⟨.emit, Command.emit.chosen n [], [name]⟩ := by
    rw [read_cells rfl hn, read_name hname]
    rfl
  rw [run_of_request (Request.read_command rfl hrest), perform_of_input rfl,
    ← code_chosen .emit n [] text]
  exact runEmit_print (s := Command.emit.chosen n []) hread hgood rfl .working

theorem run_store (hn : Decimal.read64 numeral = .ok n) (hname : Word.classify .emit name = .input)
    (hread : w.readFile name = .ok text)
    (hgood : (Listing.ofText ⟨n, [], []⟩ text).wellFormed = true) {tree : FileTree}
    (hwrite : w.tree.writeFile w.home out (CText.render ⟨n, [], []⟩ (Source.filtered text)) =
      .ok tree) :
    run w .working
        [Text.ascii "translate", Text.ascii "--cells", numeral, Text.ascii "-o", out, name] =
      .success tree [] [] := by
  obtain ⟨q, hq, _⟩ := FileTree.exists_of_writeFile hwrite
  rw [run_of_request (Request.read_command rfl (read_chosen rfl rfl hn hname out)),
    perform_of_input rfl]
  exact runEmit_store (s := Command.emit.chosen n out) hread hgood
    (FileTree.name_ne_nil_of_target hq) hwrite .working

theorem runBuild_of_success {s : Settings} {tree : FileTree} {stdout stderr : Text} {started : Bool}
    (h : w.build false name s.output s.prelude s.compileOptions =
      ⟨tree, stdout, stderr, started, none⟩) (sink : Sink) :
    runBuild w sink s name = ⟨0, sink.deliver stdout, stderr, tree, started⟩ := by
  simp only [runBuild, h]

theorem runBuild_of_failure {s : Settings} {tree : FileTree} {stdout stderr : Text}
    {started : Bool} {f : Failure Cause}
    (h : w.build false name s.output s.prelude s.compileOptions =
      ⟨tree, stdout, stderr, started, some f⟩) (sink : Sink) :
    (runBuild w sink s name).status ≠ 0 ∧ (runBuild w sink s name).tree = tree := by
  simp only [runBuild, h]
  exact ⟨status_failed _ _ _, rfl⟩

/-- A build goes through every stage without a failure unless its output is the temporary
file that it has just created. -/
theorem run_build (hn : Decimal.read64 numeral = .ok n) (hname : Word.classify .build name = .input)
    (hread : w.readFile name = .ok text)
    (hgood : (Listing.ofText ⟨n, [], []⟩ text).wellFormed = true)
    {code : Text} (hcode : code = CText.render ⟨n, [], []⟩ (Source.filtered text))
    {tree : FileTree} (hwrite : w.tree.writeFile w.home out code = .ok tree)
    (hgcc : w.lookup (Text.ascii "gcc") = .ok ⟨path, .copy⟩) (htemp : w.TempDirReady code) :
    let built := run w .working [Text.ascii "--cells", numeral, Text.ascii "-o", out, name]
    (¬ w.NamesTempFile out → built.status = 0 ∧ built.tree.readFile w.home out = .ok code) ∧
      (w.NamesTempFile out → built.status ≠ 0 ∧ built.tree = w.tree) := by
  intro built
  let c : Compilation := ⟨code, out, ⟨Text.ascii "gcc", [], [], false, 0⟩, false⟩
  obtain ⟨q, hq, htaken, _⟩ := FileTree.exists_of_writeFile hwrite
  obtain ⟨source, hcreate, hwritten⟩ := htemp.exists_create
  have hcopies : c.Copies w path source q :=
    ⟨⟨hgcc, hcreate⟩, hwritten, rfl, Int.le_refl 0, rfl, hq, htaken⟩
  have hbuilt : built = runBuild w .working (Command.build.chosen n out) name := by
    show run w .working _ = _
    rw [run_of_request (read_chosen rfl rfl hn hname out), perform_of_input rfl]
  have hbuild : w.build false name out (Command.build.chosen n out).prelude
      (Command.build.chosen n out).compileOptions =
      (c.outcome w).within (Text.ascii "compile") := by
    rw [Workspace.build_of_wellFormed (p := (Command.build.chosen n out).prelude) hread hgood,
      List.isEmpty_eq_false_iff.2 (FileTree.name_ne_nil_of_target hq)]
    show (w.compile false (CText.render ⟨n, [], []⟩ (Source.filtered text)) _ _).within _ = _
    rw [← hcode]
    rfl
  rw [hcopies.outcome_eq rfl] at hbuild
  rw [hcopies.namesTempFile_iff rfl, hbuilt]
  constructor
  · intro hown
    rw [if_neg hown] at hbuild
    rw [runBuild_of_success (s := Command.build.chosen n out) hbuild .working]
    exact ⟨rfl, hcopies.readFile_copied hown⟩
  · intro hown
    rw [if_pos hown] at hbuild
    exact runBuild_of_failure (s := Command.build.chosen n out) hbuild .working

end

/-- The C text of a program, whichever way it is asked for: printed, stored, or built with
a compiler that copies.  The three runs end with status zero, and what they leave is what
the prelude with `n` cells and two defaults gives.  The number of cells is any signed
number of 64 bits, also one that the prelude replaces, and the output may be the input
itself.  The one output that a build cannot write is its own temporary file; it fails
then and leaves no trace. -/
theorem routes_agree (w : Workspace) (n : Int) (name out text path : Text)
    (hlow : -(Decimal.signedLimit : Int) ≤ n) (hhigh : n < Decimal.signedLimit)
    (hname : Word.classify .build name = .input)
    (hread : w.readFile name = .ok text)
    (hgood : (Listing.ofText ⟨n, [], []⟩ text).wellFormed = true)
    (hout : ∃ tree, w.tree.writeFile w.home out
      (CText.render ⟨n, [], []⟩ (Source.filtered text)) = .ok tree)
    (hgcc : w.lookup (Text.ascii "gcc") = .ok ⟨path, .copy⟩)
    (htemp : w.TempDirReady (CText.render ⟨n, [], []⟩ (Source.filtered text))) :
    let code := CText.render ⟨n, [], []⟩ (Source.filtered text)
    Decimal.read64 (Decimal.integer n) = .ok n ∧
    ∀ numeral, Decimal.read64 numeral = .ok n →
      let cells := [Text.ascii "--cells", numeral]
      let printed := run w .working ([Text.ascii "translate"] ++ cells ++ [name])
      let stored := run w .working
        ([Text.ascii "translate"] ++ cells ++ [Text.ascii "-o", out, name])
      let built := run w .working (cells ++ [Text.ascii "-o", out, name])
      (printed.status = 0 ∧ printed.stdout = code) ∧
      (stored.status = 0 ∧ stored.tree.readFile w.home out = .ok code) ∧
      (¬ w.NamesTempFile out → built.status = 0 ∧ built.tree.readFile w.home out = .ok code) ∧
      (w.NamesTempFile out → built.status ≠ 0 ∧ built.tree = w.tree) := by
  intro code
  refine ⟨Decimal.read64_integer hlow hhigh, fun numeral hn => ?_⟩
  intro cells printed stored built
  obtain ⟨tree, hwrite⟩ := hout
  obtain ⟨q, hq, _, htree⟩ := FileTree.exists_of_writeFile hwrite
  have hprinted : printed = .success w.tree code [] :=
    run_print hn (classify_emit hname) hread hgood
  have hstored : stored = .success tree [] [] :=
    run_store hn (classify_emit hname) hread hgood hwrite
  rw [hprinted, hstored, htree]
  exact ⟨⟨rfl, rfl⟩, ⟨rfl, FileTree.readFile_write hq code⟩,
    run_build hn hname hread hgood rfl hwrite hgcc htemp⟩

/-- A number of cells below zero, written with zeros in front, and an output that is the
input. -/
theorem routes_agree_overwriting :
    let w := (Workspace.fresh [Text.ascii "w"] 0).put (Text.ascii "a") (Text.ascii "x+[-]")
    let code := CText.render ⟨-5, [], []⟩ (Text.ascii "+[-]")
    let cells := [Text.ascii "--cells", Text.ascii "-05"]
    let output := [Text.ascii "-o", Text.ascii "a", Text.ascii "a"]
    (run w .working ([Text.ascii "translate"] ++ cells ++ [Text.ascii "a"])).stdout = code ∧
    (run w .working ([Text.ascii "translate"] ++ cells ++ output)).tree.readFile w.home
      (Text.ascii "a") = .ok code ∧
    (run w .working (cells ++ output)).tree.readFile w.home (Text.ascii "a") = .ok code := by
  intro w code cells output
  have htaken : ∀ p content, w.tree.taken p content = content :=
    FileTree.taken_of_no_devices (by decide +kernel)
  have htemp : w.TempDirReady (CText.render ⟨-5, [], []⟩ (Source.filtered (Text.ascii "x+[-]"))) :=
    ⟨⟨[Text.ascii "w", Text.ascii "tmp"], rfl, by decide, htaken _ _⟩, by decide +kernel,
      by decide +kernel⟩
  have hout : w.tree.target w.home (Text.ascii "a") = .ok [Text.ascii "w", Text.ascii "a"] := rfl
  have hnot : ¬ w.NamesTempFile (Text.ascii "a") := by
    rintro ⟨source, hcreate, htarget⟩
    have hpath := (TempFile.isNewIn_of_create hcreate).isPath
    obtain hsource : [Text.ascii "w", Text.ascii "a"] = source.path := Except.ok.inj htarget
    rw [← hsource] at hpath
    exact absurd hpath (by decide)
  obtain ⟨_, hroutes⟩ := routes_agree w (-5) (Text.ascii "a") (Text.ascii "a") (Text.ascii "x+[-]")
    (Text.ascii "/w/bin/gcc") (by decide) (by decide) rfl rfl (by decide)
    ⟨_, FileTree.writeFile_of_target hout (htaken _ _)⟩ rfl htemp
  obtain ⟨⟨_, hprinted⟩, ⟨_, hstored⟩, hbuilt, _⟩ := hroutes (Text.ascii "-05") (by decide)
  exact ⟨hprinted, hstored, (hbuilt hnot).2⟩

/-- A build that is to write its own temporary file fails, although the same output can be
stored. -/
theorem build_refuses_own_temp_file :
    let w := (Workspace.fresh [Text.ascii "w"] 0).put (Text.ascii "a") (Text.ascii "+")
    let own := Text.ascii "tmp/turbobrain-1000000000000000000.c"
    let output := [Text.ascii "-o", own, Text.ascii "a"]
    (run w .working (Text.ascii "translate" :: output)).status = 0 ∧
      ((run w .working (Text.ascii "translate" :: output)).tree.readFile w.home own).toOption =
        some (CText.render .standard (Text.ascii "+")) ∧
      (run w .working output).status = 1 ∧ (run w .working output).tree = w.tree := by
  intro w own output
  exact ⟨by decide +kernel, by decide +kernel, by decide +kernel, by decide +kernel⟩

end CommandLine
end TapeC
