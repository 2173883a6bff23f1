import TapeC.Listing
import TapeC.TempFile
import TapeC.Tool.Run

/-!
From a program's text to an executable.

`compile` writes the C text to a temporary file and runs a compiler on it.  Its
stages come in a fixed order, and the first that fails decides the outcome: the
compiler is looked up, the temporary file is created and then written, the run is
started and watched, and last the temporary file is removed.  `build` puts reading and
bracket analysis in front, so no compiler is ever looked up for a program that
is not in order.
-/

namespace TapeC

/-- What a compile run leaves behind. -/
structure Outcome where
  tree : FileTree
  stdout : Text
  stderr : Text
  /-- Whether a compiler was started. -/
  started : Bool
  failure : Option (Failure Cause)
  deriving DecidableEq, Repr

namespace Outcome

/-- No compiler was started. -/
def refused (tree : FileTree) (failure : Failure Cause) : Outcome :=
  ⟨tree, [], [], false, some failure⟩

def within (note : Text) (o : Outcome) : Outcome :=
  { o with failure := o.failure.map (Failure.within note) }

end Outcome

structure CompileOptions where
  /-- The compiler; `gcc` if empty. -/
  compiler : Text
  extra : List Text
  /-- The directory of the temporary file; the workspace's own if empty. -/
  tempDir : Text
  keepTemp : Bool
  /-- A limit in nanoseconds; there is none unless it is positive. -/
  timeout : Int
  deriving DecidableEq, Repr

namespace CompileOptions

def compilerName (o : CompileOptions) : Text :=
  if o.compiler.isEmpty then Text.ascii "gcc" else o.compiler

end CompileOptions

namespace Workspace

/-- When the limit of a run fires, if it has one. -/
def expiry (w : Workspace) (o : CompileOptions) (tool : Tool) (args : List Text) : Expiry :=
  if 0 < o.timeout then w.clock o.timeout tool args else .never

/-- Run a compiler on a C file.  A canceled build starts nothing, and neither does
one whose limit is over before a start is possible.  For a run that did not end with
status zero, a limit that is over counts before the status: a run that was cut off
has one too. -/
def invoke (w : Workspace) (canceled : Bool) (o : CompileOptions) (p : Executable)
    (args : List Text) : Outcome :=
  let failure (cause : Cause) := (Failure.of cause).within (Text.ascii "run " ++ o.compilerName)
  let expiry := w.expiry o p.tool args
  if canceled then .refused w.tree (failure .canceled)
  else if expiry = .beforeStart then .refused w.tree (failure .deadlineExceeded)
  else match p.tool.startRefusal? args with
    | some reason => .refused w.tree (failure (.file ⟨.starting, p.path, reason⟩))
    | none =>
      let r := p.tool.runUntil expiry w args
      ⟨r.tree, r.stdout, r.stderr, true,
        if r.status = 0 then none
        else if expiry ≠ .never then some (failure .deadlineExceeded)
        else some (Failure.of (.exitStatus o.compilerName r.status))⟩

/-- Remove the temporary file of a run.  That it is gone already is reported only
if nothing else went wrong. -/
def discard (home : Path) (source : Text) (o : Outcome) : Outcome :=
  match o.tree.removeFile home source with
  | .ok tree => { o with tree := tree }
  | .error error =>
    let gone := (Failure.of (.file error)).within (Text.ascii "remove temp file")
    { o with failure := o.failure.or (some gone) }

/-- Write a C text to its temporary file and run a compiler on that. -/
def runOn (w : Workspace) (canceled : Bool) (o : CompileOptions) (compiler : Executable)
    (source : TempFile.Created) (code out : Text) : Outcome :=
  match source.tree.fill source.path source.name code with
  | .error failed =>
    .refused failed.tree ((Failure.of (.file failed.error)).within (Text.ascii "write temp file"))
  | .ok tree =>
    { w with tree := tree }.invoke canceled o compiler (Tool.arguments source.name out o.extra)

/-- Compile a C text into the executable `out`. -/
def compile (w : Workspace) (canceled : Bool) (code out : Text) (o : CompileOptions) : Outcome :=
  match w.lookup o.compilerName with
  | .error fault =>
    .refused w.tree <| (Failure.of .compilerUnavailable).within <|
      o.compilerName ++ Text.ascii ": exec: " ++ Text.quoted o.compilerName ++ Text.ascii ": " ++
        fault.message
  | .ok compiler =>
    let dir := if o.tempDir.isEmpty then w.tempDir else o.tempDir
    match TempFile.create w.seed w.tree w.home dir with
    | .error error =>
      .refused w.tree ((Failure.of (.file error)).within (Text.ascii "create temp file"))
    | .ok source =>
      let ran := w.runOn canceled o compiler source code out
      if o.keepTemp then ran else discard w.home source.name ran

/-- The listing of a file, with what is wrong with its brackets. -/
def load (w : Workspace) (p : Prelude) (name : Text) :
    Except (Failure Cause) (Listing × Option (Failure Cause)) :=
  match w.readFile name with
  | .error error => .error ((Failure.of (.file error)).within (Text.ascii "read file"))
  | .ok text =>
    let listing := Listing.ofText p text
    .ok (listing, Diagnostic.report name text listing)

/-- The name of the executable if none is given. -/
def defaultOutput : Text := Text.ascii "a.out"

/-- Build the executable `out` from the program in a file. -/
def build (w : Workspace) (canceled : Bool) (name out : Text) (p : Prelude)
    (o : CompileOptions) : Outcome :=
  match w.load p name with
  | .error failure | .ok (_, some failure) =>
    .refused w.tree (failure.within (Text.ascii "translate"))
  | .ok (listing, none) =>
    let out := if out.isEmpty then defaultOutput else out
    (w.compile canceled listing.code out o).within (Text.ascii "compile")

end Workspace
end TapeC
