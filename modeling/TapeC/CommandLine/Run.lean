import TapeC.CommandLine.Request
import TapeC.Text.Blank

/-!
Running an argument list in a workspace.

A run ends with status zero or one.  A failure is printed on the error channel
after what the run itself printed there, with the subcommand's word as the
outermost note.
-/

namespace TapeC
namespace CommandLine

/-- Where standard output goes: to a reader, or to a device that takes nothing. -/
inductive Sink where
  | working
  | full
  deriving DecidableEq, Repr

namespace Sink

/-- What arrives when a text is written. -/
def deliver : Sink → Text → Text
  | working, t => t
  | full, _ => []

end Sink

inductive Problem where
  | usage (error : UsageError)
  | cause (cause : Cause)
  deriving DecidableEq, Repr

def Problem.message : Problem → Text
  | usage error => error.message
  | cause c => c.message

/-- How a run ended. -/
structure Exit where
  status : Nat
  stdout : Text
  stderr : Text
  tree : FileTree
  /-- Whether a compiler was started. -/
  started : Bool
  deriving DecidableEq, Repr

namespace Exit

def success (tree : FileTree) (stdout stderr : Text) : Exit := ⟨0, stdout, stderr, tree, false⟩

/-- A run that printed `stderr` and then failed without starting a compiler. -/
def failed (tree : FileTree) (stderr : Text) (f : Failure Problem) : Exit :=
  ⟨1, [], stderr ++ Text.ascii "error: " ++ f.message Problem.message ++ [Byte.newline], tree, false⟩

end Exit

/-- The prelude of a command: only the number of cells can be chosen. -/
def Settings.prelude (s : Settings) : Prelude := { Prelude.standard with cells := s.cells }

def Settings.compileOptions (s : Settings) : CompileOptions where
  compiler := s.compiler
  extra := Text.words s.options
  tempDir := []
  keepTemp := s.keepTemp
  timeout := s.timeout

/-- Build an executable. -/
def runBuild (w : Workspace) (sink : Sink) (s : Settings) (name : Text) : Exit :=
  let o := w.build false name s.output s.prelude s.compileOptions
  match o.failure with
  | none => ⟨0, sink.deliver o.stdout, o.stderr, o.tree, o.started⟩
  | some f =>
    let noted := (f.map Problem.cause).within (Text.ascii "build " ++ name)
    { Exit.failed o.tree o.stderr noted with
      stdout := sink.deliver o.stdout
      started := o.started }

/-- Print the C text, or store it in a file if an output is named. -/
def runEmit (w : Workspace) (sink : Sink) (s : Settings) (name : Text) : Exit :=
  let fail (tree : FileTree) (note : Text) (f : Failure Cause) : Exit :=
    .failed tree [] (((f.map Problem.cause).within note).within Command.emit.word)
  match w.load s.prelude name with
  | .error f | .ok (_, some f) => fail w.tree (Text.ascii "translate " ++ name) f
  | .ok (listing, none) =>
    if s.output.isEmpty then .success w.tree (sink.deliver listing.code) []
    else match w.tree.writeFile w.home s.output listing.code with
      | .error failed =>
        fail failed.tree (Text.ascii "write output") (Failure.of (.file failed.error))
      | .ok tree => .success tree [] []

/-- Print the program without its comments; unmatched brackets are only warned
about. -/
def runFilter (w : Workspace) (sink : Sink) (s : Settings) (name : Text) : Exit :=
  let fail (stderr note : Text) (f : Failure Cause) : Exit :=
    .failed w.tree stderr (((f.map Problem.cause).within note).within Command.filter.word)
  match w.load s.prelude name with
  | .error f => fail [] (Text.ascii "filter " ++ name) f
  | .ok (listing, report) =>
    let warning := match report with
      | none => []
      | some f => Text.ascii "warning: " ++ f.message Cause.message ++ [Byte.newline]
    match sink with
    | .working => .success w.tree (listing.filtered ++ [Byte.newline]) warning
    | .full =>
      fail warning (Text.ascii "write")
        (Failure.of (.file ⟨.writing, Text.ascii "/dev/stdout", .noSpace⟩))

/-- Carry out a request. -/
def perform (w : Workspace) (sink : Sink) (r : Request) : Exit :=
  let refuse (error : UsageError) : Exit :=
    .failed w.tree [] ((Failure.of (.usage error)).within r.command.word)
  match r.inputs with
  | [] => refuse .noInput
  | [name] =>
    match r.command with
    | .build => runBuild w sink r.settings name
    | .emit => runEmit w sink r.settings name
    | .filter => runFilter w sink r.settings name
  | inputs => refuse (.tooManyInputs inputs)

/-- Run an argument list. -/
def run (w : Workspace) (sink : Sink) (args : List Text) : Exit :=
  match Request.ofArguments args with
  | .error f => .failed w.tree [] (f.map Problem.usage)
  | .ok r => perform w sink r

end CommandLine
end TapeC
