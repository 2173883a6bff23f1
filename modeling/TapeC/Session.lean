import TapeC.CommandLine.Run

/-!
Sequences of steps in one workspace.

A step changes files by hand, lists a program, compiles, builds or runs an
argument list.  The only thing that one step hands on to the next is the tree.
-/

namespace TapeC

inductive Step where
  | write (name content : Text)
  | makeDirectory (name : Text)
  | remove (name : Text)
  | list (name : Text) (p : Prelude)
  | compile (code out : Text) (o : CompileOptions) (canceled : Bool)
  | build (name out : Text) (p : Prelude) (o : CompileOptions) (canceled : Bool)
  | run (args : List Text) (sink : CommandLine.Sink)
  deriving DecidableEq, Repr

/-- What a step shows besides the files. -/
inductive Answer where
  | done
  | listed (listing : Option Listing) (failure : Option (Failure Cause))
  | compiled (outcome : Outcome)
  | exited (exit : CommandLine.Exit)
  deriving DecidableEq, Repr

namespace Workspace

/-- Carry out one step. -/
def step (w : Workspace) : Step → Workspace × Answer
  | .write name content => (w.put name content, .done)
  | .makeDirectory name =>
    let start := FileTree.origin w.home name
    ({ w with tree := w.tree.ensureDirectory start (FileTree.parts name) }, .done)
  | .remove name => (w.remove name, .done)
  | .list name p =>
    match w.load p name with
    | .error f => (w, .listed none (some f))
    | .ok (listing, report) => (w, .listed (some listing) report)
  | .compile code out o canceled =>
    let r := w.compile canceled code out o
    ({ w with tree := r.tree }, .compiled r)
  | .build name out p o canceled =>
    let r := w.build canceled name out p o
    ({ w with tree := r.tree }, .compiled r)
  | .run args sink =>
    let r := CommandLine.run w sink args
    ({ w with tree := r.tree }, .exited r)

/-- Carry out steps one after the other, with the workspace after each. -/
def steps (w : Workspace) : List Step → List (Workspace × Answer)
  | [] => []
  | s :: rest =>
    let r := w.step s
    r :: r.1.steps rest

end Workspace
end TapeC
