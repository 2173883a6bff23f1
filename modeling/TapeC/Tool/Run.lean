import TapeC.Workspace

/-!
Runs of a compiler.

A run has a status, what was printed on the two channels and the tree it leaves.
Status zero means success, and a run ended by a signal has status minus one.
-/

namespace TapeC
namespace Tool

structure Run where
  status : Int
  stdout : Text
  stderr : Text
  tree : FileTree
  deriving DecidableEq, Repr

/-- A run that a signal ends before the tool has done anything. -/
def killed (w : Workspace) : Run := ⟨-1, [], [], w.tree⟩

/-- Copy a file.  A file is not copied onto itself. -/
def copyFile (w : Workspace) (source out : Text) : Run :=
  match w.readFile source with
  | .error _ => ⟨7, [], [], w.tree⟩
  | .ok content =>
    if w.tree.sameFile w.home source out then ⟨7, [], [], w.tree⟩
    else match w.tree.writeFile w.home out content with
      | .ok tree => ⟨0, [], [], tree⟩
      | .error failed => ⟨7, [], [], failed.tree⟩

def run (w : Workspace) (args : List Text) : Tool → Run
  | copy =>
    match args with
    | source :: _ :: out :: _ => copyFile w source out
    | _ => ⟨0, [], [], w.tree⟩
  | showArguments =>
    ⟨0, args.flatMap fun a => Byte.openBracket :: a ++ [Byte.closeBracket, Byte.newline], [], w.tree⟩
  | exitWith => ⟨requestedStatus args, Text.ascii "out\n", Text.ascii "err\n", w.tree⟩
  | crash => killed w
  | removeSource =>
    match w.tree.removeFile w.home (args.headD []) with
    | .ok tree => ⟨requestedStatus args, [], [], tree⟩
    | .error _ => ⟨requestedStatus args, [], [], w.tree⟩
  | sleep => ⟨0, [], [], w.tree⟩
  | broken _ => killed w

/-- A run that was started, as far as its limit lets it come. -/
def runUntil (e : Expiry) (w : Workspace) (args : List Text) (tool : Tool) : Run :=
  match e with
  | .duringRun true => { tool.run w args with status := -1 }
  | .duringRun false => killed w
  | _ => tool.run w args

end Tool
end TapeC
