import TapeC.Failure

/-!
Compilers, by what they do.

A compiler is started with the C file, `-o`, the output file and any extra
arguments.  The tools here do one thing each.  How long that takes is not theirs to
say: a limit fires before a tool is started, while it runs, or not at all, and any
tool can be cut off, whatever its own status would have been.
-/

namespace TapeC

/-- What a compiler does when it is started. -/
inductive Tool where
  /-- Copies the C file to the output file; status seven if that cannot be done. -/
  | copy
  /-- Prints each argument in brackets on a line. -/
  | showArguments
  /-- Prints a line on each channel and ends with the status that the first extra
  argument gives. -/
  | exitWith
  /-- Ends by a signal. -/
  | crash
  /-- Removes the C file and ends with the status that the first extra argument
  gives. -/
  | removeSource
  /-- Waits and does nothing else. -/
  | sleep
  /-- Cannot be started. -/
  | broken (reason : SystemError)
  deriving DecidableEq, Repr

/-- When the limit of a run fires. -/
inductive Expiry where
  | beforeStart
  /-- While the tool runs, which has or has not done its work by then. -/
  | duringRun (done : Bool)
  | never
  deriving DecidableEq, Repr

namespace Tool

/-- The arguments of a compiler: the C file, the output and the extra ones. -/
def arguments (source out : Text) (extra : List Text) : List Text :=
  source :: Text.ascii "-o" :: out :: extra

/-- The refusals of an argument list before any tool is started: a zero byte, and
an argument of 128 KiB or more. -/
def refusal? (args : List Text) : Option SystemError :=
  if args.any (·.contains 0) then some .invalidArgument
  else if args.any (131072 ≤ ·.length) then some .argumentsTooLong
  else none

/-- Why a tool cannot be started on an argument list. -/
def startRefusal? (tool : Tool) (args : List Text) : Option SystemError :=
  match refusal? args, tool with
  | some reason, _ | none, broken reason => some reason
  | none, _ => none

/-- The status that the fourth argument asks for.  A status is one byte; no
argument means zero, and one that is no number means two. -/
def requestedStatus (args : List Text) : Int :=
  match args[3]? with
  | none | some [] => 0
  | some t => if t.all Decimal.isDigit then
      (t.foldl (fun acc b => acc * 10 + Decimal.digitValue b) 0 % 256 : Nat) else 2

end Tool
end TapeC
