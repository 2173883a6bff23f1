import TapeC.Text.Decimal
import TapeC.Text.Quoted

/-!
What can go wrong, and how it is reported.

A failure is a cause together with notes on what was being attempted, outermost
first.  The cause stays available under any number of notes, so a caller can
still tell an unbalanced program from a missing compiler.
-/

namespace TapeC

/-- A refusal of the operating system. -/
inductive SystemError where
  | notFound
  | notDirectory
  | isDirectory
  | nameTooLong
  | invalidArgument
  | permissionDenied
  | badFormat
  | argumentsTooLong
  | noSpace
  deriving DecidableEq, Repr

namespace SystemError

def message : SystemError → Text
  | notFound => Text.ascii "no such file or directory"
  | notDirectory => Text.ascii "not a directory"
  | isDirectory => Text.ascii "is a directory"
  | nameTooLong => Text.ascii "file name too long"
  | invalidArgument => Text.ascii "invalid argument"
  | permissionDenied => Text.ascii "permission denied"
  | badFormat => Text.ascii "exec format error"
  | argumentsTooLong => Text.ascii "argument list too long"
  | noSpace => Text.ascii "no space left on device"

end SystemError

/-- What was done with a name when the system refused. -/
inductive FileAction where
  | opening
  | reading
  | writing
  | removing
  | inspecting
  | starting
  deriving DecidableEq, Repr

namespace FileAction

def word : FileAction → Text
  | opening => Text.ascii "open"
  | reading => Text.ascii "read"
  | writing => Text.ascii "write"
  | removing => Text.ascii "remove"
  | inspecting => Text.ascii "stat"
  | starting => Text.ascii "fork/exec"

end FileAction

/-- A refused action on a named file. -/
structure FileError where
  action : FileAction
  name : Text
  reason : SystemError
  deriving DecidableEq, Repr

def FileError.message (e : FileError) : Text :=
  e.action.word ++ Text.ascii " " ++ e.name ++ Text.ascii ": " ++ e.reason.message

/-- Why a program was not built. -/
inductive Cause where
  /-- Brackets at these positions have no partner. -/
  | unbalanced (positions : List Int)
  | compilerUnavailable
  /-- The compiler ran and ended with a status that means failure. -/
  | exitStatus (compiler : Text) (status : Int)
  | canceled
  | deadlineExceeded
  | file (error : FileError)
  deriving DecidableEq, Repr

namespace Cause

/-- The positions of an unbalanced program as they stand in its message. -/
def positionList (positions : List Int) : Text :=
  List.intercalate [Byte.comma] (positions.map fun p => Byte.space :: Decimal.integer p)

def message : Cause → Text
  | unbalanced positions => Text.ascii "unbalanced brackets at" ++ positionList positions
  | compilerUnavailable => Text.ascii "compiler unavailable"
  | exitStatus compiler status =>
    compiler ++ Text.ascii " failed with exit code " ++ Decimal.integer status
  | canceled => Text.ascii "context canceled"
  | deadlineExceeded => Text.ascii "context deadline exceeded"
  | file error => error.message

end Cause

/-- A cause under notes on what was being attempted, outermost first. -/
structure Failure (ε : Type) where
  notes : List Text
  cause : ε
  deriving DecidableEq, Repr

namespace Failure

variable {ε δ : Type}

def of (cause : ε) : Failure ε := ⟨[], cause⟩

/-- Put a note in front.  An empty note says nothing and is left out. -/
def within (note : Text) (f : Failure ε) : Failure ε :=
  if note.isEmpty then f else { f with notes := note :: f.notes }

def map (g : ε → δ) (f : Failure ε) : Failure δ := ⟨f.notes, g f.cause⟩

/-- The notes and the cause, joined by a colon and a space. -/
def message (render : ε → Text) (f : Failure ε) : Text :=
  f.notes.flatMap (· ++ Text.ascii ": ") ++ render f.cause

@[simp] theorem cause_within (note : Text) (f : Failure ε) :
    (f.within note).cause = f.cause := by
  unfold within
  split <;> rfl

theorem message_within (render : ε → Text) (note : Text) (f : Failure ε) (h : note ≠ []) :
    (f.within note).message render = note ++ Text.ascii ": " ++ f.message render := by
  simp [within, message, h]

end Failure
end TapeC
