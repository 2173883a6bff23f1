import TapeC.CommandLine.Flag

/-!
What an argument list asks for.

Arguments are taken from left to right by the current command.  The word of a
subcommand hands the rest over to it and forgets the inputs seen so far.
-/

namespace TapeC
namespace CommandLine

structure Request where
  command : Command
  settings : Settings
  inputs : List Text
  deriving DecidableEq, Repr

inductive FlagFault where
  | unknown
  | valueRequired
  | refused (fault : ValueFault)
  deriving DecidableEq, Repr

def FlagFault.message : FlagFault → Text
  | unknown => Text.ascii "no such flag"
  | valueRequired => Text.ascii "flag value is required"
  | refused fault => fault.message

/-- What is wrong with an argument list. -/
inductive UsageError where
  | flag (argument : Text) (fault : FlagFault)
  | noInput
  | tooManyInputs (inputs : List Text)
  deriving DecidableEq, Repr

def UsageError.message : UsageError → Text
  | flag argument fault =>
    Text.ascii "parse flag: " ++ argument ++ Text.ascii ": " ++ fault.message
  | noInput => Text.ascii "no input file"
  | tooManyInputs inputs =>
    Text.ascii "too many input files: " ++ List.intercalate [Byte.space] inputs

/-- One argument, as the current command sees it. -/
inductive Word where
  | flag (name : Text) (value : Option Text)
  | command (c : Command)
  /-- Everything after it is an input. -/
  | separator
  | input
  deriving DecidableEq, Repr

namespace Word

/-- A flag's argument without its dashes: the name ends at the first equals sign
or space, and what follows is the value. -/
def splitFlag (t : Text) : Word :=
  let isEnd : UInt8 → Bool := fun b => b == Byte.equals || b == Byte.space
  match t.dropWhile (!isEnd ·) with
  | [] => .flag t none
  | _ :: value => .flag (t.takeWhile (!isEnd ·)) (some value)

/-- At most two leading dashes are dropped from a flag. -/
def classify (c : Command) (argument : Text) : Word :=
  match argument with
  | [Byte.minus] => .input
  | [Byte.minus, Byte.minus] => .separator
  | Byte.minus :: Byte.minus :: rest => splitFlag rest
  | Byte.minus :: rest => splitFlag rest
  | _ =>
    match c.sub? argument with
    | some s => .command s
    | none => .input

end Word

namespace Request

/-- Read arguments for a command that has the given settings and inputs so far. -/
def read (c : Command) (s : Settings) (inputs : List Text) :
    List Text → Except (Failure UsageError) Request
  | [] => .ok ⟨c, s, inputs⟩
  | a :: rest =>
    match Word.classify c a with
    | .input => read c s (inputs ++ [a]) rest
    | .separator => .ok ⟨c, s, inputs ++ rest⟩
    | .command sub =>
      (read sub sub.defaults [] rest).mapError (Failure.within sub.word)
    | .flag name value =>
      let refuse (fault : FlagFault) := .error (Failure.of (.flag a fault))
      match Flag.ofName? name with
      | none => refuse .unknown
      | some f =>
        match value with
        | some v =>
          match f.assignFor c v s with
          | .ok s => read c s inputs rest
          | .error fault => refuse (.refused fault)
        | none =>
          if f.isSwitch then
            match f.assignFor c [] s with
            | .ok s => read c s inputs rest
            | .error fault => refuse (.refused fault)
          else
            match rest with
            | [] => refuse .valueRequired
            | v :: rest =>
              match f.assignFor c v s with
              | .ok s => read c s inputs rest
              | .error fault => refuse (.refused fault)

def ofArguments (args : List Text) : Except (Failure UsageError) Request :=
  read .build Command.build.defaults [] args

end Request
end CommandLine
end TapeC
