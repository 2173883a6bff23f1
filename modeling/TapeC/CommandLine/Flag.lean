import TapeC.Build
import TapeC.Text.Duration

/-!
Commands, their flags and the values that flags take.

Every command keeps its own values.  A subcommand also accepts the flags of the
root command, checks their values and then has no use for them.  The flag `verbose`
asks for a log of the run.  A log tells the time, so it is no part of what a run
prints here, and no command reads the flag.
-/

namespace TapeC
namespace CommandLine

inductive Command where
  /-- The root command: build an executable. -/
  | build
  /-- Print or store the C text. -/
  | emit
  /-- Print the program without its comments. -/
  | filter
  deriving DecidableEq, Repr

inductive Flag where
  | verbose
  | cells
  | output
  | compiler
  | options
  | keepTemp
  | timeout
  deriving DecidableEq, Repr

/-- The values of the flags of one command. -/
structure Settings where
  verbose : Bool
  cells : Int
  output : Text
  compiler : Text
  options : Text
  keepTemp : Bool
  timeout : Int
  deriving DecidableEq, Repr

namespace Command

/-- The word that selects a subcommand; the root command has none. -/
def word : Command → Text
  | build => []
  | emit => Text.ascii "translate"
  | filter => Text.ascii "filter"

/-- The subcommand with the given word.  Only the root command has any. -/
def sub? (c : Command) (word : Text) : Option Command :=
  match c with
  | build => [emit, filter].find? fun s => s.word = word
  | _ => none

/-- Whether a flag belongs to the command itself. -/
def owns : Command → Flag → Bool
  | build, _ => true
  | emit, f => f = .verbose || f = .cells || f = .output
  | filter, f => f = .verbose || f = .cells

def defaults (c : Command) : Settings where
  verbose := false
  cells := Prelude.standard.cells
  output := if c = build then Workspace.defaultOutput else []
  compiler := Text.ascii "gcc"
  options := []
  keepTemp := false
  timeout := 0

end Command

/-- Why a flag's value was refused. -/
inductive ValueFault where
  | notBool
  | notInteger (value : Text) (fault : Decimal.Fault)
  | notDuration (value : Text) (fault : Duration.Fault)
  deriving DecidableEq, Repr

def ValueFault.message : ValueFault → Text
  | notBool => Text.ascii "not a bool value"
  | notInteger value fault =>
    Text.ascii "strconv.ParseInt: parsing " ++ Text.quoted value ++
      match fault with
      | .syntactic => Text.ascii ": invalid syntax"
      | .outOfRange => Text.ascii ": value out of range"
  | notDuration value fault => fault.message value

/-- A truth value, in any mixture of cases.  The empty value is true. -/
def readBool (value : Text) : Option Bool :=
  let word := value.map Text.lowerByte
  if word.isEmpty || ["true", "t", "yes", "y", "1"].any (word = Text.ascii ·) then some true
  else if ["false", "f", "no", "n", "0"].any (word = Text.ascii ·) then some false
  else none

namespace Flag

def all : List Flag := [verbose, cells, output, compiler, options, keepTemp, timeout]

def names : Flag → List String
  | verbose => ["verbose", "v"]
  | cells => ["cells"]
  | output => ["output", "o"]
  | compiler => ["compiler", "c"]
  | options => ["options", "p"]
  | keepTemp => ["keep-temp"]
  | timeout => ["timeout"]

def ofName? (name : Text) : Option Flag :=
  all.find? fun f => f.names.any (name = Text.ascii ·)

/-- A switch is set by its name alone and never takes the next argument. -/
def isSwitch (f : Flag) : Bool := f = verbose || f = keepTemp

/-- The settings after a flag was given a value. -/
def assign (f : Flag) (value : Text) (s : Settings) : Except ValueFault Settings :=
  let truth : Except ValueFault Bool := (readBool value).elim (.error .notBool) .ok
  match f with
  | verbose => truth.map fun b => { s with verbose := b }
  | cells => ((Decimal.read64 value).mapError (.notInteger value)).map fun n => { s with cells := n }
  | output => .ok { s with output := value }
  | compiler => .ok { s with compiler := value }
  | options => .ok { s with options := value }
  | keepTemp => truth.map fun b => { s with keepTemp := b }
  | timeout =>
    ((Duration.read value).mapError (.notDuration value)).map fun n => { s with timeout := n }

/-- The settings of a command after one of the flags it accepts was given a
value.  The value of a flag of the root command is checked and dropped. -/
def assignFor (c : Command) (f : Flag) (value : Text) (s : Settings) : Except ValueFault Settings :=
  (f.assign value s).map fun s' => if c.owns f then s' else s

end Flag
end CommandLine
end TapeC
