import TapeC.FileTree

/-!
Temporary C files.

A temporary file is called `turbobrain-<digits>.c`.  Where its number is looked for
is settled by a seed, which keeps the name from being guessed.  It is the first
from there on that no file of the tree has in its name, so a new file never meets
an old one.
-/

namespace TapeC
namespace TempFile

def nameOf (n : Nat) : Text :=
  Text.ascii "turbobrain-" ++ Decimal.natural n ++ Text.ascii ".c"

/-- Whether a name is that of a temporary file. -/
def isName (name : Text) : Bool :=
  let start := Text.ascii "turbobrain-"
  let finish := Text.ascii ".c"
  let digits := (name.drop start.length).take (name.length - start.length - finish.length)
  start.isPrefixOf name && finish.isSuffixOf name && !digits.isEmpty && digits.all Decimal.isDigit

/-- The first number that a seed gives a temporary file.  It lies between `10^18` and
`9 * 10^18`, so it has nineteen digits, and so has every number after it for as
long as there are not `10^18` files. -/
def firstIndex (seed : Nat) : Nat := 1000000000000000000 + seed % 8000000000000000000

/-- Whether some file or directory of the tree has the name. -/
def isTaken (t : FileTree) (name : Text) : Bool := t.entries.any fun e => e.1.getLast? == some name

/-- The first number whose name is not taken.  There is one among as many numbers
as the tree has entries and one more. -/
def freshIndex (seed : Nat) (t : FileTree) : Nat :=
  let first := firstIndex seed
  let candidates := (List.range (t.entries.length + 1)).map (first + ·)
  (candidates.find? fun n => !isTaken t (nameOf n)).getD first

/-- A name inside a directory; the slash between them is written once. -/
def join (dir name : Text) : Text :=
  if FileTree.isSlashed dir then dir ++ name else dir ++ [Byte.slash] ++ name

/-- A temporary file that is open and still empty. -/
structure Created where
  name : Text
  path : Path
  tree : FileTree
  deriving DecidableEq, Repr

/-- Create a new temporary file in a directory. -/
def create (seed : Nat) (t : FileTree) (home : Path) (dir : Text) : Except FileError Created :=
  let name := join dir (nameOf (freshIndex seed t))
  match t.target home name with
  | .error reason => .error ⟨.opening, name, reason⟩
  | .ok p => .ok ⟨name, p, t.set p (.file [])⟩

end TempFile
end TapeC
