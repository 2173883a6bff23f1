import TapeC.Balance
import TapeC.CText
import TapeC.Failure
import TapeC.Position
import TapeC.Source

/-!
The listing of a program: its instructions, its C text and its unmatched brackets.

A listing exists for every text.  `report` says what is wrong with it, one entry
for each unmatched bracket with the place where a reader finds it.
-/

namespace TapeC

structure Listing where
  /-- The instructions without the comments. -/
  filtered : Text
  /-- The C text. -/
  code : Text
  /-- The bracket analysis of `filtered`. -/
  balance : Balance
  /-- The byte offsets of the unmatched brackets in the text. -/
  unmatched : List Nat
  deriving DecidableEq, Repr

namespace Listing

def ofText (p : Prelude) (text : Text) : Listing :=
  let code := Source.filtered text
  let balance := Balance.ofCode code
  { filtered := code
    code := CText.render p code
    balance := balance
    unmatched := Source.locate text balance.unmatched }

def wellFormed (l : Listing) : Bool := l.balance.inOrder

/-- The cause for which a listing is not worth compiling, if there is one. -/
def fault? (l : Listing) : Option Cause :=
  if l.wellFormed then none else some (.unbalanced (l.unmatched.map Int.ofNat))

end Listing

namespace Diagnostic

/-- The entry for one unmatched bracket. -/
def entry (name text : Text) (offset : Nat) : Text :=
  let place := Position.ofOffset text offset
  name ++ [Byte.colon] ++ Decimal.natural place.line ++ [Byte.colon] ++ Decimal.natural place.column ++
    Text.ascii ": unmatched " ++ text[offset]?.toList

def entries (name text : Text) (unmatched : List Nat) : Text :=
  List.intercalate (Text.ascii ", ") (unmatched.map (entry name text))

/-- What is wrong with the text of a named program, if anything is. -/
def report (name text : Text) (l : Listing) : Option (Failure Cause) :=
  l.fault?.map fun cause => (Failure.of cause).within (entries name text l.unmatched)

end Diagnostic
end TapeC
