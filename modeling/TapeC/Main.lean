import TapeC.CommandLine.Run

/-!
The command line.

The files and directories that the arguments name are read into a workspace, the
argument list is run there, and the files that changed are written back.  The
workspace has no programs in it, so only the subcommands get to their end; a
build ends where it looks for its compiler.
-/

namespace TapeC
namespace CommandLine

def textOfString (s : String) : Text := s.toUTF8.toList

def stringOfText (t : Text) : String := (String.fromUTF8? t.toByteArray).getD ""

/-- The names that an argument may stand for: itself, and the value of a flag. -/
def candidates (argument : Text) : List Text :=
  [argument, (argument.dropWhile (· ≠ Byte.equals)).drop 1, (argument.dropWhile (· ≠ Byte.space)).drop 1]

/-- The name of the directory above a name. -/
def parent (name : Text) : Text :=
  match FileTree.isAbsolute name, (FileTree.parts name).dropLast with
  | false, [] => Text.ascii "."
  | false, dirs => List.intercalate [Byte.slash] dirs
  | true, dirs => Path.text dirs

/-- A view of the disk: which names are directories, and what files hold. -/
structure Disk where
  isDirectory : Text → IO Bool
  read : Text → IO Text

def fetchDirectory (disk : Disk) (w : Workspace) (name : Text) : IO Workspace := do
  if ← disk.isDirectory name then
    let start := FileTree.origin w.home name
    return { w with tree := w.tree.ensureDirectory start (FileTree.parts name) }
  else return w

/-- Take over what is on disk under a name. -/
def fetch (disk : Disk) (w : Workspace) (name : Text) : IO Workspace := do
  let w ← fetchDirectory disk w (parent name)
  let w ← fetchDirectory disk w name
  try return w.put name (← disk.read name)
  catch _ => return w

/-- Write the files that differ from those of an earlier tree. -/
def store (before after : FileTree) : IO Unit := do
  for (p, e) in after.entries do
    if before.get? p ≠ some e then
      if let some content := e.content? then
        IO.FS.writeBinFile (stringOfText (Path.text p)) content.toByteArray

end CommandLine
end TapeC

open TapeC TapeC.CommandLine in
def main (args : List String) : IO UInt32 := do
  let here ← IO.currentDir
  let home : Path := FileTree.parts (textOfString here.toString)
  let args := args.map textOfString
  let start : Workspace :=
    ⟨home, FileTree.empty.ensureDirectory [] home, ← IO.monoNanosNow, fun _ _ _ => .never⟩
  let disk : Disk :=
    { isDirectory := fun name => (here / stringOfText name).isDir
      read := fun name => return (← IO.FS.readBinFile (here / stringOfText name)).toList }
  let w ← (args.flatMap candidates).foldlM (fetch disk) start
  let exit := run w .working args
  store w.tree exit.tree
  (← IO.getStdout).write exit.stdout.toByteArray
  (← IO.getStderr).write exit.stderr.toByteArray
  return exit.status.toUInt32
