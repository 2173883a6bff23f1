import TapeC.FileTree

/-!
A directory in which programs are built.

Programs are looked up in the directory `bin` of the workspace, and temporary
files go to its directory `tmp`.  A compiler named with a slash is used as it
is; one without is looked up in `bin` only.

What a build does not choose itself belongs to the workspace too: the number of a
temporary file, and the moment at which a limit fires.
-/

namespace TapeC

structure Workspace where
  home : Path
  tree : FileTree
  /-- The source of the numbers in the names of temporary files. -/
  seed : Nat
  /-- When a limit of so many nanoseconds fires on a tool with its arguments.  A
  function, because how long a tool takes is for the machine to say. -/
  clock : Int → Tool → List Text → Expiry

/-- A compiler that can be run: the name it is started by and what it does. -/
structure Executable where
  path : Text
  tool : Tool
  deriving DecidableEq, Repr

/-- Why a compiler is not there. -/
inductive LookupFault where
  | notInSearchPath
  | refused (error : FileError)
  | notExecutable (reason : SystemError)
  deriving DecidableEq, Repr

def LookupFault.message : LookupFault → Text
  | notInSearchPath => Text.ascii "executable file not found in $PATH"
  | refused error => error.message
  | notExecutable reason => reason.message

namespace Workspace

def binDir (w : Workspace) : Text := Path.text w.home ++ Text.ascii "/bin"

def tempDir (w : Workspace) : Text := Path.text w.home ++ Text.ascii "/tmp"

/-- The compilers of a new workspace. -/
def tools : List (String × Entry) :=
  [("gcc", .program [] .copy),
   ("cc-args", .program [] .showArguments),
   ("cc-exit", .program [] .exitWith),
   ("cc-kill", .program [] .crash),
   ("cc-rmsrc", .program [] .removeSource),
   ("cc-sleep", .program [] .sleep),
   ("cc-noexec", .file []),
   ("cc-interp", .program [] (.broken .notFound)),
   ("cc-format", .program [] (.broken .badFormat)),
   ("cc-dir", .directory)]

/-- A new workspace: an empty `tmp` and the compilers in `bin`, and no limit ever
fires. -/
def fresh (home : Path) (seed : Nat) : Workspace where
  home := home
  seed := seed
  clock := fun _ _ _ => .never
  tree :=
    let bin := home ++ [Text.ascii "bin"]
    let tree := FileTree.empty.ensureDirectory [] home
    let tree := (tree.set (home ++ [Text.ascii "tmp"]) .directory).set bin .directory
    tools.foldl (fun t tool => t.set (bin ++ [Text.ascii tool.1]) tool.2) tree

def readFile (w : Workspace) (name : Text) : Except FileError Text :=
  w.tree.readFile w.home name

/-- Store a file, with the directories above it; these are added also if the file
itself cannot be stored. -/
def put (w : Workspace) (name content : Text) : Workspace :=
  let start := FileTree.origin w.home name
  let tree := w.tree.ensureDirectory start (FileTree.parts name).dropLast
  match tree.writeFile w.home name content with
  | .ok tree => { w with tree := tree }
  | .error failed => { w with tree := failed.tree }

/-- Remove a file or a directory with all it holds. -/
def remove (w : Workspace) (name : Text) : Workspace :=
  match w.tree.find w.home name with
  | .ok p => { w with tree := w.tree.prune p }
  | .error _ => w

/-- The files below the home directory, with names relative to it; the compilers
are left out. -/
def files (w : Workspace) : List (Text × Text) :=
  w.tree.entries.filterMap fun (p, e) =>
    if w.home.isPrefixOf p && !(w.home ++ [Text.ascii "bin"]).isPrefixOf p then
      e.content?.map fun content =>
        (List.intercalate [Byte.slash] (p.drop w.home.length), content)
    else none

/-- The tool behind a name that has to be executable. -/
def toolAt (w : Workspace) (name : Text) : Except LookupFault Tool :=
  match w.tree.find w.home name with
  | .error reason => .error (.refused ⟨.inspecting, name, reason⟩)
  | .ok p =>
    match w.tree.get? p with
    | some (.program _ tool) => .ok tool
    | some .directory => .error (.notExecutable .isDirectory)
    | _ => .error (.notExecutable .permissionDenied)

def lookup (w : Workspace) (compiler : Text) : Except LookupFault Executable :=
  if compiler.contains Byte.slash then
    match w.toolAt compiler with
    | .ok tool => .ok ⟨compiler, tool⟩
    | .error fault => .error fault
  else
    let path := w.binDir ++ [Byte.slash] ++ compiler
    match w.toolAt path with
    | .ok tool => .ok ⟨path, tool⟩
    | .error _ => .error .notInSearchPath

end Workspace
end TapeC
