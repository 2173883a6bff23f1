import TapeC.Tool

/-!
Directories and files.

A tree is a list of entries by path.  Names are resolved the way an operating
system does it, one part after the other, so the refusal of a name says which
part of it is at fault.  The laws of `get?` after `set` and `erase` are all that
the rest of the library uses.

A file is emptied before it is written.  A write that its device does not take as
a whole therefore fails with a change, and its error carries the tree that it
leaves.
-/

namespace TapeC

/-- The names from the root directory down.  The root itself is the empty path. -/
abbrev Path := List Text

/-- The path as an absolute name. -/
def Path.text (p : Path) : Text :=
  if p.isEmpty then [Byte.slash] else p.flatMap (Byte.slash :: ·)

inductive Entry where
  | directory
  | file (content : Text)
  /-- A file that may be executed. -/
  | program (content : Text) (tool : Tool)
  deriving DecidableEq, Repr

namespace Entry

def isDirectory : Entry → Bool
  | directory => true
  | _ => false

/-- The bytes of a file; a directory has none. -/
def content? : Entry → Option Text
  | directory => none
  | file content => some content
  | program content _ => some content

/-- Why bytes that were put in place of a program cannot be started.  A first line
`#! name` asks for an interpreter, and there is none; all else has no format. -/
def startFault (content : Text) : SystemError :=
  let name := (content.drop 2).takeWhile (· ≠ Byte.newline)
  if (Text.ascii "#!").isPrefixOf content && name.any fun b => b ≠ Byte.space && b ≠ Byte.tab then
    .notFound
  else .badFormat

/-- The entry after its content was replaced.  An executable file stays
executable, but what it holds now is no program. -/
def overwrite (content : Text) : Option Entry → Entry
  | some (program _ _) => program content (.broken (startFault content))
  | _ => file content

end Entry

/-- A device that is nearly full. -/
structure Device where
  /-- The directory below which its files are. -/
  mount : Path
  /-- How many bytes of a file it takes. -/
  room : Nat
  deriving DecidableEq, Repr

structure FileTree where
  entries : List (Path × Entry)
  /-- The devices that do not take every file. -/
  devices : List Device
  deriving DecidableEq, Repr

namespace FileTree

def empty : FileTree := ⟨[], []⟩

def get? (t : FileTree) (p : Path) : Option Entry :=
  if p = [] then some .directory else (t.entries.find? fun e => e.1 = p).map Prod.snd

def erase (t : FileTree) (p : Path) : FileTree :=
  { t with entries := t.entries.filter fun e => e.1 ≠ p }

def set (t : FileTree) (p : Path) (e : Entry) : FileTree :=
  { t with entries := (t.erase p).entries ++ [(p, e)] }

/-- Remove a path and everything below it. -/
def prune (t : FileTree) (p : Path) : FileTree :=
  { t with entries := t.entries.filter fun e => !p.isPrefixOf e.1 }

def isDirectory (t : FileTree) (p : Path) : Bool := (t.get? p).any Entry.isDirectory

def write (t : FileTree) (p : Path) (content : Text) : FileTree :=
  t.set p (Entry.overwrite content (t.get? p))

/-- What the device of a path takes of a content. -/
def taken (t : FileTree) (p : Path) (content : Text) : Text :=
  match t.devices.find? fun d => d.mount.isPrefixOf p with
  | some device => content.take device.room
  | none => content

/-! ## Laws of the entries -/

theorem get?_erase_self (t : FileTree) {p : Path} (h : p ≠ []) : (t.erase p).get? p = none := by
  simp [get?, erase, h, List.find?_filter]

theorem get?_erase_ne (t : FileTree) {p q : Path} (h : q ≠ p) :
    (t.erase p).get? q = t.get? q := by
  have same : (fun e : Path × Entry => decide (decide (e.1 ≠ p) = true ∧ decide (e.1 = q) = true)) =
      fun e => decide (e.1 = q) := by
    funext e
    by_cases he : e.1 = q <;> simp [he, h]
  simp only [get?, erase, List.find?_filter, same]

theorem get?_set_self (t : FileTree) {p : Path} (h : p ≠ []) (e : Entry) :
    (t.set p e).get? p = some e := by
  have gone : (t.erase p).entries.find? (fun e => decide (e.1 = p)) = none := by
    rw [List.find?_eq_none]
    intro x hx
    simpa using (List.mem_filter.1 hx).2
  simp [get?, set, h, List.find?_append, gone]

theorem get?_set_ne (t : FileTree) {p q : Path} (h : q ≠ p) (e : Entry) :
    (t.set p e).get? q = t.get? q := by
  rw [← get?_erase_ne t h]
  simp [get?, set, List.find?_append, Ne.symm h]

/-- Of two entries for one path the later one stays. -/
theorem set_set (t : FileTree) (p : Path) (e e' : Entry) : (t.set p e).set p e' = t.set p e' := by
  simp [set, erase]

/-- Taking out a path that was not there before puts the tree back. -/
theorem erase_set_of_fresh (t : FileTree) {p : Path} (e : Entry)
    (h : ∀ x ∈ t.entries, x.1 ≠ p) : (t.set p e).erase p = t := by
  have key : t.entries.filter (fun x => decide (x.1 ≠ p)) = t.entries :=
    List.filter_eq_self.2 fun x hx => by simpa using h x hx
  have again : (t.set p e).erase p = { t with entries := t.entries.filter fun x => x.1 ≠ p } := by
    simp [set, erase]
  rw [again, key]

/-! ## Names -/

def parts (name : Text) : List Text := (name.splitOn Byte.slash).filter (!·.isEmpty)

def isAbsolute (name : Text) : Bool := name.head? == some Byte.slash

/-- Whether a name ends in a slash, and so can only mean a directory. -/
def isSlashed (name : Text) : Bool := name.getLast? == some Byte.slash

/-- The path at which the resolution of a name starts. -/
def origin (home : Path) (name : Text) : Path := if isAbsolute name then [] else home

/-- The refusals that need no tree: a zero byte, the empty name, an overlong
name. -/
def precheck (name : Text) : Except SystemError Unit :=
  if name.contains 0 then .error .invalidArgument
  else if name.isEmpty then .error .notFound
  else if 4096 ≤ name.length then .error .nameTooLong
  else .ok ()

/-- Follow one part of a name from a path. -/
def enter (t : FileTree) (here : Path) (part : Text) : Except SystemError Path :=
  if !t.isDirectory here then .error .notDirectory
  else if part = Text.ascii "." then .ok here
  else if part = Text.ascii ".." then .ok here.dropLast
  else if 255 < part.length then .error .nameTooLong
  else if (t.get? (here ++ [part])).isSome then .ok (here ++ [part])
  else .error .notFound

def walk (t : FileTree) (here : Path) (names : List Text) : Except SystemError Path :=
  names.foldlM t.enter here

/-- The path of an existing file or directory. -/
def find (t : FileTree) (home : Path) (name : Text) : Except SystemError Path := do
  precheck name
  let p ← t.walk (origin home name) (parts name)
  if isSlashed name && !t.isDirectory p then .error .notDirectory else .ok p

/-- The path at which a file of the given name is created or replaced. -/
def target (t : FileTree) (home : Path) (name : Text) : Except SystemError Path := do
  precheck name
  match (parts name).getLast? with
  | none => .error .isDirectory
  | some last =>
    let dir ← t.walk (origin home name) (parts name).dropLast
    if !t.isDirectory dir then .error .notDirectory
    else if isSlashed name || last = Text.ascii "." || last = Text.ascii ".." then
      .error .isDirectory
    else if 255 < last.length then .error .nameTooLong
    else if t.isDirectory (dir ++ [last]) then .error .isDirectory
    else .ok (dir ++ [last])

/-- Whether a name that is read and one that is written are names of one file. -/
def sameFile (t : FileTree) (home : Path) (source out : Text) : Bool :=
  match t.find home source, t.target home out with
  | .ok p, .ok q => p = q
  | _, _ => false

/-! ## Reading, writing and removing by name -/

def readFile (t : FileTree) (home : Path) (name : Text) : Except FileError Text :=
  match t.find home name with
  | .error reason => .error ⟨.opening, name, reason⟩
  | .ok p =>
    match (t.get? p).bind Entry.content? with
    | some content => .ok content
    | none => .error ⟨.reading, name, .isDirectory⟩

/-- Why a file could not be written, and what was left of it. -/
structure FailedWrite where
  error : FileError
  tree : FileTree
  deriving DecidableEq, Repr

/-- Write a file that is open. -/
def fill (t : FileTree) (p : Path) (name content : Text) : Except FailedWrite FileTree :=
  let tree := t.write p (t.taken p content)
  if t.taken p content = content then .ok tree
  else .error ⟨⟨.writing, name, .noSpace⟩, tree⟩

def writeFile (t : FileTree) (home : Path) (name content : Text) : Except FailedWrite FileTree :=
  match t.target home name with
  | .error reason => .error ⟨⟨.opening, name, reason⟩, t⟩
  | .ok p => t.fill p name content

def removeFile (t : FileTree) (home : Path) (name : Text) : Except FileError FileTree :=
  match t.find home name with
  | .error reason => .error ⟨.removing, name, reason⟩
  | .ok p => .ok (t.erase p)

/-- Add the directories along a name that are not there yet.  A file in the way
ends the walk. -/
def ensureDirectory (t : FileTree) (here : Path) : List Text → FileTree
  | [] => t
  | part :: rest =>
    if part = Text.ascii "." then t.ensureDirectory here rest
    else if part = Text.ascii ".." then t.ensureDirectory here.dropLast rest
    else
      let next := here ++ [part]
      match t.get? next with
      | none => (t.set next .directory).ensureDirectory next rest
      | some .directory => t.ensureDirectory next rest
      | some _ => t

end FileTree
end TapeC
