import PointRelaxation.Command.Path

/-!
# Trees of files

What stands where in the directories around a program: `Tree.file?` tells what a path leads to, and
`Tree.write` puts a file there together with the directories that it needs. The names of the
directories above the one where the program runs are not known.
-/

namespace PointRelaxation.Command

/-- A place among the directories: its names lead down, the innermost first. -/
structure Location where
  /-- How many directories the start lies above the one where the program runs; nothing for the
  root. -/
  above : Option Nat
  names : List String
deriving DecidableEq, Repr

namespace Location

/-- The start of a path. -/
def start (p : Path) : Location := ⟨if p.root.isEmpty then some 0 else none, []⟩

/-- The directory around a place. The root is its own. -/
def up (l : Location) : Location :=
  match l.names with
  | [] => { l with above := l.above.map (· + 1) }
  | _ :: names => { l with names }

def down (l : Location) (name : String) : Location := { l with names := name :: l.names }

end Location

/-- What can stand at a place. -/
inductive Node (φ : Type) where
  | directory
  | file (content : φ)
deriving Repr

def Node.isDirectory {φ : Type} : Node φ → Bool
  | directory => true
  | file _ => false

/-- What stands at the places that are known, the latest first. -/
structure Tree (φ : Type) where
  nodes : List (Location × Node φ)

namespace Tree

variable {φ : Type}

/-- A tree without files. -/
def empty : Tree φ := ⟨[]⟩

/-- What stands at a place. A start is always a directory. -/
def node? (t : Tree φ) (l : Location) : Option (Node φ) :=
  if l.names.isEmpty then some .directory else t.nodes.lookup l

def put (t : Tree φ) (l : Location) (n : Node φ) : Tree φ := ⟨(l, n) :: t.nodes⟩

/-! ## Following a path -/

/-- The longest name and the longest path, in bytes. -/
def longestName : Nat := 255

def longestPath : Nat := 4095

/-- The place of a name in a directory, whether or not anything stands there. -/
def enter (t : Tree φ) (l : Location) (name : String) : Except Obstacle Location :=
  match t.node? l with
  | none => .error .missing
  | some (.file _) => .error .notDirectory
  | some .directory =>
    if name == "." then .ok l
    else if name == ".." then .ok l.up
    else if longestName < name.utf8ByteSize then .error .tooLong
    else .ok (l.down name)

/-- The place that a path leads to, whether or not anything stands there. -/
def locate (t : Tree φ) (p : Path) : Except Obstacle Location :=
  if p.text.contains '\x00' then .error .nullCharacter
  else if longestPath < p.text.utf8ByteSize then .error .tooLong
  else p.parts.foldlM t.enter (.start p)

/-- The file at a path. A path that is too long cannot be looked up; one that leads nowhere has no
file. -/
def file? (t : Tree φ) (p : Path) : Except FileFault (Option φ) :=
  match t.locate p with
  | .error .tooLong => .error ⟨.tooLong, p⟩
  | .error _ => .ok none
  | .ok l =>
    match t.node? l with
    | some (.file content) => .ok (some content)
    | _ => .ok none

def isDirectory (t : Tree φ) (p : Path) : Bool :=
  match t.locate p with
  | .ok l => (t.node? l).any Node.isDirectory
  | .error _ => false

/-! ## Writing -/

/-- Makes a directory where nothing stands. -/
def makeDirectory (t : Tree φ) (p : Path) : Except Obstacle (Tree φ) := do
  let l ← t.locate p
  if (t.node? l).isSome then throw .present
  return t.put l .directory

/-- Makes a directory unless there is one. -/
def ensureDirectory (t : Tree φ) (p : Path) : Except FileFault (Tree φ) :=
  match t.makeDirectory p with
  | .ok t => .ok t
  | .error o => if t.isDirectory p then .ok t else .error ⟨o, p⟩

/-- Makes a directory and those around it unless they are there. The parts of its path are given
from the last to the first. Those around it are only looked at when they turn out to be missing. -/
def ensureDirectories (t : Tree φ) (root : String) : List String → Except FileFault (Tree φ)
  | [] => .ok t
  | part :: outer =>
    let p : Path := ⟨root, (part :: outer).reverse⟩
    match t.makeDirectory p with
    | .error .missing => do
      let t ← t.ensureDirectories root outer
      t.ensureDirectory p
    | _ => t.ensureDirectory p

/-- Writes a file over what is there. -/
def writeFile (t : Tree φ) (p : Path) (content : φ) : Except FileFault (Tree φ) :=
  match t.locate p with
  | .error o => .error ⟨o, p⟩
  | .ok l =>
    match t.node? l with
    | some .directory => .error ⟨.isDirectory, p⟩
    | _ => .ok (t.put l (.file content))

/-- Writes a file, and makes the directories around it that are missing. -/
def write (t : Tree φ) (p : Path) (content : φ) : Except FileFault (Tree φ) := do
  let t ← t.ensureDirectories p.root p.parent.parts.reverse
  t.writeFile p content

end Tree
end PointRelaxation.Command
