import PointRelaxation.Text.Quoted

/-!
# Paths of files

Parts of a path that say nothing are left out when it is written back. What stands in the way of a
file is told together with its path.
-/

namespace PointRelaxation.Command

/-- Where a path starts, and the parts that lead on from there. -/
structure Path where
  /-- Nothing for a path that starts where the program runs. -/
  root : String
  parts : List String
deriving DecidableEq, Repr

namespace Path

/-- What stands before the parts of a path: one slash or more lead to the root, exactly two to
another root. -/
def rootOf (s : String) : String :=
  match s.toList with
  | '/' :: '/' :: '/' :: _ => "/"
  | '/' :: '/' :: _ => "//"
  | '/' :: _ => "/"
  | _ => ""

/-- Reads a path. Empty parts and single points say nothing. -/
def ofString (s : String) : Path :=
  ⟨rootOf s, (s.splitOn "/").filter fun part => !part.isEmpty && part != "."⟩

/-- Reads a path of which every part counts: a single point, or nothing behind the last slash, leads
nowhere else but only from a directory. -/
def literal (s : String) : Path :=
  ⟨rootOf s, (s.splitOn "/").filter (!·.isEmpty) ++ if s.endsWith "/" then ["."] else []⟩

def text (p : Path) : String :=
  match p.root ++ "/".intercalate p.parts with
  | "" => "."
  | text => text

/-- The path of the directory that holds a file. -/
def parent (p : Path) : Path := { p with parts := p.parts.dropLast }

/-- The name that a path leads to. -/
def name (p : Path) : String := p.parts.getLast?.getD ""

/-- A name without its last ending, if something stands before it. -/
def stem (p : Path) : String :=
  match p.name.toList.reverse.span (· != '.') with
  | (_ :: _, _ :: front@(_ :: _)) => String.ofList front.reverse
  | _ => p.name

end Path

/-! ## Obstacles -/

/-- What can stand in the way of a file or a directory. -/
inductive Obstacle where
  | missing
  | present
  | notDirectory
  | isDirectory
  | tooLong
  /-- No name may hold the character zero. -/
  | nullCharacter
deriving DecidableEq, Repr

/-- An obstacle that was met on the way along a path. -/
structure FileFault where
  obstacle : Obstacle
  path : Path
deriving DecidableEq, Repr

def FileFault.message (f : FileFault) : String :=
  let numbered (number text : String) : String :=
    "[Errno " ++ number ++ "] " ++ text ++ ": " ++ Text.quoted f.path.text
  match f.obstacle with
  | .missing => numbered "2" "No such file or directory"
  | .present => numbered "17" "File exists"
  | .notDirectory => numbered "20" "Not a directory"
  | .isDirectory => numbered "21" "Is a directory"
  | .tooLong => numbered "36" "File name too long"
  | .nullCharacter => "embedded null byte"

end PointRelaxation.Command
