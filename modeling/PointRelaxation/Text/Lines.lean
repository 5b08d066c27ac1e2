/-!
# Lines

A text in lines. Many characters break a line; a carriage return and the line feed behind it are one
break. In a file that is read, a break with a carriage return is the same as a line feed.
-/

namespace PointRelaxation.Text

/-- A character that ends a line. -/
def isBreak (c : Char) : Bool :=
  [0x0A, 0x0B, 0x0C, 0x0D, 0x1C, 0x1D, 0x1E, 0x85, 0x2028, 0x2029].contains c.toNat

/-- The lines of a text, given the characters of the first that are read already, the latest first.
What stands behind the last break is a line unless it is empty. -/
def splitLines (line : List Char) : List Char → List (List Char)
  | [] => if line.isEmpty then [] else [line.reverse]
  | '\r' :: '\n' :: cs => line.reverse :: splitLines [] cs
  | c :: cs => if isBreak c then line.reverse :: splitLines [] cs else splitLines (c :: line) cs

/-- Line feeds in the place of carriage returns, and of both where they stand together. -/
def feedLines : List Char → List Char
  | [] => []
  | '\r' :: '\n' :: cs => '\n' :: feedLines cs
  | c :: cs => (if c == '\r' then '\n' else c) :: feedLines cs

/-- A text as it is read from the file that holds it. -/
def ofFile (s : String) : String := String.ofList (feedLines s.toList)

def lines (s : String) : List String := (splitLines [] s.toList).map String.ofList

end PointRelaxation.Text
