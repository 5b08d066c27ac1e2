/-!
# Text in a LaTeX document

Each of its ten special characters is written as a command.
-/

namespace PointRelaxation.Picture

/-- A group of LaTeX. -/
def group (s : String) : String := "\x7b" ++ s ++ "\x7d"

/-- A command that stands for a character; an empty group ends its name. -/
def textCommand (name : String) : List Char := '\\' :: (name ++ group "").toList

/-- How a character is written. -/
def escapeChar : Char → List Char
  | '\\' => textCommand "textbackslash"
  | '~' => textCommand "textasciitilde"
  | '^' => textCommand "textasciicircum"
  | '&' => ['\\', '&']
  | '%' => ['\\', '%']
  | '#' => ['\\', '#']
  | '_' => ['\\', '_']
  | '$' => ['\\', '$']
  | '\x7b' => ['\\', '\x7b']
  | '\x7d' => ['\\', '\x7d']
  | c => [c]

def escape (s : String) : String := String.ofList (s.toList.flatMap escapeChar)

end PointRelaxation.Picture
