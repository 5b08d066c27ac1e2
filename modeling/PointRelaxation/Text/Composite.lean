/-!
# The written forms of composite values

Sequences, pairs of keys and values, and records.
-/

namespace PointRelaxation.Text

def commas (items : List String) : String := ", ".intercalate items

def listed (items : List String) : String := "[" ++ commas items ++ "]"

def tupled (items : List String) : String := "(" ++ commas items ++ ")"

def braced (items : List String) : String := "\x7b" ++ commas items ++ "\x7d"

/-- A key and its value. -/
def entry (key value : String) : String := key ++ ": " ++ value

/-- A field and its value. -/
def field (name value : String) : String := name ++ "=" ++ value

/-- A record by its name and its fields. -/
def record (name : String) (fields : List (String × String)) : String :=
  name ++ tupled (fields.map fun (name, value) => field name value)

/-- What stands for the part of a text or of a sequence that is left out. -/
def ellipsis : String := "..."

/-- The absence of a value. -/
def absent : String := "None"

def truth (b : Bool) : String := if b then "True" else "False"

end PointRelaxation.Text
