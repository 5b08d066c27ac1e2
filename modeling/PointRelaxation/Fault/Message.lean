import PointRelaxation.Fault
import PointRelaxation.Text.Composite
import PointRelaxation.Text.Number
import PointRelaxation.Text.Quoted

/-!
# The wording of faults

One sentence for each cause, with the values that it is about.
-/

namespace PointRelaxation

def Cell.text (c : Cell) : String := Text.tupled [toString c.x, toString c.y]

/-- The two coordinates in brackets. -/
def Vec.text (v : Vec Float) : String := Text.tupled [Text.full v.x, Text.full v.y]

def Fault.message : Fault Float → String
  | zeroLength v => "cannot normalize zero-length vector " ++ v.text
  | divisionByZero => "float division by zero"
  | unknownPoint name => "no point named " ++ Text.quoted name
  | duplicatePoint name => "point " ++ Text.quoted name ++ " is already registered"
  | invalidName name => "invalid point name " ++ Text.quoted name
  | missingRule name => "scoring rule for " ++ Text.quoted name ++ " must be callable"
  | wrongKind => "a value of another kind was expected"
  | noPoints => "at_middle_of requires at least one point"
  | noRules => "combine requires at least one rule"
  | tooFewCorners => "a polygon needs at least three points"
  | negativeDecimals => "decimals must be non-negative"
  | tooFewSamples => "samples must be at least 1"
  | radiusNotPositive => "radius must be positive"
  | negativePassLimit => "max_passes must be non-negative"
  | negativeSeed => "expected non-negative integer"
  | negativeCount => "negative dimensions are not allowed"
  | keepOutOfRange => "keep must lie in [0, 1]"
  | noCandidates => "cannot select from an empty candidate map"
  | unevaluated c => "candidate " ++ c.text ++ " was never evaluated"
  | floorUndefined => "cannot convert float NaN to integer"
  | floorInfinite => "cannot convert float infinity to integer"
  | wholeTooLarge => "int too large to convert to float"
  | ratioTooLarge => "integer division result too large for a float"

end PointRelaxation
