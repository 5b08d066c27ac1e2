import PointRelaxation.Binary64
import PointRelaxation.Text.Blank

/-!
# Numerals as people type them

Whole numbers and decimal numbers with a sign, blanks around them, single low lines between digits,
and the decimal digits of any script.
-/

namespace PointRelaxation.Text

/-- The zeros of the scripts that write decimal digits; the nine others follow each. -/
def decimalZeros : List Nat := [
  0x30, 0x660, 0x6F0, 0x7C0, 0x966, 0x9E6, 0xA66, 0xAE6, 0xB66, 0xBE6, 0xC66, 0xCE6, 0xD66, 0xDE6,
  0xE50, 0xED0, 0xF20, 0x1040, 0x1090, 0x17E0, 0x1810, 0x1946, 0x19D0, 0x1A80, 0x1A90, 0x1B50,
  0x1BB0, 0x1C40, 0x1C50, 0xA620, 0xA8D0, 0xA900, 0xA9D0, 0xA9F0, 0xAA50, 0xABF0, 0xFF10, 0x104A0,
  0x10D30, 0x11066, 0x110F0, 0x11136, 0x111D0, 0x112F0, 0x11450, 0x114D0, 0x11650, 0x116C0,
  0x11730, 0x118E0, 0x11950, 0x11C50, 0x11D50, 0x11DA0, 0x16A60, 0x16AC0, 0x16B50, 0x1D7CE,
  0x1D7D8, 0x1D7E2, 0x1D7EC, 0x1D7F6, 0x1E140, 0x1E2F0, 0x1E950, 0x1FBF0]

/-- The value of a decimal digit. -/
def digitValue? (c : Char) : Option Nat :=
  (decimalZeros.find? fun first => first ≤ c.toNat && c.toNat < first + 10).map (c.toNat - ·)

/-- The blanks around a numeral: of ASCII, those that move on a line or to another. -/
def isMargin (c : Char) : Bool :=
  if c.toNat < 128 then (9 ≤ c.toNat && c.toNat ≤ 13) || c == ' ' else isBlank c

/-- A numeral without the blanks around it. -/
def trim (cs : List Char) : List Char :=
  ((cs.dropWhile isMargin).reverse.dropWhile isMargin).reverse

/-- A sign, if there is one, and what follows it. -/
def splitSign : List Char → Bool × List Char
  | '-' :: cs => (true, cs)
  | '+' :: cs => (false, cs)
  | cs => (false, cs)

/-- The values of a run of digits and what follows it. A low line may stand between two digits;
`after` tells that a digit stands before the run. -/
def splitDigits (after : Bool) : List Char → List Nat × List Char
  | [] => ([], [])
  | c :: cs =>
    match digitValue? c with
    | some d =>
      let (ds, rest) := splitDigits true cs
      (d :: ds, rest)
    | none =>
      if c == '_' && after && (cs.head?.bind digitValue?).isSome then splitDigits false cs
      else ([], c :: cs)

/-- The natural with the given decimal digits. -/
def ofDigits (ds : List Nat) : Nat := ds.foldl (fun n d => 10 * n + d) 0

/-- Whole numbers are read up to this many digits. -/
def longestWhole : Nat := 4300

/-- The whole number that a numeral names. -/
def readInt? (s : String) : Option Int :=
  let (negative, cs) := splitSign (trim s.toList)
  match splitDigits false cs with
  | ([], _) => none
  | (_, _ :: _) => none
  | (ds, []) =>
    if longestWhole < ds.length then none
    else some (if negative then -(ofDigits ds : Int) else ofDigits ds)

/-- The exponent behind a decimal number, or nothing. -/
def readExponent? : List Char → Option Int
  | [] => some 0
  | c :: cs =>
    if c == 'e' || c == 'E' then
      let (negative, cs) := splitSign cs
      match splitDigits false cs with
      | (d :: ds, []) =>
        let n : Int := ofDigits (d :: ds)
        some (if negative then -n else n)
      | _ => none
    else none

/-- The number nearest to `± n · 10 ^ exponent`; one that exceeds every finite number is
infinite. -/
def nearestDecimal (negative : Bool) (n : Nat) (exponent : Int) : Float :=
  -- The leading digit decides alone once the exponent is far outside the range of the numbers.
  let leading := exponent + (Nat.toDigits 10 n).length
  let x? :=
    if n = 0 || leading < -400 then Binary64.nearest? negative 0 1
    else if 400 < leading then none
    else if 0 ≤ exponent then Binary64.nearest? negative (n * Nat.pow 10 exponent.toNat) 1
    else Binary64.nearest? negative n (Nat.pow 10 (-exponent).toNat)
  x?.getD (Binary64.infinity negative)

/-- The binary floating point number that a numeral names. -/
def readFloat? (s : String) : Option Float :=
  let (negative, cs) := splitSign (trim s.toList)
  let word := String.ofList (cs.map Char.toLower)
  if word == "inf" || word == "infinity" then some (Binary64.infinity negative)
  else if word == "nan" then some (0.0 / 0.0)
  else
    let (whole, rest) := splitDigits false cs
    let (part, rest) :=
      match rest with
      | '.' :: rest => splitDigits false rest
      | _ => ([], rest)
    if whole.isEmpty && part.isEmpty then none
    else
      (readExponent? rest).map fun exponent =>
        nearestDecimal negative (ofDigits (whole ++ part)) (exponent - part.length)

end PointRelaxation.Text
