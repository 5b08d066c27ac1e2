import PointRelaxation.Fault.Message
import PointRelaxation.Text.Numeral

/-!
# The command line

A flag may be shortened as long as it stays unambiguous, and its value may follow it or an equals
sign. Two dashes end the flags. The one word that is no flag is the path of a scene file.
-/

namespace PointRelaxation.Command

/-! ## Flags -/

inductive Flag where
  | help
  | factory
  | logLevel
  | seed
  | samples
  | radius
  | maxPasses
  | snapshot
  | unit
  | output
deriving DecidableEq, Repr

namespace Flag

/-- The spellings of the flags, in the order in which they are listed. -/
def spellings : List (String × Flag) :=
  [("-h", help), ("--help", help), ("--factory", factory), ("--log-level", logLevel),
    ("--seed", seed), ("--samples", samples), ("--radius", radius), ("--max-passes", maxPasses),
    ("--snapshot", snapshot), ("--unit", unit), ("--tikz-output-path", output)]

/-- All spellings of a flag. -/
def title (f : Flag) : String :=
  "/".intercalate ((spellings.filter (·.2 == f)).map Prod.fst)

def takesValue : Flag → Bool
  | help => false
  | snapshot => false
  | _ => true

end Flag

/-! ## Why a command line is refused -/

inductive Refusal where
  | ambiguous (word : String) (spellings : List String)
  /-- A flag that needs a value has none. -/
  | valueMissing (f : Flag)
  /-- A flag that takes no value has one. -/
  | valueIgnored (f : Flag) (value : String)
  | notInt (f : Flag) (value : String)
  | notFloat (f : Flag) (value : String)
  | unrecognized (words : List String)
  /-- The options make no sense. -/
  | options (fault : Fault Float)

namespace Refusal

def about (f : Flag) (text : String) : String := "argument " ++ f.title ++ ": " ++ text

def message : Refusal → String
  | ambiguous word spellings =>
    "ambiguous option: " ++ word ++ " could match " ++ ", ".intercalate spellings
  | valueMissing f => about f "expected one argument"
  | valueIgnored f value => about f ("ignored explicit argument " ++ Text.quoted value)
  | notInt f value => about f ("invalid int value: " ++ Text.quoted value)
  | notFloat f value => about f ("invalid float value: " ++ Text.quoted value)
  | unrecognized words => "unrecognized arguments: " ++ " ".intercalate words
  | options fault => fault.message

end Refusal

/-! ## Words -/

/-- What a word of the command line is. -/
inductive Word where
  /-- The path, or the value of a flag before it. -/
  | operand (text : String)
  /-- The end of the flags. -/
  | divider
  /-- A flag, and its value if that stands in the same word. -/
  | flag (f : Flag) (value : Option String)
  /-- The short request for help with something behind it in the same word. -/
  | letters (text : List Char)
  | unknown (text : String)
deriving DecidableEq, Repr

namespace Word

/-- A word before its first equals sign, and what is behind the sign if there is one. -/
def splitValue (s : String) : String × Option String :=
  let cs := s.toList
  let head := String.ofList (cs.takeWhile (· != '='))
  match cs.dropWhile (· != '=') with
  | [] => (head, none)
  | _ :: value => (head, some (String.ofList value))

/-- A line break that ends a number is no part of it. -/
def isNegativeNumber (s : String) : Bool :=
  let isDigit (c : Char) : Bool := (Text.digitValue? c).isSome
  match s.toList with
  | '-' :: cs =>
    let cs := if cs.getLast? = some '\n' then cs.dropLast else cs
    let rest := cs.dropWhile isDigit
    match rest with
    | [] => !cs.isEmpty
    | '.' :: ds => !ds.isEmpty && ds.all isDigit
    | _ => false
  | _ => false

/-- The flags that a word shortens. -/
def shortened (head : String) : List (String × Flag) :=
  Flag.spellings.filter fun (spelling, _) => head.toList.isPrefixOf spelling.toList

/-- A flag of one letter. -/
def isShort (head : String) : Bool := head.length == 2

/-- Reads a word that begins with a dash and is no spelling of a flag. -/
def ofDashed (s : String) : Except Refusal Word :=
  let (head, value) := splitValue s
  match value, Flag.spellings.lookup head with
  | some v, some f => .ok (if isShort head then .letters v.toList else .flag f (some v))
  | _, _ =>
    let other :=
      if isNegativeNumber s || s.contains ' ' then Word.operand s else Word.unknown s
    match s.toList with
    | '-' :: '-' :: _ =>
      match shortened head with
      | [] => .ok other
      | [(_, f)] => .ok (.flag f value)
      | several => .error (.ambiguous s (several.map Prod.fst))
    | '-' :: 'h' :: cs => .ok (.letters cs)
    | _ => .ok other

/-- Reads a word that may be a flag. -/
def ofString (s : String) : Except Refusal Word :=
  match s.toList with
  | ['-', '-'] => .ok .divider
  | ['-'] => .ok (.operand s)
  | '-' :: _ =>
    match Flag.spellings.lookup s with
    | some f => .ok (.flag f none)
    | none => ofDashed s
  | _ => .ok (.operand s)

/-- Reads the words of a command line. Behind the divider every word is an operand. -/
def readAll : List String → Except Refusal (List Word)
  | [] => .ok []
  | s :: ss => do
    let w ← ofString s
    if w = .divider then return w :: ss.map .operand
    let ws ← readAll ss
    return w :: ws

end Word

/-! ## Settings -/

/-- What a command line asks for. A setting is nothing if its flag has been given an empty list of
values. -/
structure Settings where
  path : Option String := none
  factory : Option String := some "build_scene"
  logLevel : Option String := some "INFO"
  seed : Option Int := none
  samples : Option Int := some 10000
  radius : Option Float := some 100.0
  maxPasses : Option Int := some 200
  snapshot : Bool := false
  unit : Option String := some "cm"
  output : Option String := none

/-- Why no settings come of a command line. -/
inductive Stop where
  | help
  | refused (r : Refusal)

namespace Settings

def int (f : Flag) (value : String) : Except Stop Int :=
  match Text.readInt? value with
  | some n => .ok n
  | none => .error (.refused (.notInt f value))

def float (f : Flag) (value : String) : Except Stop Float :=
  match Text.readFloat? value with
  | some x => .ok x
  | none => .error (.refused (.notFloat f value))

/-- The settings with a flag that has a value. -/
def withValue (s : Settings) (f : Flag) (value : String) : Except Stop Settings :=
  match f with
  | .factory => .ok { s with factory := some value }
  | .logLevel => .ok { s with logLevel := some value }
  | .seed => do return { s with seed := some (← int f value) }
  | .samples => do return { s with samples := some (← int f value) }
  | .radius => do return { s with radius := some (← float f value) }
  | .maxPasses => do return { s with maxPasses := some (← int f value) }
  | .unit => .ok { s with unit := some value }
  | .output => .ok { s with output := some value }
  | .help => .error (.refused (.valueIgnored f value))
  | .snapshot => .error (.refused (.valueIgnored f value))

/-- The settings with a flag that has an empty list of values. Draws that are seeded so are those of
the seed zero. -/
def withNothing (s : Settings) : Flag → Settings
  | .factory => { s with factory := none }
  | .logLevel => { s with logLevel := none }
  | .seed => { s with seed := some 0 }
  | .samples => { s with samples := none }
  | .radius => { s with radius := none }
  | .maxPasses => { s with maxPasses := none }
  | .unit => { s with unit := none }
  | .output => { s with output := none }
  | .help => s
  | .snapshot => s

/-- The settings with a flag that has a value in its own word. Two dashes are an empty list. -/
def withAttached (s : Settings) (f : Flag) (value : String) : Except Stop Settings :=
  if value == "--" && f.takesValue then .ok (s.withNothing f) else s.withValue f value

/-- The settings with a flag that takes no value. -/
def withSwitch (s : Settings) (f : Flag) : Except Stop Settings :=
  match f with
  | .help => .error .help
  | .snapshot => .ok { s with snapshot := true }
  | f => .error (.refused (.valueMissing f))

/-- What becomes of the short request for help with something behind it. Only the same letter may
follow it. -/
def ofLetters : List Char → Stop
  | ['h'] => .help
  | 'h' :: letters => ofLetters letters
  | letters => .refused (.valueIgnored .help (String.ofList letters))

/-- Settings, whether the path has been read, and the words left over so far. -/
structure Reading where
  settings : Settings
  closed : Bool := false
  extras : List String := []

namespace Reading

def leave (r : Reading) (word : String) : Reading := { r with extras := r.extras ++ [word] }

def close (r : Reading) (path : Option String) : Reading :=
  { r with settings := { r.settings with path }, closed := true }

/-- Reads words one after the other. The first operand is the path, and a divider may stand before
it or behind it. -/
def words (r : Reading) : List Word → Except Stop Reading
  | [] => .ok r
  | .unknown s :: ws => words (r.leave s) ws
  | .letters cs :: _ => .error (ofLetters cs)
  | .flag f (some value) :: ws => do
    let settings ← r.settings.withAttached f value
    words { r with settings } ws
  | .flag f none :: .operand s :: ws => do
    if f.takesValue then
      let settings ← r.settings.withValue f s
      words { r with settings } ws
    else
      let settings ← r.settings.withSwitch f
      words { r with settings } (.operand s :: ws)
  | .flag f none :: ws => do
    let settings ← r.settings.withSwitch f
    words { r with settings } ws
  | .operand s :: .divider :: ws =>
    if r.closed then words (r.leave s) (.divider :: ws) else words (r.close (some s)) ws
  | .operand s :: ws =>
    if r.closed then words (r.leave s) ws else words (r.close (some s)) ws
  | .divider :: .operand s :: ws =>
    if r.closed then words (r.leave "--") (.operand s :: ws) else words (r.close (some s)) ws
  | .divider :: ws => if r.closed then words (r.leave "--") ws else words (r.close none) ws

end Reading

/-- The settings that a command line asks for. -/
def ofArguments (arguments : List String) : Except Stop Settings :=
  match Word.readAll arguments with
  | .error r => .error (.refused r)
  | .ok ws =>
    match Reading.words { settings := {} } ws with
    | .error stop => .error stop
    | .ok r =>
      if r.extras.isEmpty then .ok r.settings else .error (.refused (.unrecognized r.extras))

end Settings
end PointRelaxation.Command
