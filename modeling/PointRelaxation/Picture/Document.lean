import PointRelaxation.Picture
import PointRelaxation.Picture.Compact
import PointRelaxation.Picture.Escape
import PointRelaxation.Scene.Summary

/-!
# Pictures as TikZ code

The code of a picture, and the standalone document that holds a picture and the table of measures.
-/

namespace PointRelaxation.Picture

/-! ## Code -/

def position (v : Vec Float) : String := "(" ++ number v.x ++ ", " ++ number v.y ++ ")"

def reference (node : String) : String := "(" ++ node ++ ")"

/-- The options of a statement; what is not stable has one more. -/
def style (options : List String) (stable : Bool) : String :=
  ", ".intercalate (if stable then options else options ++ ["unstable"])

/-- The options of a statement in brackets, or nothing if there are none. -/
def bracketed (options : String) : String :=
  if options.isEmpty then "" else "[" ++ options ++ "]"

def Statement.code : Statement Float → String
  | coordinate node v => "\\coordinate " ++ reference node ++ " at " ++ position v
  | clip low high => "\\clip " ++ position low ++ " rectangle " ++ position high
  | fill nodes stable =>
    "\\fill" ++ bracketed (style ["polygon"] stable) ++ " " ++
      " -- ".intercalate (nodes.map reference) ++ " -- cycle"
  | line start finish stable =>
    "\\draw" ++ bracketed (style ["line"] stable) ++ " " ++ position start ++ " -- " ++
      position finish
  | segment a b stable =>
    "\\draw" ++ bracketed (style ["segment"] stable) ++ " " ++ reference a ++ " -- " ++ reference b
  | dot node stable =>
    "\\fill" ++ bracketed (style [] stable) ++ " " ++ reference node ++ " circle (\\gsDotR)"
  | label node text stable =>
    "\\node" ++ bracketed (style ["ptlabel", "above right"] stable) ++ " at " ++ reference node ++
      " " ++ group (escape text)

/-- The code of the picture of a scene. -/
def code (scene : Scene Float) (scale : Float) : String :=
  "\n".intercalate
    (["\\begin" ++ group "tikzpicture" ++ "[scale=" ++ number scale ++ "]"] ++
      (statements scene).map (fun s => "  " ++ s.code ++ ";") ++
      ["\\end" ++ group "tikzpicture"])

/-- The scale of a picture that is not asked for at another. -/
def defaultScale : Float := 0.1

/-! ## The document -/

/-- The table of measures; a gap is a little space between two rows. -/
def measureTable (scene : Scene Float) (unit : String) : Except (Fault Float) String := do
  let rows ← scene.readMeasures
  let row : Option (String × Float) → String
    | some (title, length) =>
      escape title ++ " & " ++ Text.places 2 length ++ "~" ++ escape unit ++ " \\\\"
    | none => "\\\\[2pt]"
  if rows.isEmpty then return ""
  return "\n".intercalate
    (["\\par\\vspace" ++ group "4pt", "\\begin" ++ group "tabular" ++ group "lr"] ++
      rows.map row ++ ["\\end" ++ group "tabular"])

/-- What stands before the body of a document. -/
def preamble : List String :=
  ["\\documentclass[border=2pt]" ++ group "standalone",
    "\\usepackage[utf8]" ++ group "inputenc",
    "\\usepackage" ++ group "tikz",
    "\\tikzset\x7b",
    "  gs/dot radius/.store in=\\gsDotR,       gs/dot radius=1.4pt,",
    "  gs/line width/.store in=\\gsLW,         gs/line width=0.8pt,",
    "  ptlabel/.style=" ++ group "font=\\footnotesize, inner sep=1pt" ++ ",",
    "  segment/.style=" ++ group "line width=\\gsLW, draw=gray" ++ ",",
    "  line/.style=" ++ group "line width=\\gsLW, draw=gray, dash pattern=on 3pt off 2pt" ++ ",",
    "  polygon/.style=" ++ group "fill=gray!30" ++ ",",
    "  unstable/.style=" ++ group "opacity=0.5" ++ ",",
    "\x7d"]

/-- The width of a document that is not asked for at another. -/
def defaultWidth : String := "12cm"

/-- The document with the picture of a scene and the table of its measures. -/
def document (scene : Scene Float) (unit : String) (width : String) (scale : Float) :
    Except (Fault Float) String := do
  let table ← measureTable scene unit
  let width := if width.isEmpty then defaultWidth else width
  return "\n".intercalate
    (preamble ++
      ["\\begin" ++ group "document",
        "\\begin" ++ group "minipage" ++ "[t]" ++ group width,
        code scene scale,
        table,
        "\\end" ++ group "minipage",
        "\\end" ++ group "document",
        ""])

end PointRelaxation.Picture
