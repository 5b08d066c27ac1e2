import PointRelaxation.Command.Arguments
import PointRelaxation.Command.Tree
import PointRelaxation.FoldingTable
import PointRelaxation.Log.Solver
import PointRelaxation.Picture.Document

/-!
# The program

The program relaxes a scene and prints its points and measures. `run` is the program without its
surroundings: where the scenes come from is given to it, and what it prints, logs and writes is
returned.
-/

namespace PointRelaxation.Command

/-- A scene, or the fault that ended its building. -/
abbrev Built := Except (Fault Float) (Scene Float)

/-- The scenes that a file can build, by the names of their factories. -/
abbrev Factories := List (String × Built)

/-- Where scenes and unseeded draws come from. -/
structure Surroundings where
  builtIn : Built
  /-- The scenes of the file at a path, if there is one. -/
  sceneFile : Path → Except FileFault (Option Factories)
  entropy : Nat

/-- Why a run has no outcome. -/
inductive Failure where
  | scene (f : Fault Float)
  /-- The log has no such threshold. -/
  | threshold (m : Misnomer)
  /-- A setting that is needed is nothing. -/
  | nothing (f : Flag)
  | file (f : FileFault)

def Failure.message : Failure → String
  | scene f => f.message
  | threshold m => m.message
  | nothing .logLevel => "'list' object has no attribute 'upper'"
  | nothing .factory => "attribute name must be string, not 'list'"
  | nothing .radius => "'>' not supported between instances of 'list' and 'float'"
  | nothing _ => "'<' not supported between instances of 'list' and 'int'"
  | file f => f.message

/-- What a run comes to. -/
structure Outcome where
  exit : Nat
  /-- What is printed. -/
  output : String := ""
  /-- The records of the log that are kept. -/
  records : List Record := []
  /-- Why the command line is refused. -/
  complaint : Option String := none
  /-- The path and content of the file that is to be written. -/
  written : Option (Path × String) := none

namespace Outcome

/-- The line that tells why a command line is refused. -/
def complaintLine (complaint : String) : String := "georelax: error: " ++ complaint

/-- What a run says besides what it prints: its log, or its complaint. -/
def aside (o : Outcome) : String :=
  String.join ((o.records.map Record.line ++ o.complaint.toList.map complaintLine).map (· ++ "\n"))

end Outcome

/-- The ready-made scene. -/
def foldingTable : Built :=
  match FoldingTable.buildInto {} (Scene.empty Scene.defaultDecimals) with
  | (scene, none) => .ok scene
  | (_, some f) => .error f

/-! ## The scene -/

/-- Why no scene can be loaded. -/
inductive LoadFailure where
  | missing (path : String)
  | notModule (path : String)
  /-- A file whose ending says that it is compiled does not begin like one. -/
  | notCompiled (stem : String)
  | noFactory (path factory : String)
  | file (f : FileFault)

def LoadFailure.message : LoadFailure → String
  | missing path => "scene file " ++ Text.quoted path ++ " does not exist"
  | notModule path => "cannot load scene file " ++ Text.quoted path
  | notCompiled stem =>
    "bad magic number in " ++ Text.quoted ("georelax_scene_" ++ stem) ++ ": b''"
  | noFactory path factory =>
    "scene file " ++ Text.quoted path ++ " defines no callable " ++ Text.quoted factory
  | file f => f.message

/-- The scene that a factory of a file builds. -/
def load (w : Surroundings) (path : String) (factory : Option String) :
    ExceptT LoadFailure (Except Failure) (Scene Float) := do
  let p := Path.ofString path
  match w.sceneFile p with
  | .error f => throw (.file f)
  | .ok none => throw (.missing path)
  | .ok (some factories) =>
    if p.text.endsWith ".pyc" then throw (.notCompiled p.stem)
    if !p.text.endsWith ".py" then throw (.notModule path)
    match factory with
    | none => throwThe Failure (.nothing .factory)
    | some factory =>
      match factories.lookup factory with
      | none => throw (.noFactory path factory)
      | some (.error f) => throwThe Failure (.scene f)
      | some (.ok scene) => return scene

/-! ## The run -/

def say (level : Level) (message : String) : Record := ⟨level, .command, message⟩

/-- How a relaxation ended. -/
def verdict {σ β : Type} (run : Run Float σ β) : Record :=
  if run.scene.allStable then
    say .info ("Scene stable after " ++ toString run.relaxation.passes ++ " pass(es)")
  else
    say .warning ("Scene not stable after " ++ toString run.relaxation.passes ++
      " pass(es); unstable points: " ++ ", ".intercalate (Solution.unstableNames run.scene))

/-- What is printed of a scene: its points and, behind an empty line, its measures. -/
def printed (scene : Scene Float) (unit : String) : Except (Fault Float) String := do
  let report ← scene.measureReport unit
  return scene.pointTable ++ "\n" ++ if report.isEmpty then "" else "\n" ++ report ++ "\n"

/-- What stands for a setting that is nothing where a text is shown. -/
def nothingText : String := Text.listed []

/-- The file that is written, if one is asked for. A unit that is nothing leaves no trace in it. -/
def document (scene : Scene Float) (s : Settings) :
    Except (Fault Float) (Option (Path × String)) :=
  match s.output with
  | none => return none
  | some "" => return none
  | some path => do
    let content ← Picture.document scene (s.unit.getD "") "" Picture.defaultScale
    return some (.ofString path, content)

/-- Runs passes until every point is stable or `limit` passes are counted, and takes notes of
each. -/
def drive {α σ β : Type} [Scalar α] [Draws σ α] (note : Pass α σ → List β) (limit : Nat)
    (r : Relaxation α σ) (scene : Scene α) : Run α σ β :=
  if h : scene.allStable ∨ limit ≤ r.passes then ⟨r, scene, 0, [], none, none⟩
  else
    let p := r.pass scene
    match hp : p.report with
    | .error f => ⟨p.relaxation, p.scene, 0, note p, none, some f⟩
    | .ok report =>
      have : limit - p.relaxation.passes < limit - r.passes := by
        have hcount : p.relaxation.passes = r.passes + 1 := Relaxation.passes_pass (not_or.1 h).1 hp
        omega
      let rest := drive note limit p.relaxation p.scene
      { rest with
        count := rest.count + 1
        notes := note p ++ rest.notes
        last := rest.last.or (some report) }
termination_by limit - r.passes

/-- Relaxes a scene and prints it. -/
def relax (entropy : Nat) (s : Settings) (threshold : Level) (options : Options Float)
    (loading : Record) (scene : Scene Float) : Except (Fault Float) Outcome := do
  let source ← Source.ofSeed entropy options.seed
  let run := drive (Solver.passRecords threshold) options.maxPasses (.start options source) scene
  if let some f := run.fault then throw f
  let output ← printed run.scene (s.unit.getD nothingText)
  let written ← document run.scene s
  let records :=
    [loading, say .info ("Relaxing " ++ toString scene.size ++ " points")] ++ run.notes ++
      [verdict run] ++
      (written.map fun w => say .info ("Wrote TikZ document to " ++ w.1.text)).toList
  return { exit := 0, output, records := Record.kept threshold records, written }

/-- A setting that is needed. -/
def needed {β : Type} (f : Flag) (setting : Option β) : ExceptT (Fault Float) (Except Failure) β :=
  match setting with
  | some b => return b
  | none => throwThe Failure (.nothing f)

/-- The options of settings. Each setting is looked at before the next one is needed. -/
def optionsOf (s : Settings) : ExceptT (Fault Float) (Except Failure) (Options Float) := do
  let samples ← needed .samples s.samples
  discard (ExceptT.mk (pure (Options.ofRequest { samples })))
  let radius ← needed .radius s.radius
  discard (ExceptT.mk (pure (Options.ofRequest { samples, radius })))
  let maxPasses ← needed .maxPasses s.maxPasses
  ExceptT.mk (pure (Options.ofRequest {
    samples, radius, seed := s.seed, snapshot := s.snapshot, maxPasses }))

/-- The threshold of settings. -/
def thresholdOf (s : Settings) : Except Failure Level :=
  match s.logLevel with
  | none => .error (.nothing .logLevel)
  | some name => (Level.threshold name).mapError .threshold

/-- The path of settings, unless it is empty. -/
def scenePath? (s : Settings) : Option String := s.path.filter (!·.isEmpty)

/-- Runs the program with settings. -/
def runWith (w : Surroundings) (s : Settings) : Except Failure Outcome := do
  let threshold ← thresholdOf s
  match ← (optionsOf s).run with
  | .error f => return { exit := 2, complaint := some (Refusal.options f).message }
  | .ok options =>
    let relax (loading : Record) (scene : Scene Float) : Except Failure Outcome :=
      (relax w.entropy s threshold options loading scene).mapError .scene
    match scenePath? s with
    | none =>
      let scene ← w.builtIn.mapError .scene
      relax (say .info "Using built-in folding table scene") scene
    | some path =>
      let factory := s.factory.getD nothingText
      let loading := say .info ("Loading scene factory " ++ factory ++ " from " ++ path)
      match ← (load w path s.factory).run with
      | .ok scene => relax loading scene
      | .error e =>
        let records := [loading, say .error ("Cannot load scene: " ++ e.message)]
        return { exit := 1, records := Record.kept threshold records }

/-- How the program is called. -/
def usage : String :=
  "usage: georelax [flags] [path]\n\nflags: " ++ ", ".intercalate (Flag.spellings.map Prod.fst) ++
    "\n"

/-- Runs the program on a command line. -/
def run (w : Surroundings) (arguments : List String) : Except Failure Outcome :=
  match Settings.ofArguments arguments with
  | .error .help => return { exit := 0, output := usage }
  | .error (.refused r) => return { exit := 2, complaint := some r.message }
  | .ok s => runWith w s

/-! ## Running among files -/

/-- What a file holds. -/
inductive Content where
  | scenes (factories : Factories)
  | text (s : String)

/-- The scenes of a file. A document builds none. -/
def Content.factories : Content → Factories
  | scenes factories => factories
  | text _ => []

/-- Runs the program in a tree of files: the scene comes from there, and the document goes there. -/
def runIn (builtIn : Built) (entropy : Nat) (files : Tree Content) (arguments : List String) :
    Except Failure (Outcome × Tree Content) := do
  let sceneFile (p : Path) := do return (← files.file? p).map Content.factories
  let outcome ← run { builtIn, sceneFile, entropy } arguments
  match outcome.written with
  | none => return (outcome, files)
  | some (path, content) =>
    let files ← (files.write path (.text content)).mapError .file
    return (outcome, files)

end PointRelaxation.Command
