import ShapeDispatch.DescriptionFile
import ShapeDispatch.Inspect.Help
import ShapeDispatch.Json.Reader
import ShapeDispatch.Value.Display

/-!
The command line: shows the table of a description file, what handles a call, and how a value is
described. A run is a function of its arguments and of the files it may read.
-/

namespace ShapeDispatch.Inspect

/-- Why a run ends early, and the reason behind that. -/
structure Failure where
  message : String
  cause : Option String

/-- What a run leaves behind. -/
structure Outcome where
  exitCode : Nat
  /-- The text on standard output. -/
  output : String
  failure : Option Failure

/-- The text with four spaces at the start of each of its lines. -/
def indented (text : String) : String :=
  let margin := List.replicate 4 ' '
  String.ofList (margin ++ text.toList.flatMap (fun c => if c = '\n' then c :: margin else [c]))

/-- The text of a failure on standard error: what went wrong and, indented, the reason behind it. -/
def Failure.report (failure : Failure) : String :=
  match failure.cause with
  | some cause => "Error: " ++ failure.message ++ "\n\nCaused by:\n" ++ indented cause ++ "\n"
  | none => "Error: " ++ failure.message ++ "\n"

/-- The text on standard error. -/
def Outcome.errorOutput (outcome : Outcome) : String :=
  (outcome.failure.map Failure.report).getD ""

/-- A run that ends well with this output. -/
def Outcome.success (output : String) : Outcome := ⟨0, output, none⟩

/-- A run that fails after this output. -/
def Outcome.failed (output : String) (failure : Failure) : Outcome := ⟨1, output, some failure⟩

/-- Files by name. -/
abbrev Files := String → Option String

/-- Puts a line end behind each line. -/
def lines (texts : List String) : String := String.join (texts.map (fun text => text ++ "\n"))

/-- The reason that is given for a compile error; a faulty signature is shown on its own. -/
def causeOf : CompileError → Option String
  | .signature _ => none
  | e => some e.message

/-- Loads a description file and compiles it with its own settings. -/
def load (files : Files) (path : String) : Except Failure (Resolver Body) :=
  match (files path).bind DescriptionFile.read? with
  | none => .error ⟨"Failed to load description file: " ++ path, none⟩
  | some file =>
    match file.description with
    | .error e => .error ⟨e.message, none⟩
    | .ok description =>
      match file.engine.compile description with
      | .error e => .error ⟨"Failed to compile " ++ path, causeOf e⟩
      | .ok resolver => .ok resolver

/-- Reads a value from JSON text. -/
def readJson (text : String) : Except Failure (Value Body) :=
  match Json.read? text with
  | none => .error ⟨"Invalid JSON: " ++ text, none⟩
  | some document => .ok (Value.ofJson document)

/-- The line that shows a collision. -/
def collisionLine (c : Collision) : String :=
  "collision: " ++ c.key.render ++ " kept " ++ c.kept ++ " dropped " ++ c.dropped

/-- Shows a table and its collisions. -/
def showTable (files : Files) (path : String) : Outcome :=
  match load files path with
  | .error failure => .failed "" failure
  | .ok resolver =>
    .success (lines (resolver.table.render :: resolver.table.collisions.map collisionLine))

/-- The lines that show what handles a call. -/
def selectionLines (s : Selection Body) : List String :=
  ["entry:    " ++ s.entry.source, "method:   " ++ s.entry.implementation.label] ++
    if s.padding.isEmpty then [] else ["padded:   " ++ s.key.render]

/-- Shows the key of a call, what handles it, and its result, as far as it gets. -/
def showCall (resolver : Resolver Body) (args : List (Value Body)) : Outcome :=
  let keyLine := "type key: " ++ (resolver.typeKey args).render
  match resolver.select args with
  | .error e => .failed (lines [keyLine]) ⟨e.message, none⟩
  | .ok selection =>
    let shown := keyLine :: selectionLines selection
    match resolver.call Body.run args with
    | .error e => .failed (lines shown) ⟨e.message, none⟩
    | .ok result => .success (lines (shown ++ ["result:   " ++ result.render]))

/-- Shows what handles a call whose arguments are given as JSON text. -/
def showResolution (files : Files) (path arguments : String) : Outcome :=
  match load files path with
  | .error failure => .failed "" failure
  | .ok resolver =>
    match readJson arguments with
    | .error failure => .failed "" failure
    | .ok (.array args) => showCall resolver args
    | .ok other => .failed "" ⟨"ARGS_JSON must be a JSON array, got " ++ other.render, none⟩

/-- Shows the description of a value. -/
def showDescription (json : String) (depth : Nat) : Outcome :=
  match readJson json with
  | .error failure => .failed "" failure
  | .ok value => .success (lines [Classifier.standard.describe depth value])

/-- Carries out a command. -/
def perform (files : Files) : Command → Outcome
  | .table file => showTable files file
  | .resolve file arguments => showResolution files file arguments
  | .describe json depth => showDescription json depth

/-- What a run with these arguments leaves behind; misuse ends with exit code two. -/
def run (files : Files) (arguments : List String) : Outcome :=
  match requestOf arguments with
  | .run command => perform files command
  | .help topic => .success (helpText topic)
  | .version => .success versionText
  | .misuse => ⟨2, "", none⟩

/-- The file that a command reads. -/
def Command.file? : Command → Option String
  | .table file => some file
  | .resolve file _ => some file
  | .describe _ _ => none

end ShapeDispatch.Inspect
