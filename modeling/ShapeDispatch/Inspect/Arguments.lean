/-!
The arguments of the command line. They are read from left to right, and the first thing that is wrong,
or that asks for help or for the version, decides.
-/

namespace ShapeDispatch.Inspect

/-- What the command line can be asked to do. -/
inductive Command where
  /-- Shows the table of a description file. -/
  | table (file : String)
  /-- Shows what handles a call. -/
  | resolve (file arguments : String)
  /-- Describes a value. -/
  | describe (json : String) (depth : Nat)
  deriving DecidableEq, Repr

/-- What help can be given on. -/
inductive Topic where
  | overview | table | resolve | describe | help
  deriving DecidableEq, Repr

/-- What the arguments ask for. -/
inductive Request where
  | run (command : Command)
  | help (topic : Topic)
  | version
  /-- Arguments that make no sense. -/
  | misuse
  deriving DecidableEq, Repr

/-- The topic of a command's name. -/
def topicOf? : String → Option Topic
  | "table" => some .table
  | "resolve" => some .resolve
  | "describe" => some .describe
  | "help" => some .help
  | _ => none

/-- Whether an argument is an option; a lone dash is not. -/
def isOption (argument : String) : Bool := argument.startsWith "-" && argument != "-"

/-- The largest depth. -/
def depthLimit : Nat := 0xffffffffffffffff

/-- Reads a depth: digits, which a plus may come before. -/
def depth? (text : String) : Option Nat :=
  let digits := match text.toList with
    | '+' :: rest => rest
    | cs => cs
  let n := digits.foldl (fun n c => n * 10 + (c.toNat - '0'.toNat)) 0
  if digits.isEmpty || !digits.all Char.isDigit || depthLimit < n then none else some n

/-- What has been read behind the name of a command. -/
structure Gathered where
  topic : Topic
  verbose : Bool
  depth : Option Nat
  /-- The arguments that are no options, first one first. -/
  plain : List String

namespace Gathered

/-- How many plain arguments the command takes. -/
def capacity (r : Gathered) : Nat := if r.topic = .resolve then 2 else 1

/-- Takes a plain argument; a file needs a name. -/
def takePlain (r : Gathered) (argument : String) : Option Gathered :=
  if r.plain.length = r.capacity then none
  else if argument.isEmpty && r.plain.isEmpty && r.topic ≠ .describe then none
  else some { r with plain := r.plain ++ [argument] }

/-- Takes the value of the option for the depth. -/
def takeDepth (r : Gathered) (text : String) : Option Gathered :=
  if r.topic ≠ .describe || r.depth.isSome then none
  else (depth? text).map (fun depth => { r with depth := some depth })

/-- Takes the option for more output, which may be given once. -/
def takeVerbose (r : Gathered) : Option Gathered :=
  if r.verbose then none else some { r with verbose := true }

/-- Takes single-letter options that share a dash. -/
def takeLetters (r : Gathered) : List Char → Except Request Gathered
  | [] => .ok r
  | 'v' :: rest =>
    match r.takeVerbose with
    | some r => r.takeLetters rest
    | none => .error .misuse
  | 'h' :: _ => .error (.help r.topic)
  | _ :: _ => .error .misuse

/-- What the arguments ask for once all are read. -/
def finish (r : Gathered) : Request :=
  match r.topic, r.plain with
  | .table, [file] => .run (.table file)
  | .resolve, [file, arguments] => .run (.resolve file arguments)
  | .describe, [json] => .run (.describe json (r.depth.getD 0))
  | _, _ => .misuse

/-- Reads plain arguments only. -/
def readPlain (r : Gathered) : List String → Request
  | [] => r.finish
  | argument :: rest =>
    match r.takePlain argument with
    | some r => r.readPlain rest
    | none => .misuse

/-- Reads the arguments behind the name of a command. -/
def read (r : Gathered) : List String → Request
  | [] => r.finish
  | "--" :: rest => r.readPlain rest
  | "--help" :: _ => .help r.topic
  | "--verbose" :: rest =>
    match r.takeVerbose with
    | some r => r.read rest
    | none => .misuse
  | "--depth" :: [] => .misuse
  | "--depth" :: text :: rest =>
    if isOption text then .misuse
    else
      match r.takeDepth text with
      | some r => r.read rest
      | none => .misuse
  | argument :: rest =>
    if argument.startsWith "--depth=" then
      match r.takeDepth (argument.drop "--depth=".length).toString with
      | some r => r.read rest
      | none => .misuse
    else if argument.startsWith "--" then .misuse
    else if isOption argument then
      match r.takeLetters (argument.toList.drop 1) with
      | .ok r => r.read rest
      | .error request => request
    else
      match r.takePlain argument with
      | some r => r.read rest
      | none => .misuse

end Gathered

/-- Takes single-letter options that share a dash, before the name of a command; says whether more
output has been asked for. -/
def leadingLetters (verbose : Bool) : List Char → Except Request Bool
  | [] => .ok verbose
  | 'v' :: rest => if verbose then .error .misuse else leadingLetters true rest
  | 'h' :: _ => .error (.help .overview)
  | 'V' :: _ => .error .version
  | _ :: _ => .error .misuse

/-- The topic that the arguments of the help command name. -/
def helpTopic : List String → Request
  | [] => .help .overview
  | [name] =>
    match topicOf? name with
    | some topic => .help topic
    | none => .misuse
  | _ :: _ :: _ => .misuse

/-- Reads arguments up to the name of a command. -/
def readLeading (verbose : Bool) : List String → Request
  | [] => .misuse
  | "--help" :: _ => .help .overview
  | "--version" :: _ => .version
  | "--verbose" :: rest => if verbose then .misuse else readLeading true rest
  | argument :: rest =>
    if argument.startsWith "--" then .misuse
    else if isOption argument then
      match leadingLetters verbose (argument.toList.drop 1) with
      | .ok verbose => readLeading verbose rest
      | .error request => request
    else
      match topicOf? argument with
      | some .help => helpTopic rest
      | some topic => Gathered.read ⟨topic, false, none, []⟩ rest
      | none => .misuse

/-- What the arguments ask for. -/
def requestOf (arguments : List String) : Request := readLeading false arguments

end ShapeDispatch.Inspect
