/-!
# Command line options

The arguments of the command: the paths of a configuration and of a trace, in that
order, and options anywhere between them.  Short options can share a dash.  A
value follows its option, directly, after an equals sign or as the next argument.
After `--` there are no options.  No option may be given twice.
-/

namespace AssocCache.CommandLine

/-- The written forms of a trace. -/
inductive TraceFormat where
  | fixed
  | text
  deriving DecidableEq, Repr

/-- The name of a form in messages. -/
def TraceFormat.name : TraceFormat → String
  | .fixed => "Fixed"
  | .text => "Text"

/-- The form that a value of the option names. -/
def TraceFormat.ofValue? (value : List Char) : Option TraceFormat :=
  if value = ['f', 'i', 'x', 'e', 'd'] then some .fixed
  else if value = ['t', 'e', 'x', 't'] then some .text
  else none

/-- What the command is asked to simulate, and how to report it. -/
structure Options where
  configPath : String
  tracePath : String
  format : TraceFormat := .fixed
  /-- Report the time taken. -/
  performance : Bool := false
  /-- Log what happens, down to evictions and write-backs. -/
  verbose : Bool := false
  deriving DecidableEq, Repr

/-- What the arguments ask for. -/
inductive Request where
  | simulate (options : Options)
  /-- A help text, at length or not. -/
  | help (long : Bool)
  | misuse
  deriving DecidableEq, Repr

/-- The arguments read so far. -/
structure Draft where
  /-- The paths, the latest first. -/
  paths : List String := []
  format : Option TraceFormat := none
  performance : Bool := false
  debug : Bool := false
  verbose : Bool := false

/-- What follows from an argument. -/
inductive Step where
  | next (draft : Draft)
  /-- The next argument is the trace format. -/
  | wantsFormat (draft : Draft)
  | help (long : Bool)
  | misuse

namespace Draft

/-- Takes the value of the trace format. -/
def takeFormat (d : Draft) (value : List Char) : Step :=
  match d.format, TraceFormat.ofValue? value with
  | none, some format => .next { d with format := some format }
  | _, _ => .misuse

/-- Takes an option without a value, by its letter. -/
def takeFlag (d : Draft) (letter : Char) : Option Draft :=
  if letter = 'p' ∧ !d.performance then some { d with performance := true }
  else if letter = 'd' ∧ !d.debug then some { d with debug := true }
  else if letter = 'v' ∧ !d.verbose then some { d with verbose := true }
  else none

/-- Takes a path. -/
def takePath (d : Draft) (path : String) : Option Draft :=
  if d.paths.length < 2 then some { d with paths := path :: d.paths } else none

/-- Takes the letters after a single dash. -/
def takeLetters (d : Draft) : List Char → Step
  | [] => .next d
  | ['f'] => .wantsFormat d
  | 'f' :: '=' :: value => d.takeFormat value
  | 'f' :: value => d.takeFormat value
  | 'h' :: _ => .help false
  | letter :: rest =>
    match d.takeFlag letter with
    | some d => d.takeLetters rest
    | none => .misuse

/-- Takes the word after two dashes. -/
def takeWord (d : Draft) (word : List Char) : Step :=
  let name := String.ofList (word.takeWhile (· != '='))
  match name, word.dropWhile (· != '=') with
  | "format", [] => .wantsFormat d
  | "format", _ :: value => d.takeFormat value
  | "help", [] => .help true
  | "performance", [] => flag 'p'
  | "debug", [] => flag 'd'
  | "verbose", [] => flag 'v'
  | _, _ => .misuse
where
  /-- The option without a value that has a letter. -/
  flag (letter : Char) : Step :=
    match d.takeFlag letter with
    | some d => .next d
    | none => .misuse

/-- Takes an argument that is not the value of the one before it. -/
def takeArgument (d : Draft) (argument : String) : Step :=
  match argument.toList with
  | '-' :: '-' :: word => d.takeWord word
  | '-' :: letter :: rest => d.takeLetters (letter :: rest)
  | _ =>
    match d.takePath argument with
    | some d => .next d
    | none => .misuse

/-- What is asked for once all arguments have been read. -/
def finish (d : Draft) : Request :=
  match d.paths with
  | [tracePath, configPath] =>
    .simulate { configPath, tracePath, format := d.format.getD .fixed,
                performance := d.performance, verbose := d.verbose }
  | _ => .misuse

end Draft

/-- Reads arguments after which nothing is an option. -/
def Request.ofPaths (d : Draft) : List String → Request
  | [] => d.finish
  | path :: rest =>
    match d.takePath path with
    | some d => ofPaths d rest
    | none => .misuse

/-- Reads the rest of the arguments. -/
def Request.ofRest (d : Draft) : List String → Request
  | [] => d.finish
  | "--" :: paths => ofPaths d paths
  | argument :: rest =>
    match d.takeArgument argument with
    | .next d => ofRest d rest
    | .help long => .help long
    | .misuse => .misuse
    | .wantsFormat d =>
      match rest with
      | [] => .misuse
      | value :: rest =>
        match d.takeFormat value.toList with
        | .next d => ofRest d rest
        | _ => .misuse

/-- Reads the arguments. -/
def Request.ofArguments (arguments : List String) : Request := ofRest {} arguments

end AssocCache.CommandLine
