import AssocCache.CommandLine.Directory
import AssocCache.CommandLine.Options
import AssocCache.Config
import AssocCache.Config.Reader
import AssocCache.Hierarchy
import AssocCache.Json
import AssocCache.Report
import AssocCache.Text

/-!
# The command line

The command reads a configuration and a trace, simulates the trace, and prints the
report, followed by the time taken if asked for, the configuration with all of its
settings, and how many lines ended up resident.  Here is all of it but the
reading of files and the printing: from the arguments, what the files hold and the
times, `CommandLine.run` computes the whole output.
-/

namespace AssocCache.CommandLine

/-- What a command printed, and its exit code. -/
structure Output where
  exit : Nat
  stdout : String
  stderr : String
  deriving DecidableEq, Repr

/-- The times taken, in seconds. -/
structure Timing where
  simulation : String
  total : String

/-- Why a command ended early. -/
inductive Complaint where
  | error (text : String) (cause : Option String)
  | aborted (fault : Fault)
  deriving DecidableEq, Repr

/-! ## Log lines -/

/-- A text with all lines but the first indented by four spaces. -/
def indentLines (text : String) : String :=
  String.join (text.toList.map fun c => if c = '\n' then "\n    " else c.toString)

/-- The name of the part of the program that speaks. -/
def speakerName : Speaker → String
  | .set => "tagstore::set"
  | .store => "tagstore::tag_store"
  | .victimSearch => "tagstore::replacement_policies::rrip"
  | .hierarchy => "tagstore::simulator"
  | .commandLine => "tagsim"

/-- An entry of the log.  If its text has several lines, the later ones are
indented. -/
def logLine (m : Message) : String :=
  let label := String.ofList (m.severity.label.toList.rightpad 5 ' ')
  s!"[{label} {speakerName m.speaker}] {indentLines m.text}\n"

/-- The lines of the log that are shown. -/
def logText (verbose : Bool) (log : Array Message) : String :=
  let lowest : Severity := if verbose then .debug else .warn
  let shown := log.toList.filter fun m => m.severity.rank ≤ lowest.rank
  String.join (shown.map logLine)

/-! ## Errors -/

/-- How a complaint is printed. -/
def Complaint.text : Complaint → String
  | .error text none => s!"Error: {text}\n"
  | .error text (some cause) => s!"Error: {text}\n\nCaused by:\n    {indentLines cause}\n"
  | .aborted fault => fault.message ++ "\n"

/-- The exit code after a complaint. -/
def Complaint.exit : Complaint → Nat
  | .error _ _ => 1
  | .aborted _ => 101

/-! ## The simulation -/

/-- Why the files asked for could not be simulated. -/
def complaintOfBuild : BuildFailure → Complaint
  | .rejected error => .error "Invalid cache configuration" (some error.message)
  | .aborted fault => .aborted fault

/-- Why the trace was not finished. -/
def complaintOfTrace : TraceFailure → Complaint
  | .store (.aborted fault) => .aborted fault
  | failure => .error failure.message none

/-- The configuration that the bytes of a file spell. -/
def configOf? (bytes : List UInt8) : Option HierarchyConfig :=
  (Json.ofBytes? bytes).bind HierarchyConfig.ofJson?

/-- The configuration found at a path. -/
def loadConfig (path : String) : Contents → Except Complaint HierarchyConfig
  | .closed error =>
    .error (.error s!"Couldn't open the config file at path {path}" (some error.message))
  | .unmappable => .error (.error "Couldn't parse the config file" none)
  | .file bytes =>
    match configOf? bytes with
    | none => .error (.error "Couldn't parse the config file" none)
    | some c => .ok c

/-- The bytes of the trace found at a path. -/
def loadTrace (path : String) : Contents → Except Complaint (List UInt8)
  | .closed error =>
    .error (.error s!"Couldn't open the trace file at path {path}" (some error.message))
  | .unmappable =>
    .error (.error "Couldn't read the trace file" (some "No such device (os error 19)"))
  | .file bytes => .ok bytes

/-- Runs a trace in a form on a hierarchy. -/
def runTrace (format : TraceFormat) (bytes : List UInt8) (h : Hierarchy) :
    Logged Complaint Hierarchy :=
  match format with
  | .fixed => finish (Hierarchy.simulateFixed bytes h)
  | .text =>
    match Text.Utf8.decode bytes with
    | .error error => Logged.fail (.error "The text trace isn't valid UTF-8" (some error.message))
    | .ok text => finish (Hierarchy.simulateText text h)
where
  /-- The hierarchy after a trace that did not fail. -/
  finish (ended : Logged TraceFailure Unit × Hierarchy) : Logged Complaint Hierarchy := do
    ended.1.mapError complaintOfTrace
    pure ended.2

/-- Simulates the trace on the hierarchy that the configuration describes. -/
def simulate (o : Options) (config trace : Contents) :
    Logged Complaint (HierarchyConfig × Hierarchy) :=
  match loadConfig o.configPath config with
  | .error complaint => Logged.fail complaint
  | .ok c => do
    let h ← (Hierarchy.ofConfig c).mapError complaintOfBuild
    match loadTrace o.tracePath trace with
    | .error complaint => Logged.fail complaint
    | .ok bytes =>
      Logged.note ⟨.info, .commandLine,
        s!"simulating {bytes.length} bytes of {o.format.name} trace"⟩
      let h ← runTrace o.format bytes h
      pure (c, h)

/-! ## The output -/

/-- What is printed about the time taken. -/
def timingText (t : Timing) : String :=
  s!"Simulation time: {t.simulation}s\n" ++
    s!"Total execution time (includes initial parsing, configuration, and output): {t.total}s\n"

/-- What is printed about the configuration and the lines that are resident. -/
def debugText (c : HierarchyConfig) (h : Hierarchy) : String :=
  let layers := (c.caches.zip h.occupancies).map fun (cache, count) => s!"{cache.name}: {count}"
  "Running the debug binary, debug mode is enabled by default. " ++
    "Build with --release when benchmarking\n" ++
    s!"Parsed input configuration: {c.description}\n" ++
    "Valid lines by layer: (" ++ ", ".intercalate layers ++ ")\n" ++
    s!"Total valid lines: {h.occupancies.foldl (· + ·) 0}\n"

/-- The output of a simulation. -/
def outputOf (o : Options) (timing : Timing)
    (ended : Logged Complaint (HierarchyConfig × Hierarchy)) : Output :=
  let log := logText o.verbose ended.log
  match ended.result with
  | .error complaint => ⟨complaint.exit, "", log ++ complaint.text⟩
  | .ok (c, h) =>
    let report := h.report.toJson.pretty ++ "\n"
    let times := if o.performance then timingText timing else ""
    ⟨0, report ++ times ++ debugText c h, log⟩

/-- How the command is used. -/
def usage : String := "Usage: tagsim [OPTIONS] <CONFIG> <TRACE>\n"

/-- The arguments and options with a line each. -/
def shortHelp : String :=
  "\nArguments:\n  <CONFIG>  \n  <TRACE>   \n\nOptions:\n" ++
    "  -f, --format <FORMAT>  [default: fixed] [possible values: fixed, text]\n" ++
    "  -p, --performance      \n  -d, --debug            \n" ++
    "  -v, --verbose          Log evictions and writebacks, overriding RUST_LOG\n" ++
    "  -h, --help             Print help (see more with '--help')\n"

/-- The arguments and options at length. -/
def longHelp : String :=
  "\nArguments:\n  <CONFIG>\n          \n\n  <TRACE>\n          \n\nOptions:\n" ++
    "  -f, --format <FORMAT>\n          Possible values:\n" ++
    "          - fixed: 40 byte records: `<pc:016X> <address:016X> <R|W> <size:03>`\n" ++
    "          - text:  One `R|W <hex address> [size]` access per line\n" ++
    "          \n          [default: fixed]\n\n  -p, --performance\n          \n\n" ++
    "  -d, --debug\n          \n\n" ++
    "  -v, --verbose\n          Log evictions and writebacks, overriding RUST_LOG\n\n" ++
    "  -h, --help\n          Print help (see a summary with '-h')\n"

/-- The help text, at length or not. -/
def helpText (long : Bool) : String :=
  "Trace driven simulator for layered set-associative tag stores\n\n" ++ usage ++
    if long then longHelp else shortHelp

/-- The whole output of the command, for what `contents` finds at a path. -/
def run (arguments : List String) (contents : String → Contents) (timing : Timing) : Output :=
  match Request.ofArguments arguments with
  | .simulate o => outputOf o timing (simulate o (contents o.configPath) (contents o.tracePath))
  | .help long => ⟨0, helpText long, ""⟩
  | .misuse => ⟨2, "", "error: the arguments are not understood\n\n" ++ usage⟩

end AssocCache.CommandLine
