import AssocCache.CommandLine

/-!
# The program

Reads the files, runs the command, and prints what it computed.
-/

open AssocCache CommandLine

/-- The number of a system error, which may be given with the opposite sign. -/
def errorNumber (code : UInt32) : UInt32 := if code < 0x80000000 then code else 0 - code

/-- What the failure to read a path says about it. -/
def contentsOfError : IO.Error → Contents
  | .noFileOrDirectory .. => .closed .missing
  | .permissionDenied .. => .closed .denied
  | .inappropriateType _ code _ =>
    if errorNumber code = 20 then .closed .notDirectory else .unmappable
  | .invalidArgument _ code _ =>
    if errorNumber code = 36 then .closed .nameTooLong else .unmappable
  | _ => .unmappable

/-- What opening a device leads to, if a path is that of a device. -/
def deviceContents (path : String) : IO (Option Contents) := do
  try
    let real := toString (← IO.FS.realPath path)
    pure ((Directory.devices.find? fun device => real == "/dev/" ++ device.1).map Prod.snd)
  catch _ =>
    pure none

/-- What is found at a path. -/
def readContents (path : String) : IO Contents := do
  match ← deviceContents path with
  | some contents => pure contents
  | none =>
    try
      let bytes ← IO.FS.readBinFile path
      pure (.file bytes.toList)
    catch error =>
      pure (contentsOfError error)

/-- A duration in nanoseconds as seconds. -/
def seconds (nanoseconds : Nat) : String :=
  let fraction := String.ofList (Numeral.padded 10 9 (nanoseconds % 10 ^ (9 : Nat)))
  s!"{nanoseconds / 10 ^ (9 : Nat)}.{fraction}"

/-- Prints an output and answers with its exit code. -/
def printOutput (output : Output) : IO UInt32 := do
  IO.print output.stdout
  IO.eprint output.stderr
  pure (UInt32.ofNat output.exit)

/-- The command. -/
def main (arguments : List String) : IO UInt32 := do
  let start ← IO.monoNanosNow
  match Request.ofArguments arguments with
  | .simulate o =>
    let config ← readContents o.configPath
    let trace ← readContents o.tracePath
    let ready ← IO.monoNanosNow
    let ended := simulate o config trace
    let done ← IO.monoNanosNow
    let timing : Timing := ⟨seconds (done - ready), seconds (done - start)⟩
    printOutput (outputOf o timing ended)
  | _ => printOutput (run arguments (fun _ => .unmappable) ⟨"0", "0"⟩)
