/-
# The command `backlog-trace`

Reads the words, the configuration file, the clock and the random source, prints what
the run shows, and reports failures on the error stream. A wrong command line ends with
code 2, a failure with code 1.

Key definition: `main`.
-/
import Std.Time.DateTime.Timestamp
import TraceBacklog.Demo

namespace TraceBacklog

namespace Terminal

/-- The reason for which a file cannot be read. -/
def reasonOf : IO.Error → String
  | .noFileOrDirectory _ _ _ => "No such file or directory (os error 2)"
  | .permissionDenied _ _ _ => "Permission denied (os error 13)"
  | .inappropriateType _ _ "not a directory" => "Not a directory (os error 20)"
  | .inappropriateType _ _ _ => "Is a directory (os error 21)"
  | .invalidArgument _ _ "name too long" => "File name too long (os error 36)"
  | e => toString e

/-- What a path holds. -/
def readFile (path : String) : IO Config.FileContent := do
  try
    return .bytes (← IO.FS.readBinFile path)
  catch e => return .unreadable (reasonOf e)

/-- The current time. -/
def now : IO Timestamp := do
  let t ← Std.Time.Timestamp.now
  return (Timestamp.ofUnix? t.toSecondsSinceUnixEpoch.val
    (t.toNanosecondsSinceUnixEpoch.val % 1000000000).toNat).getD .epoch

/-- Sixteen random bytes as a random identity: version 4, variant 10. -/
def identity (bytes : List UInt8) : String :=
  let marked := bytes.zipIdx.map fun (b, i) =>
    if i = 6 then b &&& 0x0f ||| 0x40 else if i = 8 then b &&& 0x3f ||| 0x80 else b
  let digits := Hex.encode marked
  let part (start len : Nat) : List Char := (digits.drop start).take len
  String.ofList (part 0 8 ++ '-' :: part 8 4 ++ '-' :: part 12 4 ++ '-' :: part 16 4 ++
    '-' :: part 20 12)

def freshId : IO String := do
  return identity (← IO.getRandomBytes 16).toList

/-- Readings for the captures of an exchange, one for every stage of the pipeline. -/
def windClock (d : Demo) : IO Demo := do
  let times ← d.pipeline.mapM fun _ => now
  return { d with engine := { d.engine with clock := ⟨fun n => times.getD n .epoch, 0⟩ } }

/-- Sends all orders, each with an identity and readings of its own. -/
def sendAll (d : Demo) : List (Nat × Nat) → IO Demo
  | [] => return d
  | (worker, n) :: rest => do
    sendAll ((← windClock d).send (Demo.order (← freshId) worker n)) rest

/-- Prints the journal as far as it was asked for. -/
def report (verbose : Bool) (e : Engine) : IO Unit :=
  for entry in e.journal.reverse do
    if verbose || entry.level ≠ .debug then IO.eprintln entry.line

/-- Reports why a run did not come to its end; gives back the exit code. -/
def fail (stop : Stop) : IO UInt32 := do
  IO.eprintln stop.report
  return stop.exitCode

/-- Runs the demo; gives back the exit code. -/
def run (o : Options) : IO UInt32 := do
  let content ← match o.config with
    | none => pure (.unreadable "")
    | some path => readFile path
  match o.tracerConfig fun _ => content with
  | .error f => fail (.failed f)
  | .ok c =>
    match Demo.prepare o c (.still (← now)) with
    | .error stop => fail stop
    | .ok d =>
      let d ← sendAll d (Demo.scheduleFor o)
      let (d, events) := d.dump o.node
      match events with
      | .error stop => fail stop
      | .ok events =>
        IO.println (String.ofList (Demo.output o events))
        let (d, closed) := d.close
        report o.verbose d.engine
        match closed with
        | .error stop => fail stop
        | .ok () => return 0

/-- Does what the words ask for; gives back the exit code. -/
def runWords (words : List String) : IO UInt32 := do
  match Options.ofWords words with
  | .ok o => run o
  | .error .version => do
    IO.println versionText
    return 0
  | .error .help => do
    IO.println helpText
    return 0
  | .error (.refused e) => do
    IO.eprintln ("error: " ++ e.message)
    return 2

end Terminal

end TraceBacklog

def main (args : List String) : IO UInt32 := TraceBacklog.Terminal.runWords args
