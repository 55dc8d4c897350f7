/-
# The command line

Options have long names, some also a letter. A value follows its option as the next
word, after an equals sign, or, after a letter, at once; letters without a value may
share a word. No option may be given twice, a value that is a word of its own cannot
start with a dash (a lone dash can), and there are no words besides options. Words are
read from left to right, and the first one that asks for the version or for help, or
that is wrong, ends the reading.

Key definitions: `Options`, `Word`, `Options.ofWords`, `Ending`, `helpText`,
`versionText`.
-/
import TraceBacklog.Number.Decimal

namespace TraceBacklog

/-- What a run of the command was asked for. -/
structure Options where
  config : Option String
  exchanges : UInt64
  threads : UInt64
  node : Option String
  capacity : Option UInt64
  backlogSize : Option Int64
  json : Bool
  verbose : Bool
deriving DecidableEq, Repr

/-- What is wrong with the words. -/
inductive UsageError where
  | unknownOption (word : String)
  | unexpectedWord (word : String)
  | missingValue (option : String)
  | unneededValue (option : String)
  | invalidValue (option value : String)
  | repeatedOption (option : String)
deriving DecidableEq, Repr

namespace UsageError

def message : UsageError → String
  | .unknownOption word => "unexpected argument '" ++ word ++ "' found"
  | .unexpectedWord word => "unexpected argument '" ++ word ++ "' found"
  | .missingValue option => "a value is required for '" ++ option ++ "' but none was supplied"
  | .unneededValue option => "unexpected value for '" ++ option ++ "' found; no more were expected"
  | .invalidValue option value => "invalid value '" ++ value ++ "' for '" ++ option ++ "'"
  | .repeatedOption option => "the argument '" ++ option ++ "' cannot be used multiple times"

end UsageError

/-- Why the reading ended before the last word. -/
inductive Ending where
  | version
  | help
  | refused (error : UsageError)
deriving DecidableEq, Repr

/-! ### Values -/

/-- An unsigned word; a plus sign may stand in front. -/
def readUnsigned (value : String) : Option UInt64 :=
  let digits := match value.toList with
    | '+' :: rest => rest
    | cs => cs
  match decimal? digits with
  | none => none
  | some n => if n < wordBound then some (UInt64.ofNat n) else none

/-- A signed word. -/
def readSigned (value : String) : Option Int64 :=
  let number : Option Int := match value.toList with
    | '-' :: rest => (decimal? rest).map fun n => -(n : Int)
    | '+' :: rest => (decimal? rest).map fun n => (n : Int)
    | cs => (decimal? cs).map fun n => (n : Int)
  match number with
  | none => none
  | some n => if -(signedBound : Int) ≤ n ∧ n < signedBound then some (Int64.ofInt n) else none

/-! ### Options -/

/-- Options with a value. -/
inductive ValueOption where
  | config
  | exchanges
  | threads
  | node
  | capacity
  | backlogSize
deriving DecidableEq, Repr

/-- Options without a value. -/
inductive Flag where
  | json
  | verbose
deriving DecidableEq, Repr

/-- What a name on the command line stands for. -/
inductive OptionKind where
  | value (option : ValueOption)
  | flag (f : Flag)
  /-- Ends the reading. -/
  | ask (ending : Ending)
deriving DecidableEq, Repr

namespace ValueOption

def name : ValueOption → String
  | .config => "--config"
  | .exchanges => "--exchanges"
  | .threads => "--threads"
  | .node => "--node"
  | .capacity => "--capacity"
  | .backlogSize => "--backlog-size"

end ValueOption

def Flag.name : Flag → String
  | .json => "--json"
  | .verbose => "--verbose"

namespace OptionKind

/-- Long names are written out in full. -/
def ofName? (name : String) : Option OptionKind :=
  match name with
  | "config" => some (.value .config)
  | "exchanges" => some (.value .exchanges)
  | "threads" => some (.value .threads)
  | "node" => some (.value .node)
  | "capacity" => some (.value .capacity)
  | "backlog-size" => some (.value .backlogSize)
  | "json" => some (.flag .json)
  | "verbose" => some (.flag .verbose)
  | "help" => some (.ask .help)
  | "version" => some (.ask .version)
  | _ => none

def ofLetter? (letter : Char) : Option OptionKind :=
  match letter with
  | 'c' => some (.value .config)
  | 'e' => some (.value .exchanges)
  | 't' => some (.value .threads)
  | 'n' => some (.value .node)
  | 'v' => some (.flag .verbose)
  | 'h' => some (.ask .help)
  | 'V' => some (.ask .version)
  | _ => none

end OptionKind

/-- The options that were given so far. -/
structure Given where
  config : Option String
  exchanges : Option UInt64
  threads : Option UInt64
  node : Option String
  capacity : Option UInt64
  backlogSize : Option Int64
  json : Bool
  verbose : Bool
deriving DecidableEq, Repr

namespace Given

def nothing : Given := ⟨none, none, none, none, none, none, false, false⟩

/-- Defaults take the place of what was not given. -/
def options (g : Given) : Options where
  config := g.config
  exchanges := g.exchanges.getD 20
  threads := g.threads.getD 2
  node := g.node
  capacity := g.capacity
  backlogSize := g.backlogSize
  json := g.json
  verbose := g.verbose

/-- A value for an option that has none yet. -/
def accept {α : Type} (option : ValueOption) (value : String) (old : Option α)
    (read : String → Option α) (store : α → Given) : Except Ending Given :=
  match old with
  | some _ => .error (.refused (.repeatedOption option.name))
  | none =>
    match read value with
    | none => .error (.refused (.invalidValue option.name value))
    | some a => .ok (store a)

/-- Sets a value. The path of a configuration cannot be empty. -/
def setValue (g : Given) (option : ValueOption) (value : String) : Except Ending Given :=
  match option with
  | .config =>
    accept option value g.config (fun s => if s.isEmpty then none else some s)
      fun s => { g with config := some s }
  | .exchanges =>
    accept option value g.exchanges readUnsigned fun n => { g with exchanges := some n }
  | .threads => accept option value g.threads readUnsigned fun n => { g with threads := some n }
  | .node => accept option value g.node some fun s => { g with node := some s }
  | .capacity =>
    accept option value g.capacity readUnsigned fun n => { g with capacity := some n }
  | .backlogSize =>
    accept option value g.backlogSize readSigned fun n => { g with backlogSize := some n }

def setFlag (g : Given) (f : Flag) : Except Ending Given :=
  match f with
  | .json =>
    if g.json then .error (.refused (.repeatedOption f.name)) else .ok { g with json := true }
  | .verbose =>
    if g.verbose then .error (.refused (.repeatedOption f.name))
    else .ok { g with verbose := true }

end Given

/-! ### Words -/

/-- The form of a word. -/
inductive Word where
  /-- Two dashes; only words that are no options follow. -/
  | escape
  | long (name : String) (value : Option String)
  | letters (cs : List Char)
  | plain (text : String)
deriving DecidableEq, Repr

/-- The part before the first equals sign, and what follows it if there is one. -/
def splitAtEquals : List Char → List Char × Option (List Char)
  | [] => ([], none)
  | '=' :: rest => ([], some rest)
  | c :: rest =>
    let (name, value) := splitAtEquals rest
    (c :: name, value)

namespace Word

def ofString (word : String) : Word :=
  match word.toList with
  | ['-', '-'] => .escape
  | '-' :: '-' :: rest =>
    let (name, value) := splitAtEquals rest
    .long (String.ofList name) (value.map String.ofList)
  | '-' :: c :: rest => .letters (c :: rest)
  | _ => .plain word

end Word

namespace Options

/-- Reads letters that share a word; gives back the option that still needs a value. -/
def readLetters (g : Given) : List Char → Except Ending (Given × Option ValueOption)
  | [] => .ok (g, none)
  | c :: rest =>
    match OptionKind.ofLetter? c with
    | none => .error (.refused (.unknownOption (String.ofList ['-', c])))
    | some (.ask ending) => .error ending
    | some (.flag f) =>
      match g.setFlag f with
      | .error ending => .error ending
      | .ok g => readLetters g rest
    | some (.value option) =>
      match rest with
      | [] => .ok (g, some option)
      | '=' :: value => (g.setValue option (String.ofList value)).map fun g => (g, none)
      | value => (g.setValue option (String.ofList value)).map fun g => (g, none)

/-- Reads an option by its long name. -/
def readLong (g : Given) (name : String) (value : Option String) :
    Except Ending (Given × Option ValueOption) :=
  match OptionKind.ofName? name, value with
  | none, _ => .error (.refused (.unknownOption ("--" ++ name)))
  | some (.value option), none => .ok (g, some option)
  | some (.value option), some value => (g.setValue option value).map fun g => (g, none)
  | some _, some _ => .error (.refused (.unneededValue ("--" ++ name)))
  | some (.flag f), none => (g.setFlag f).map fun g => (g, none)
  | some (.ask ending), none => .error ending

/-- Reads words; `pending` is the option whose value is the next word. -/
def readWords (g : Given) (pending : Option ValueOption) : List String → Except Ending Given
  | [] =>
    match pending with
    | none => .ok g
    | some option => .error (.refused (.missingValue option.name))
  | word :: rest =>
    match pending, Word.ofString word with
    | some option, .plain value =>
      match g.setValue option value with
      | .error ending => .error ending
      | .ok g => readWords g none rest
    | some option, _ => .error (.refused (.missingValue option.name))
    | none, .plain text => .error (.refused (.unexpectedWord text))
    | none, .escape =>
      match rest with
      | [] => .ok g
      | text :: _ => .error (.refused (.unexpectedWord text))
    | none, .long name value =>
      match readLong g name value with
      | .error ending => .error ending
      | .ok (g, pending) => readWords g pending rest
    | none, .letters cs =>
      match readLetters g cs with
      | .error ending => .error ending
      | .ok (g, pending) => readWords g pending rest

/-- Reads a command line. -/
def ofWords (words : List String) : Except Ending Options :=
  (readWords .nothing none words).map (·.options)

example : (ofWords ["-ve5", "--backlog-size=-3"]).toOption =
    some ⟨none, 5, 2, none, none, some (-3), false, true⟩ := by decide +kernel
example : (ofWords ["--backlog-size", "-3"]).toOption = none := by decide +kernel

end Options

/-! ### Texts -/

def commandName : String := "backlog-trace"

def versionText : String := commandName ++ " 0.1.0"

/-- How the command is used, line by line. -/
def helpLines : List String := [
  "Run a demo route with the backlog tracer and dump the captured events",
  "",
  "Usage: backlog-trace [OPTIONS]",
  "",
  "Options:",
  "  -c, --config <CONFIG>              Path to a tracer configuration JSON file",
  "  -e, --exchanges <EXCHANGES>        Number of exchanges to send through the route [default: 20]",
  "  -t, --threads <THREADS>            Number of producer threads [default: 2]",
  "  -n, --node <NODE>                  Only dump events for this node (keeps the backlog)",
  "      --capacity <CAPACITY>          Override the backlog capacity",
  "      --backlog-size <BACKLOG_SIZE>  Override the per-node backlog size",
  "      --json                         Output JSON Lines instead of XML",
  "  -v, --verbose                      Verbose output (show debug info)",
  "  -h, --help                         Print help",
  "  -V, --version                      Print version"]

def helpText : String := String.intercalate "\n" helpLines

end TraceBacklog
