import Procguard.Duration
import Procguard.WaitKqueue

/- `args.rs`: the command line. `parse_from_slice` is one loop over the tokens; what
   an iteration does is `parseToken`, given the token and the tokens after it. The
   arms of its `match` are tables: `classify` finds the arm of a token, and the arms
   that take a value share `ValueOpt.set`. A borrowed and an owned value are the same
   text here, so `Args` is the source's `Args` and its `OwnedArgs`. -/
namespace Procguard
open Text

/-- `Confine::from_str`. -/
def Confine.fromStr (s : String) : Option Confine :=
  match asciiLower s.toList with
  | "wall" => some .wall
  | "active" => some .active
  | _ => none

/-- `Args`, with what `parse_from_slice` starts from. -/
structure Args where
  json : Bool := false
  signal : String := ""
  killAfter : Option String := none
  preserveStatus : Bool := false
  foreground : Bool := false
  verbose : Bool := false
  quiet : Bool := false
  timeoutExitCode : Option UInt8 := none
  onTimeout : Option String := none
  onTimeoutLimit : String := "5s"
  confine : Confine := .wall
  confineSpecified : Bool := false
  waitForFile : Option String := none
  waitForFileTimeout : Option String := none
  retry : Option String := none
  retryDelay : Option String := none
  retryBackoff : Option String := none
  heartbeat : Option String := none
  stdinTimeout : Option String := none
  stdinPassthrough : Bool := false
  memLimit : Option String := none
  cpuTime : Option String := none
  cpuPercent : Option String := none
  duration : Option String := none
  command : Option String := none
  args : List String := []
  deriving DecidableEq, Repr

/-- How parsing stops: `exit(0)` after the help or the version, or a `ParseError`. -/
inductive ParseExit where
  | help
  | version
  | error (message : String)
  deriving DecidableEq, Repr

/-! ## The options -/

inductive Flag where
  | json | preserveStatus | foreground | verbose | quiet | stdinPassthrough
  deriving DecidableEq, Repr

def Flag.set (r : Args) : Flag → Args
  | .json => { r with json := true }
  | .preserveStatus => { r with preserveStatus := true }
  | .foreground => { r with foreground := true }
  | .verbose => { r with verbose := true }
  | .quiet => { r with quiet := true }
  | .stdinPassthrough => { r with stdinPassthrough := true }

/-- The options that take a value. -/
inductive ValueOpt where
  | signal | killAfter | timeoutExitCode | onTimeout | onTimeoutLimit | confine | waitForFile
  | waitForFileTimeout | retry | retryDelay | retryBackoff | heartbeat | stdinTimeout | memLimit
  | cpuTime | cpuPercent
  deriving DecidableEq, Repr

/-- Store the value of an option: an exit code and a mode are read at once. -/
def ValueOpt.set (r : Args) (val : String) : ValueOpt → Except ParseExit Args
  | .signal => .ok { r with signal := val }
  | .killAfter => .ok { r with killAfter := some val }
  | .timeoutExitCode => match parseUnsigned 255 val.toList with
    | some n => .ok { r with timeoutExitCode := some (UInt8.ofNat n) }
    | none => .error (.error s!"invalid exit code: '{val}' (must be 0-255)")
  | .onTimeout => .ok { r with onTimeout := some val }
  | .onTimeoutLimit => .ok { r with onTimeoutLimit := val }
  | .confine => match Confine.fromStr val with
    | some c => .ok { r with confine := c, confineSpecified := true }
    | none => .error (.error s!"invalid confine mode: '{val}' (use 'wall' or 'active')")
  | .waitForFile => .ok { r with waitForFile := some val }
  | .waitForFileTimeout => .ok { r with waitForFileTimeout := some val }
  | .retry => .ok { r with retry := some val }
  | .retryDelay => .ok { r with retryDelay := some val }
  | .retryBackoff => .ok { r with retryBackoff := some val }
  | .heartbeat => .ok { r with heartbeat := some val }
  | .stdinTimeout => .ok { r with stdinTimeout := some val }
  | .memLimit => .ok { r with memLimit := some val }
  | .cpuTime => .ok { r with cpuTime := some val }
  | .cpuPercent => .ok { r with cpuPercent := some val }

/-- The value is the next token. -/
def takeValue (o : ValueOpt) (missing : String) (r : Args) :
    List String → Except ParseExit (Args × List String)
  | [] => .error (.error missing)
  | val :: rest => (o.set r val).map fun r' => (r', rest)

/-- The arm of the `match` that a token falls under. -/
inductive Word where
  | help
  | version
  | flag (f : Flag)
  | value (o : ValueOpt) (missing : String)
  | inline (o : ValueOpt) (val : String)
  | unknownLong
  | short
  | positional
  deriving DecidableEq, Repr

/-- The tokens that are an arm by themselves. -/
def exactArms : List (String × Word) := [
  ("--help", .help), ("-h", .help), ("--version", .version), ("-V", .version),
  ("--json", .flag .json),
  ("-p", .flag .preserveStatus), ("--preserve-status", .flag .preserveStatus),
  ("-f", .flag .foreground), ("--foreground", .flag .foreground),
  ("-v", .flag .verbose), ("--verbose", .flag .verbose),
  ("-q", .flag .quiet), ("--quiet", .flag .quiet),
  ("-s", .value .signal "-s requires a signal name or number"),
  ("--signal", .value .signal "--signal requires a value"),
  ("-k", .value .killAfter "-k requires a duration"),
  ("--kill-after", .value .killAfter "--kill-after requires a value"),
  ("--timeout-exit-code", .value .timeoutExitCode "--timeout-exit-code requires a value"),
  ("--on-timeout", .value .onTimeout "--on-timeout requires a command"),
  ("--on-timeout-limit", .value .onTimeoutLimit "--on-timeout-limit requires a duration"),
  ("--confine", .value .confine "--confine requires a value (wall or active)"),
  ("-c", .value .confine "--confine requires a value (wall or active)"),
  ("--wait-for-file", .value .waitForFile "--wait-for-file requires a path"),
  ("--wait-for-file-timeout",
    .value .waitForFileTimeout "--wait-for-file-timeout requires a duration"),
  ("--retry", .value .retry "--retry requires a count"),
  ("--retry-delay", .value .retryDelay "--retry-delay requires a duration"),
  ("--retry-backoff", .value .retryBackoff "--retry-backoff requires a multiplier (e.g., 2x)"),
  ("-H", .value .heartbeat "-H requires a duration"),
  ("--heartbeat", .value .heartbeat "--heartbeat requires a duration"),
  ("-S", .value .stdinTimeout "-S requires a duration"),
  ("--stdin-timeout", .value .stdinTimeout "--stdin-timeout requires a duration"),
  ("--mem-limit", .value .memLimit "--mem-limit requires a value"),
  ("--cpu-time", .value .cpuTime "--cpu-time requires a duration"),
  ("--cpu-percent", .value .cpuPercent "--cpu-percent requires a value"),
  ("--stdin-passthrough", .flag .stdinPassthrough)]

/-- The arms `s.starts_with(..)`, with the offset at which the value is cut off. -/
def inlineArms : List (String × Nat × ValueOpt) := [
  ("--signal=", 9, .signal), ("--kill-after=", 13, .killAfter),
  ("--timeout-exit-code=", 20, .timeoutExitCode), ("--on-timeout=", 13, .onTimeout),
  ("--on-timeout-limit=", 19, .onTimeoutLimit), ("--confine=", 10, .confine),
  ("--wait-for-file=", 16, .waitForFile), ("--wait-for-file-timeout=", 24, .waitForFileTimeout),
  ("--retry=", 8, .retry), ("--retry-delay=", 14, .retryDelay),
  ("--retry-backoff=", 16, .retryBackoff), ("--heartbeat=", 12, .heartbeat),
  ("--stdin-timeout=", 16, .stdinTimeout), ("--mem-limit=", 12, .memLimit),
  ("--cpu-time=", 11, .cpuTime), ("--cpu-percent=", 14, .cpuPercent)]

def classify (arg : String) : Word :=
  match exactArms.lookup arg with
  | some w => w
  | none => match inlineArms.find? fun arm => startsWith arg arm.1 with
    | some (_, n, o) => .inline o (dropChars arg n)
    | none =>
      if startsWith arg "--" then .unknownLong
      else if startsWith arg "-" && 1 < arg.utf8ByteSize then .short
      else .positional

/-! ## Short option clusters -/

def shortFlag : Char → Option Flag
  | 'p' => some .preserveStatus
  | 'f' => some .foreground
  | 'v' => some .verbose
  | 'q' => some .quiet
  | _ => none

/-- The letters that take a value, and what is said when there is none. -/
def shortValue : Char → Option (ValueOpt × String)
  | 's' => some (.signal, "-s requires a signal name")
  | 'k' => some (.killAfter, "-k requires a duration")
  | 'c' => some (.confine, "-c requires a value (wall or active)")
  | 'r' => some (.retry, "-r requires a retry count")
  | 'H' => some (.heartbeat, "-H requires a duration")
  | 'S' => some (.stdinTimeout, "-S requires a duration")
  | _ => none

/-- The first byte of the character, as a Latin-1 character (`bytes[j] as char`). -/
def leadByte (c : Char) : Char :=
  if c.toNat < 0x80 then c
  else if c.toNat < 0x800 then Char.ofNat (0xC0 + c.toNat / 0x40)
  else if c.toNat < 0x10000 then Char.ofNat (0xE0 + c.toNat / 0x1000)
  else Char.ofNat (0xF0 + c.toNat / 0x40000)

/-- The letters of the token `s` from one on, `rest` being the tokens after `s`. -/
def cluster (s : String) : List Char → Args → List String → Except ParseExit (Args × List String)
  | [], r, rest => .ok (r, rest)
  | 'h' :: _, _, _ =>
    if s.utf8ByteSize = 2 then .error .help
    else .error (.error "-h must be used alone, not in a cluster")
  | 'V' :: _, _, _ =>
    if s.utf8ByteSize = 2 then .error .version
    else .error (.error "-V must be used alone, not in a cluster")
  | c :: letters, r, rest => match shortFlag c with
    | some f => cluster s letters (f.set r) rest
    | none => match shortValue c with
      | some (o, missing) =>
        -- the rest of the cluster is the value, or else the next token
        if letters.isEmpty then takeValue o missing r rest
        else (o.set r (String.ofList letters)).map fun r' => (r', rest)
      | none =>
        let byte := leadByte c
        .error (.error s!"unknown option: -{byte}")

/-! ## The loop -/

/-- The next of duration, command and arguments. -/
def Args.positional (r : Args) (arg : String) : Args :=
  if r.duration.isNone then { r with duration := some arg }
  else if r.command.isNone then { r with command := some arg }
  else { r with args := r.args ++ [arg] }

/-- Whether a token that starts with `-` looks like a negative number. -/
def secondIsDigit (s : String) : Bool := (s.toList[1]?).any Char.isDigit

/-- The `match` on a token: the arguments so far and the tokens still to read. -/
def readOption (r : Args) (arg : String) (rest : List String) :
    Except ParseExit (Args × List String) :=
  match classify arg with
  | .help => .error .help
  | .version => .error .version
  | .flag f => .ok (f.set r, rest)
  | .value o missing => takeValue o missing r rest
  | .inline o val => (o.set r val).map fun r' => (r', rest)
  | .unknownLong => .error (.error s!"unknown option: {arg}")
  | .short =>
    if r.duration.isSome || secondIsDigit arg then .ok (r.positional arg, rest)
    else cluster arg (arg.toList.drop 1) r rest
  | .positional => .ok (r.positional arg, rest)

/-- The variables of the loop; `rest` is `args[i..]`. -/
structure ParseState where
  result : Args := {}
  sawSeparator : Bool := false
  rest : List String
  deriving DecidableEq, Repr

/-- One iteration, at the token `arg`. -/
def parseToken (st : ParseState) (arg : String) (rest : List String) :
    Except ParseExit ParseState :=
  let r := st.result
  if st.sawSeparator then
    -- after --, everything is command + args
    if r.command.isNone then .ok { st with result := { r with command := some arg }, rest }
    else .ok { st with result := { r with args := r.args ++ [arg] }, rest }
  else if arg = "--" then .ok { st with sawSeparator := true, rest }
  else if r.command.isSome then
    -- once command is set, all remaining args go to the command
    .ok { st with result := { r with args := r.args ++ [arg] }, rest }
  else (readOption r arg rest).map fun p => { st with result := p.1, rest := p.2 }

def parseLoop : Nat → ParseState → Except ParseExit ParseState
  | 0, st => .ok st
  | n + 1, st => match st.rest with
    | [] => .ok st
    | arg :: rest => (parseToken st arg rest).bind (parseLoop n)

/-- The loop from a state on: an iteration takes at least one token. -/
def parseTokens (st : ParseState) : Except ParseExit ParseState := parseLoop st.rest.length st

def parseFromSlice (args : List String) : Except ParseExit Args := do
  let st ← parseTokens { rest := args }
  if st.result.verbose && st.result.quiet then
    .error (.error "-v/--verbose cannot be used with -q/--quiet")
  else .ok st.result

/-! ## The environment -/

/-- `getenv`, by name. -/
abbrev Environment := String → Option String

/-- The fallbacks CLI > env > default. -/
def Args.applyEnv (env : Environment) (r : Args) : Args :=
  { r with
    signal := if r.signal.isEmpty then (env "TIMEOUT_SIGNAL").getD "TERM" else r.signal
    killAfter := r.killAfter.or (env "TIMEOUT_KILL_AFTER")
    duration := r.duration.or (env "TIMEOUT")
    waitForFile := r.waitForFile.or (env "TIMEOUT_WAIT_FOR_FILE")
    waitForFileTimeout := r.waitForFileTimeout.or (env "TIMEOUT_WAIT_FOR_FILE_TIMEOUT")
    retry := r.retry.or ((env "TIMEOUT_RETRY").filter fun s => !s.isEmpty)
    heartbeat := r.heartbeat.or (env "TIMEOUT_HEARTBEAT")
    stdinTimeout := r.stdinTimeout.or (env "TIMEOUT_STDIN_TIMEOUT") }

/-- Parse the tokens after the program's name. -/
def parseArgs (env : Environment) (args : List String) : Except ParseExit Args := do
  let r ← parseFromSlice args
  pure (r.applyEnv env)

end Procguard
