import Procguard.Options

/- `resolve_args` of `main.rs`: which positional is the duration and which the command
   when TIMEOUT may stand in for the duration. The parser took the positionals from
   left to right, so that with the duration left out the command is where the duration
   should be; a first positional that is not a duration tells. -/
namespace Procguard

/-- What `resolve_args` returns, and the warning it prints. -/
structure Resolution where
  duration : Option String
  command : Option String
  args : List String
  warning : Option String := none
  deriving DecidableEq, Repr

def resolveArgs (args : Args) (timeoutEnv : Option String) : Resolution :=
  match args.duration, args.command, timeoutEnv with
  -- both positionals and TIMEOUT: shift when the first is no duration
  | some dur, some cmd, some envDur =>
    if !isDuration dur then
      { duration := some envDur, command := some dur, args := cmd :: args.args }
    else
      { duration := some dur, command := some cmd, args := args.args,
        warning := some (s!"warning: TIMEOUT env var set but '{dur}' also looks like a valid " ++
          "duration; using CLI argument (use -- separator to disambiguate)") }
  | some dur, some cmd, none => { duration := some dur, command := some cmd, args := args.args }
  -- only one positional: duration from env, first positional is command
  | some firstPos, none, some envDur =>
    { duration := some envDur, command := some firstPos, args := args.args }
  | some dur, none, none => { duration := some dur, command := none, args := args.args }
  -- no positionals, but env set
  | none, _, some envDur => { duration := some envDur, command := none, args := args.args }
  | none, _, none => { duration := none, command := none, args := args.args }

/-- `parse_args`, then `resolve_args` on the same environment: the option fields with the
    duration, the command and the arguments resolved. -/
def resolved (env : Environment) (argv : List String) : Except ParseExit Args := do
  let args ← parseArgs env argv
  let res := resolveArgs args (env "TIMEOUT")
  pure { args with duration := res.duration, command := res.command, args := res.args }

/-- The environment with TIMEOUT set or unset. -/
def Environment.withTimeout (env : Environment) (val : Option String) : Environment :=
  Function.update env "TIMEOUT" val

end Procguard
