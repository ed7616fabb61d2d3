import Procguard.Process
import Procguard.Text

/- `duration.rs`: "30s", "100ms", "500us", "5m", "1.5h", "0.5d", no suffix meaning
   seconds. The number is read to fixed point with nine decimal places in u128,
   every product checked, and the result has to fit u64 nanoseconds. -/
namespace Procguard
open Text

def u128Max : Nat := 2 ^ 128 - 1

/-- `u128::checked_mul`. -/
def checkedMul128 (a b : Nat) : Option Nat := if a * b ≤ u128Max then some (a * b) else none

/-- `u128::checked_add`. -/
def checkedAdd128 (a b : Nat) : Option Nat := if a + b ≤ u128Max then some (a + b) else none

/-- `Option::ok_or`. -/
def okOr {α : Type} (e : TimeoutError) : Option α → Except TimeoutError α
  | some a => .ok a
  | none => .error e

/-- A fallible step, followed by the rest, with a result. -/
theorem bind_eq_ok {ε α β : Type} {x : Except ε α} {f : α → Except ε β} {b : β} :
    x >>= f = .ok b ↔ ∃ a, x = .ok a ∧ f a = .ok b := by
  cases x with
  | error e => simp [bind, Except.bind]
  | ok a => simp [bind, Except.bind]

def nanosPerSec : Nat := 1000000000

/-- Where the number ends and the suffix begins: after the last digit or point. -/
def splitNumberAndSuffix (input : List Char) : List Char × List Char :=
  (input.rdropWhile fun c => !(c.isDigit || c == '.'),
    input.rtakeWhile fun c => !(c.isDigit || c == '.'))

def invalidNumber (s : List Char) : TimeoutError :=
  let text := String.ofList s
  .invalidDuration s!"invalid number '{text}'"

/-- The digits after the point, padded or cut to nine: later ones are not looked at. -/
def parseFraction (fracPart : List Char) : Option Nat :=
  if (fracPart.take 9).all Char.isDigit then
    readDigits u128Max 0 (fracPart.take 9 ++ List.replicate (9 - fracPart.length) '0')
  else none

/-- Decimal text to fixed point with nine decimal places. -/
def parseDecimalToNanos (s : List Char) : Except TimeoutError Nat := do
  if s.head? = some '-' then throw .negativeDuration
  let intPart := s.takeWhile (· ≠ '.')
  let fracPart := (s.dropWhile (· ≠ '.')).drop 1
  -- reject bare "." - need at least one digit
  if intPart.isEmpty && fracPart.isEmpty then throw (.invalidDuration "invalid number '.'")
  let intVal ← if intPart.isEmpty then pure 0 else
    okOr (invalidNumber s) (parseUnsigned u128Max intPart)
  let fracVal ← if fracPart.isEmpty then pure 0 else
    okOr (invalidNumber s) (parseFraction fracPart)
  okOr .durationOverflow ((checkedMul128 intVal nanosPerSec).bind (checkedAdd128 · fracVal))

/-- The unit of a suffix in nanoseconds, in any case of its ASCII letters. -/
def unitNanos (suffix : List Char) : Option Nat :=
  match asciiLower suffix with
  | "" | "s" => some 1000000000
  | "ms" => some 1000000
  | "us" | "\u00b5s" => some 1000
  | "m" => some 60000000000
  | "h" => some 3600000000000
  | "d" => some 86400000000000
  | _ => none

/-- A duration of that many nanoseconds, at most `u64::MAX` of them. -/
def durationOfNanos (total : Nat) : Except TimeoutError Duration :=
  if h : u64Max < total then .error .durationOverflow
  else .ok {
    asSecs := total / 1000000000
    subsecNanos := total % 1000000000
    secs_le := by omega
    nanos_lt := by omega }

def parseDuration (input : String) : Except TimeoutError Duration := do
  let input := trim input
  if input.isEmpty then throw (.invalidDuration "empty duration")
  let (numStr, suffix) := splitNumberAndSuffix input
  if numStr.isEmpty then
    let text := String.ofList input
    throw (.invalidDuration s!"no numeric value in '{text}'")
  let nanos ← parseDecimalToNanos numStr
  match unitNanos suffix with
  | none =>
    let text := String.ofList suffix
    throw (.invalidDuration s!"invalid suffix '{text}'")
  | some multiplier =>
    -- scale back from fixed point
    let total ← okOr .durationOverflow ((checkedMul128 nanos multiplier).map (· / nanosPerSec))
    durationOfNanos total

/-- Whether the text is a duration. -/
def isDuration (s : String) : Bool := (parseDuration s).isOk

example : (parseDuration " 1.5m ").map durationToNs = .ok 90000000000 := by decide +kernel

end Procguard
