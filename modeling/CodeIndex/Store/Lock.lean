import CodeIndex.Failure.Basic
import CodeIndex.Log.Event
import CodeIndex.Settings.Basic

/-!
# The write lock

Taking the lock that every change needs.  While another holds it, further attempts follow after
growing pauses, up to a number of them; any other obstacle ends the attempts at once.
-/

namespace CodeIndex.Store.Lock

inductive Attempt where
  | granted
  /-- Another holds the lock. -/
  | locked
  | failed (m : Mishap)
  deriving DecidableEq

inductive Step where
  /-- An attempt at the lock, by its number. -/
  | tried (attempt : Nat)
  | noted (e : Log.Event)
  /-- A pause of so many seconds. -/
  | waited (delay : Float)

def notes (steps : List Step) : List Log.Event :=
  steps.filterMap fun
    | .noted e => some e
    | _ => none

/-! ## Pauses -/

/-- The longest pause, in seconds. -/
def longestPause : Float := 2.0

def powerOfTwo : Nat → Float
  | 0 => 1.0
  | n + 1 => 2.0 * powerOfTwo n

/-- The first power of two that is beyond all numbers. -/
def powerLimit : Nat := 1024

/-- The pause after an attempt, counted from zero. -/
def pause (base : Float) (attempt : Nat) : Float :=
  let delay := base * powerOfTwo attempt
  if longestPause < delay then longestPause else delay

def pauseEvent (settings : Settings.Database) (attempt : Nat) : Log.Event :=
  { level := .warning, name := "sqlite_busy_retry"
    members := [("attempt", .nat (attempt + 1)), ("max_retries", .int settings.maxRetries),
      ("delay_sec", .float (pause settings.retryBaseDelay attempt))] }

/-- What is wrong with a pause, if it cannot be waited for: it is no number, or negative; how far below
zero is told too, as the clock counts nanoseconds in 64 bits. -/
def objection? (delay : Float) : Option Mishap :=
  if 0.0 ≤ delay then none
  else if delay.isNaN then some (.wrongValue "Invalid value NaN (not a number)")
  else if delay * 1000000000.0 < -9223372036854775808.0 then
    some (.beyondRange "timestamp out of range for platform time_t")
  else some (.wrongValue "sleep length must be non-negative")

def rest (settings : Settings.Database) (attempt : Nat) : List Step × Except Mishap Unit :=
  if powerLimit ≤ attempt then ([], .error (.beyondRange "int too large to convert to float"))
  else
    let delay := pause settings.retryBaseDelay attempt
    let note := Step.noted (pauseEvent settings attempt)
    match objection? delay with
    | none => ([note, .waited delay], .ok ())
    | some m => ([note], .error m)

/-! ## Attempts -/

/-- What at most `left` attempts come to, of which the first has the number `attempt`: the number of the
one that got the lock. -/
def acquireFrom (settings : Settings.Database) (outcome : Nat → Attempt) (attempt : Nat) :
    Nat → List Step × Except Mishap Nat
  | 0 => ([], .error .noAttempt)
  | left + 1 =>
    match outcome attempt with
    | .granted => ([.tried attempt], .ok attempt)
    | .failed m => ([.tried attempt], .error m)
    | .locked =>
      if (attempt : Int) < settings.maxRetries then
        match rest settings attempt with
        | (steps, .error m) => (.tried attempt :: steps, .error m)
        | (steps, .ok ()) =>
          let (more, result) := acquireFrom settings outcome (attempt + 1) left
          (.tried attempt :: steps ++ more, result)
      else ([.tried attempt], .error .locked)

/-- What taking the lock comes to: a first attempt and, while another holds the lock, as many further ones
as the settings say; if that number is negative there is not even a first. -/
def acquire (settings : Settings.Database) (outcome : Nat → Attempt) :
    List Step × Except Mishap Nat :=
  acquireFrom settings outcome 0 (settings.maxRetries + 1).toNat

end CodeIndex.Store.Lock
