import ViewSync.Text.Bytes

/-!
Countdown timers on a clock of nanoseconds, and the pair of timers of a replica. Instants are
integers of 64 bits with a sign and wrap around; intervals are given in milliseconds.
-/

namespace ViewSync

/-- The integer of 64 bits with a sign that agrees with `value` modulo 2^64. -/
def wrap64 (value : Int) : Int :=
  Int.bmod value 18446744073709551616

def nanosPerMilli : Int := 1000000

def nanosOfMillis (millis : Int) : Int :=
  wrap64 (millis * nanosPerMilli)

def millisCovering (nanos : Int) : Int :=
  (nanos + (nanosPerMilli - 1)) / nanosPerMilli

/-- A timer that fires at most once after each time it is set. -/
structure Countdown where
  armed : Bool := false
  deadline : Int := 0
deriving DecidableEq, Repr

namespace Countdown

def reset (now duration : Int) : Countdown :=
  ⟨true, wrap64 (now + duration)⟩

/-- Disarms the timer and leaves its deadline. -/
def disable (timer : Countdown) : Countdown :=
  { timer with armed := false }

def isDue (timer : Countdown) (now : Int) : Bool :=
  timer.armed && timer.deadline ≤ now

/-- Asks the timer at `now`; a timer that fires is disarmed. -/
def consume (timer : Countdown) (now : Int) : Bool × Countdown :=
  if timer.isDue now then (true, timer.disable) else (false, timer)

end Countdown

/-- The two timers of a replica. The progress timer runs while no leader is heard of; the proof
timer paces the announcements of a leader. -/
structure TimerPair where
  /-- In milliseconds. -/
  progressInterval : Int
  proofInterval : Int
  progress_positive : 0 < progressInterval
  proof_positive : 0 < proofInterval
  progress : Countdown := {}
  proof : Countdown := {}
deriving DecidableEq

namespace TimerPair

def ofIntervals? (progressInterval proofInterval : Int) : Option TimerPair :=
  if positive : 0 < progressInterval ∧ 0 < proofInterval then
    some
      { progressInterval, proofInterval
        progress_positive := positive.1
        proof_positive := positive.2 }
  else
    none

def intervalMessage : Bytes :=
  Bytes.ofString "timer intervals must be positive"

def fresh (timers : TimerPair) : TimerPair :=
  { timers with progress := {}, proof := {} }

def resetProgress (timers : TimerPair) (now : Int) : TimerPair :=
  { timers with progress := .reset now (nanosOfMillis timers.progressInterval) }

def resetProof (timers : TimerPair) (now : Int) : TimerPair :=
  { timers with proof := .reset now (nanosOfMillis timers.proofInterval) }

def disableProof (timers : TimerPair) : TimerPair :=
  { timers with proof := timers.proof.disable }

def consumeProgress (timers : TimerPair) (now : Int) : Bool × TimerPair :=
  let asked := timers.progress.consume now
  (asked.1, { timers with progress := asked.2 })

def consumeProof (timers : TimerPair) (now : Int) : Bool × TimerPair :=
  let asked := timers.proof.consume now
  (asked.1, { timers with proof := asked.2 })

/-- Milliseconds until a timer is due, rounded up, and negative when the deadline is past. -/
def millisLeft (timer : Countdown) (now : Int) : Int :=
  millisCovering (wrap64 (timer.deadline - now))

/-- Milliseconds until the first armed timer is due, and zero when one is due already. With no
timer armed it is the progress interval. -/
def untilNextDeadline (timers : TimerPair) (now : Int) : Int :=
  let left :=
    match timers.progress.armed, timers.proof.armed with
    | true, true => min (millisLeft timers.progress now) (millisLeft timers.proof now)
    | true, false => millisLeft timers.progress now
    | false, true => millisLeft timers.proof now
    | false, false => timers.progressInterval
  max left 0

end TimerPair

end ViewSync
