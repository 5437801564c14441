import ViewSync.Program
import ViewSync.Proofs.Denotation
import ViewSync.Proofs.Punctuality

/-!
Durations from the command line to the machine.

A duration that is accepted passes through three conversions: it is read as a number of
milliseconds, it becomes nanoseconds when a timer is set, and what is left of it is handed to the
machine as a waiting time. None of the three checks a range. This module says for each exactly when
the duration survives it, for every command line that is accepted.
-/

namespace ViewSync

namespace Decimal

theorem signed?_eq_some_iff {text : Bytes} {value : Int} :
    signed? text = some value ↔ Denotes text value ∧ Showable value := by
  unfold signed? Showable maxSigned
  constructor
  · intro accepted
    obtain ⟨reading, read, rest⟩ := Option.bind_eq_some_iff.1 accepted
    split at rest
    · next whole =>
        cases rest
        obtain ⟨all, least, most⟩ := whole
        exact ⟨denotes_of_read read all, by omega, by omega⟩
    · cases rest
  · intro both
    obtain ⟨denotes, least, most⟩ := both
    obtain ⟨reading, read, all, rfl⟩ := read_of_denotes denotes
    refine Option.bind_eq_some_iff.2 ⟨reading, read, ?_⟩
    rw [if_pos ⟨all, by omega, by omega⟩]

end Decimal

namespace CommandLine

/-! ### Texts -/

/-- The length that the text of a duration means, in milliseconds: a number alone counts seconds,
and a number before "ms" milliseconds. -/
inductive Means : Bytes → Int → Prop
  | seconds {text : Bytes} {value : Int} (read : Decimal.signed? text = some value)
      (natural : 0 ≤ value) : Means text (value * 1000)
  | millis {text : Bytes} {value : Int} (read : Decimal.signed? text = some value)
      (natural : 0 ≤ value) : Means (text ++ [109, 115]) value

theorem millisText?_eq_some_iff {text number : Bytes} :
    millisText? text = some number ↔ number ≠ [] ∧ text = number ++ [109, 115] := by
  constructor
  · intro found
    unfold millisText? at found
    split at found
    · next digit rest reversed =>
        cases found
        refine ⟨by simp, ?_⟩
        rw [← List.reverse_reverse text, reversed]
        simp
    · cases found
  · intro found
    obtain ⟨present, rfl⟩ := found
    rcases List.eq_nil_or_concat number with empty | ⟨front, digit, whole⟩
    · exact absurd empty present
    · rw [whole]
      simp [millisText?]

theorem readNumber_eq_ok_iff {quantity : Quantity} {text : Bytes} {value : Int} :
    readNumber quantity text = .ok value ↔ Decimal.signed? text = some value ∧ 0 ≤ value := by
  unfold readNumber
  cases Decimal.signed? text with
  | none => simp
  | some number =>
      dsimp only
      split
      · next natural =>
          simp only [Except.ok.injEq, Option.some.injEq]
          constructor
          · intro same
            exact ⟨same, same ▸ natural⟩
          · exact And.left
      · next negative =>
          simp only [reduceCtorEq, Option.some.injEq, false_iff]
          intro both
          exact negative (both.1 ▸ both.2)

/-- The unit is no part of a number. -/
theorem signed?_unit (number : Bytes) : Decimal.signed? (number ++ [109, 115]) = none := by
  cases read : Decimal.signed? (number ++ [109, 115]) with
  | none => rfl
  | some value =>
      obtain ⟨digit, last, isDigit⟩ := (Decimal.signed?_eq_some_iff.1 read).1.last
      rw [List.getLast?_append] at last
      cases last
      cases isDigit

/-- The texts that are accepted are those that mean a length, and what is made of them is that
length on a counter of 64 bits. -/
theorem readDuration_eq_ok_iff {text : Bytes} {millis : Int} :
    readDuration text = .ok millis ↔ ∃ length, Means text length ∧ millis = wrap64 length := by
  constructor
  · intro read
    unfold readDuration at read
    cases found : millisText? text with
    | some number =>
        rw [found] at read
        obtain ⟨value, natural⟩ := readNumber_eq_ok_iff.1 read
        rw [(millisText?_eq_some_iff.1 found).2]
        exact ⟨millis, .millis value natural,
          (wrap64_of_showable (Decimal.signed?_eq_some_iff.1 value).2).symm⟩
    | none =>
        rw [found] at read
        cases number : readNumber .duration text with
        | error error =>
            rw [number] at read
            cases read
        | ok value =>
            rw [number] at read
            cases read
            obtain ⟨signed, natural⟩ := readNumber_eq_ok_iff.1 number
            exact ⟨value * 1000, .seconds signed natural, rfl⟩
  · intro meant
    obtain ⟨length, means, same⟩ := meant
    rw [same]
    unfold readDuration
    cases means with
    | @seconds _ value read natural =>
        cases found : millisText? text with
        | some number =>
            rw [(millisText?_eq_some_iff.1 found).2, signed?_unit] at read
            cases read
        | none =>
            dsimp only
            rw [readNumber_eq_ok_iff.2 ⟨read, natural⟩]
            rfl
    | @millis number _ read natural =>
        have present : number ≠ [] := by
          intro empty
          rw [empty] at read
          cases read
        rw [millisText?_eq_some_iff.2 ⟨present, rfl⟩]
        dsimp only
        rw [wrap64_of_showable (Decimal.signed?_eq_some_iff.1 read).2]
        exact readNumber_eq_ok_iff.2 ⟨read, natural⟩

/-! ### Command lines -/

theorem eq_ok_of_bind {ε α β : Type} {first : Except ε α} {rest : α → Except ε β} {result : β}
    (done : first >>= rest = .ok result) :
    ∃ value, first = .ok value ∧ rest value = .ok result := by
  cases first with
  | error error => cases done
  | ok value => exact ⟨value, rfl, done⟩

inductive Timer
  | progress
  | proof
deriving DecidableEq, Repr

namespace Timer

def setting : Timer → Setting
  | .progress => .progress
  | .proof => .proof

def usual : Timer → Int
  | .progress => 3000
  | .proof => 1000

def interval (settings : Settings) : Timer → Int
  | .progress => settings.progressInterval
  | .proof => settings.proofInterval

def countdown (timers : TimerPair) : Timer → Countdown
  | .progress => timers.progress
  | .proof => timers.proof

def length (timers : TimerPair) : Timer → Int
  | .progress => timers.progressInterval
  | .proof => timers.proofInterval

def set (timers : TimerPair) (now : Int) : Timer → TimerPair
  | .progress => timers.resetProgress now
  | .proof => timers.resetProof now

end Timer

/-- The length of a timer that a command line means: that of the last text given for it, or else
the usual one. -/
inductive Asks (given : List (Setting × Bytes)) (timer : Timer) : Int → Prop
  | usual (absent : given.reverse.lookup timer.setting = none) : Asks given timer timer.usual
  | given {text : Bytes} {length : Int} (last : given.reverse.lookup timer.setting = some text)
      (means : Means text length) : Asks given timer length

namespace Settings

variable {settings after : Settings} {setting : Setting} {text : Bytes}

theorem apply_interval (applied : settings.apply (setting, text) = .ok after) (timer : Timer) :
    if setting = timer.setting then readDuration text = .ok (timer.interval after)
    else timer.interval after = timer.interval settings := by
  cases setting with
  | name =>
      cases applied
      cases timer <;> rfl
  | roster =>
      cases applied
      cases timer <;> rfl
  | log =>
      cases applied
      cases timer <;> rfl
  | test =>
      obtain ⟨testCase, -, made⟩ := eq_ok_of_bind applied
      cases made
      cases timer <;> rfl
  | port =>
      obtain ⟨port, -, made⟩ := eq_ok_of_bind applied
      cases made
      cases timer <;> rfl
  | progress =>
      obtain ⟨millis, read, made⟩ := eq_ok_of_bind applied
      cases made
      cases timer with
      | progress => exact read
      | proof => rfl
  | proof =>
      obtain ⟨millis, read, made⟩ := eq_ok_of_bind applied
      cases made
      cases timer with
      | progress => rfl
      | proof => exact read

theorem lookup_concat (earlier : List (Setting × Bytes)) (setting wanted : Setting)
    (text : Bytes) :
    (earlier ++ [(setting, text)]).reverse.lookup wanted =
      if setting = wanted then some text else earlier.reverse.lookup wanted := by
  rw [List.reverse_append, List.reverse_singleton, List.singleton_append, List.lookup_cons]
  split
  · next same => rw [if_pos (beq_iff_eq.1 same).symm]
  · next other =>
      rw [if_neg]
      intro same
      rw [same, beq_self_eq_true] at other
      cases other

theorem asks_of_applied {given : List (Setting × Bytes)}
    (applied : given.foldlM apply {} = .ok settings) (timer : Timer) :
    ∃ length, Asks given timer length ∧ timer.interval settings = wrap64 length := by
  induction given using List.reverseRecOn generalizing settings with
  | nil =>
      cases applied
      refine ⟨timer.usual, .usual rfl, ?_⟩
      cases timer <;> rfl
  | append_singleton earlier last ih =>
      obtain ⟨setting, text⟩ := last
      rw [List.foldlM_append] at applied
      obtain ⟨before, made, rest⟩ := eq_ok_of_bind applied
      obtain ⟨now, appliedLast, same⟩ := eq_ok_of_bind rest
      cases same
      have interval := apply_interval appliedLast timer
      have found := lookup_concat earlier setting timer.setting text
      split at interval
      · next own =>
          rw [if_pos own] at found
          obtain ⟨length, means, same⟩ := readDuration_eq_ok_iff.1 interval
          exact ⟨length, .given found means, same⟩
      · next other =>
          rw [if_neg other] at found
          obtain ⟨length, asks, same⟩ := ih made
          refine ⟨length, ?_, interval.trans same⟩
          cases asks with
          | usual absent => exact .usual (found.trans absent)
          | given last means => exact .given (found.trans last) means

theorem check_eq_ok_iff : settings.check = .ok after ↔
    after = settings ∧ settings.name ≠ [] ∧ 0 < settings.proofInterval ∧
      settings.proofInterval < settings.progressInterval := by
  unfold check
  constructor
  · intro checked
    split at checked
    · cases checked
    · next named =>
        split at checked
        · cases checked
        · next positive =>
            split at checked
            · cases checked
            · next shorter =>
                cases checked
                exact ⟨rfl, named, by omega, Int.not_le.1 shorter⟩
  · intro sound
    obtain ⟨same, named, positive, shorter⟩ := sound
    rw [if_neg named, if_neg (by omega), if_neg (Int.not_le.2 shorter), same]

def given (words : List Bytes) : List (Setting × Bytes) :=
  (Scan.ofWords ((words.drop 1).map Bytes.terminated)).given

theorem accepted_parts {words : List Bytes} (accepted : ofCommandLine words = .ok settings) :
    (given words).foldlM apply {} = .ok settings ∧ 0 < settings.proofInterval ∧
      settings.proofInterval < settings.progressInterval := by
  obtain ⟨applied, made, rest⟩ := eq_ok_of_bind accepted
  obtain ⟨_, -, checked⟩ := eq_ok_of_bind rest
  obtain ⟨same, -, intervals⟩ := check_eq_ok_iff.1 checked
  rw [same]
  exact ⟨made, intervals⟩

end Settings

theorem Asks.natural {given : List (Setting × Bytes)} {timer : Timer} {length : Int}
    (asks : Asks given timer length) : 0 ≤ length := by
  cases asks with
  | usual absent => cases timer <;> decide
  | given last means =>
      cases means with
      | seconds read natural => omega
      | millis read natural => exact natural

theorem Timer.deadline_set (conditions : Conditions) (timers : TimerPair) (instant : Int)
    (timer : Timer) :
    (timer.countdown (timer.set timers (conditions.reading instant))).deadline =
      conditions.reading (instant + timer.length timers) := by
  cases timer with
  | progress => exact Countdown.deadline_reset _ _ _
  | proof => exact Countdown.deadline_reset _ _ _

end CommandLine

open CommandLine (Settings Timer Asks)

/-- A replica is not willing to wait for longer than any of its timers has left. -/
theorem Vigil.Ahead.patience_le {vigil : Vigil} (dated : vigil.Dated) (fits : vigil.Fits)
    (ahead : vigil.Ahead) {timer : Timer}
    (armed : (timer.countdown vigil.replica.engine.timers).armed = true) :
    vigil.replica.patience ≤ millisCovering
      ((timer.countdown vigil.replica.engine.timers).deadline - vigil.replica.now) := by
  obtain ⟨-, progressLeft, proofLeft⟩ := ahead.patience dated fits
  obtain ⟨now, progressDeadline, proofDeadline⟩ := Vigil.shown dated fits
  cases timer with
  | progress =>
      change _ ≤ millisCovering (vigil.replica.engine.timers.progress.deadline - _)
      rw [dated.progress, Countdown.deadline_reset, Replica.now, Machine.clock,
        Conditions.reading_of_shows progressDeadline, Conditions.reading_of_shows now,
        Int.add_sub_add_left, ← Int.sub_mul, millisCovering_nanos]
      omega
  | proof =>
      have soon := proofLeft armed
      change _ ≤ millisCovering (vigil.replica.engine.timers.proof.deadline - _)
      rw [dated.proof armed, Countdown.deadline_reset, Replica.now, Machine.clock,
        Conditions.reading_of_shows proofDeadline, Conditions.reading_of_shows now,
        Int.add_sub_add_left, ← Int.sub_mul, millisCovering_nanos]
      omega

/-- How the wait that a machine is asked for relates to what the replica is willing to wait for, and
to what its timers have left. The longer of its intervals is `longest`. -/
structure Replica.Requests (replica : Replica) (longest timeout : Int) : Prop where
  whole : timeout = replica.patience ↔ replica.patience ≤ 2147483647
  within : replica.machine.conditions.Shows (replica.machine.now + longest) →
    timeout = replica.patience → 0 < timeout ∧
      ∀ timer : Timer, (timer.countdown replica.engine.timers).armed = true →
        timeout ≤ millisCovering
          ((timer.countdown replica.engine.timers).deadline - replica.now)

theorem Replica.requests_of_plan {machine after : Machine} {plan : Replica.Plan}
    {roster : Roster} {replica : Replica} (origin : 0 ≤ machine.now)
    (made : Replica.setUp machine plan roster = (.ok replica, after))
    (shorter : plan.proofInterval < plan.progressInterval) {turns : Nat}
    (going : (replica.started.runFor turns).2 = none)
    (settled : (replica.started.runFor turns).1.fireDue.2 = none) {timeout : Int}
    (asked : (replica.started.runFor turns).1.fireDue.1.transport.request
      (replica.started.runFor turns).1.fireDue.1.patience = some timeout) :
    (replica.started.runFor turns).1.fireDue.1.Requests plan.progressInterval timeout := by
  constructor
  · rw [Transport.request_eq_some asked]
    exact Transport.pollTimeout_eq_iff (Int.le_max_right _ _)
  · intro range granted
    let vigil := (Vigil.opening replica).after turns
    obtain ⟨dated, conditions, -⟩ := Vigil.dated_of_plan origin made turns
    have same : vigil.replica = (replica.started.runFor turns).1 := Vigil.after_replica going
    have standing : vigil.fire.replica = (replica.started.runFor turns).1.fireDue.1 :=
      congrArg (fun replica => replica.fireDue.1) same
    rw [← same, Replica.fireDue_clock, Replica.fireDue_conditions, conditions, same] at range
    have fits : vigil.Fits := Vigil.fits_of_plan origin made shorter going range
    have ahead : vigil.fire.Ahead := Vigil.Ahead.fire dated fits (same ▸ settled)
    rw [granted, ← standing]
    refine ⟨(ahead.patience dated.fire fits.fire).1, ?_⟩
    intro timer armed
    exact ahead.patience_le dated.fire fits.fire armed

/-- What becomes of the durations on a command line that is accepted. They are read exactly when
they fit into 64 bits as milliseconds, they are set exactly when the deadline fits as nanoseconds,
and they are waited for exactly when they fit into 32 bits as milliseconds. -/
theorem durations_are_honoured_within_ranges {words : List Bytes} {settings : Settings}
    (accepted : Settings.ofCommandLine words = .ok settings) :
    (∀ timer : Timer, ∃ length, Asks (Settings.given words) timer length ∧
      (timer.interval settings = length ↔ length ≤ 9223372036854775807)) ∧
    (∀ (timer : Timer) (timers : TimerPair) (conditions : Conditions) (instant : Int),
      (timer.countdown (timer.set timers (conditions.reading instant))).deadline =
          conditions.clockStart + (instant + timer.length timers) * nanosPerMilli ↔
        conditions.Shows (instant + timer.length timers)) ∧
    ∀ (machine after : Machine) (roster : Roster) (replica : Replica), 0 ≤ machine.now →
      Replica.setUp machine (Program.plan settings) roster = (.ok replica, after) →
        ∀ turns, (replica.started.runFor turns).2 = none →
          let fired := (replica.started.runFor turns).1.fireDue
          fired.2 = none → ∀ timeout,
            fired.1.transport.request fired.1.patience = some timeout →
              fired.1.Requests settings.progressInterval timeout := by
  obtain ⟨applied, -, shorter⟩ := Settings.accepted_parts accepted
  refine ⟨?_, ?_, ?_⟩
  · intro timer
    obtain ⟨length, asks, made⟩ := Settings.asks_of_applied applied timer
    have natural := asks.natural
    refine ⟨length, asks, ?_⟩
    rw [made, wrap64_eq_iff, Showable]
    omega
  · intro timer timers conditions instant
    rw [Timer.deadline_set]
    exact wrap64_eq_iff
  · intro machine after roster replica origin made turns going fired settled timeout asked
    exact Replica.requests_of_plan origin made shorter going settled asked

/-- Name "a", three seconds and 500 milliseconds. -/
theorem durations_are_honoured_within_ranges_of_seconds_and_millis :
    let words : List Bytes :=
      [[112], [45, 110], [97], [45, 112], [51], [45, 118], [53, 48, 48, 109, 115]]
    let roster : Roster := ⟨[⟨[97], [97], 5000⟩], by decide, by decide⟩
    ∃ settings, Settings.ofCommandLine words = .ok settings ∧
      (∃ length, Asks (Settings.given words) .proof length ∧
        (settings.proofInterval = length ↔ length ≤ 9223372036854775807)) ∧
      ∃ replica after, Replica.setUp {} (Program.plan settings) roster = (.ok replica, after) ∧
        replica.started.fireDue.1.Requests 3000 3000 := by
  intro words roster
  let settings : Settings := { name := [97], progressInterval := 3000, proofInterval := 500 }
  have accepted : Settings.ofCommandLine words = .ok settings := by decide +kernel
  obtain ⟨read, -, waits⟩ := durations_are_honoured_within_ranges accepted
  have made : Replica.setUp {} (Program.plan settings) roster = (.ok _, _) := rfl
  refine ⟨settings, accepted, read .proof, _, _, made, ?_⟩
  exact waits _ _ _ _ (by decide) made 0 rfl (by decide +kernel) 3000 (by decide +kernel)

/-- A progress interval of 2147484 seconds, which is less than 25 days, is accepted. What the
replica asks for is less than zero, and the machine waits for ever. -/
theorem long_duration_is_waited_for_without_end :
    let words : List Bytes :=
      [[112], [45, 110], [97], [45, 112], [50, 49, 52, 55, 52, 56, 52]]
    let roster : Roster := ⟨[⟨[97], [97], 42069⟩], by decide, by decide⟩
    let machine : Machine := { conditions := { horizon := 3000000000 } }
    ∃ settings, Settings.ofCommandLine words = .ok settings ∧
      settings.progressInterval = 2147484000 ∧
      ∃ replica after,
        Replica.setUp machine (Program.plan settings) roster = (.ok replica, after) ∧
        let fired := replica.started.fireDue
        fired.2 = none ∧ fired.1.patience = 2147484000 ∧
          fired.1.transport.request fired.1.patience = some (-2147483296) ∧
          fired.1.listen.2 = some .stopped := by
  intro words roster machine
  let settings : Settings := { name := [97], progressInterval := 2147484000 }
  have accepted : Settings.ofCommandLine words = .ok settings := by decide +kernel
  refine ⟨settings, accepted, rfl, _, _, rfl, ?_⟩
  decide +kernel

end ViewSync
