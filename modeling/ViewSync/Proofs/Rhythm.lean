import ViewSync.Proofs.Course
import ViewSync.Proofs.Role

/-!
The announcements of a view, and the beat that they keep.

A view that is led is announced when it is installed, and from then on once in every proof interval,
or only at the beginning. `Rhythm` says so of a course of stages that ends in a given state of the
engine, for the views that have been left and for the one that is still led. Here is what carries it
from stage to stage: time may pass up to the next beat, a stage may say nothing of the view, install
another one, or ask the proof timer.
-/

namespace ViewSync

/-! ### Announcements and their times -/

namespace Stage

def proofs (view : Int) (stage : Stage) : List (Int × List Attestation) :=
  (announcements stage.events).filterMap fun announced =>
    if announced.1 = view then some (stage.time, announced.2) else none

variable {stage : Stage} {view : Int}

theorem proofs_of_other
    (other : ∀ announced ∈ announcements stage.events, announced.1 ≠ view) :
    stage.proofs view = [] := by
  apply List.filterMap_eq_nil_iff.2
  intro announced listed
  exact if_neg (other announced listed)

theorem proofs_of_announced {attestations : List Attestation}
    (told : announcements stage.events = [(view, attestations)]) :
    stage.proofs view = [(stage.time, attestations)] := by
  rw [proofs, told]
  simp

end Stage

def proofsOf (view : Int) (course : List Stage) : List (Int × List Attestation) :=
  course.flatMap (Stage.proofs view)

theorem proofsOf_append (view : Int) (past : List Stage) (stage : Stage) :
    proofsOf view (past ++ [stage]) = proofsOf view past ++ stage.proofs view := by
  simp [proofsOf]

/-- When a view is left behind for a later one, or `close` if it is not. -/
def leftAt (view : Int) (course : List Stage) (close : Int) : Int :=
  ((course.find? fun stage => view < stage.after.engine.view).map Stage.time).getD close

section LeftAt

variable {view close : Int} {past : List Stage} {stage : Stage}

theorem leftAt_of_left (present : stage ∈ past) (left : view < stage.after.engine.view)
    (more : List Stage) (later close : Int) :
    leftAt view (past ++ more) later = leftAt view past close := by
  have found : (past.find? fun stage => view < stage.after.engine.view).isSome = true :=
    List.find?_isSome.2 ⟨stage, present, decide_eq_true left⟩
  obtain ⟨first, located⟩ := Option.isSome_iff_exists.1 found
  rw [leftAt, leftAt, List.find?_append, located]
  rfl

theorem find?_of_stayed (stayed : ∀ stage ∈ past, stage.after.engine.view ≤ view) :
    (past.find? fun stage => view < stage.after.engine.view) = none := by
  apply List.find?_eq_none.2
  intro stage present
  simp only [decide_eq_true_eq]
  exact Int.not_lt.2 (stayed stage present)

theorem leftAt_of_stayed (stayed : ∀ stage ∈ past, stage.after.engine.view ≤ view) :
    leftAt view past close = close := by
  rw [leftAt, find?_of_stayed stayed]
  rfl

theorem leftAt_of_leaving (stayed : ∀ stage ∈ past, stage.after.engine.view ≤ view)
    (leaves : view < stage.after.engine.view) :
    leftAt view (past ++ [stage]) close = stage.time := by
  rw [leftAt, List.find?_append, find?_of_stayed stayed, List.find?_singleton,
    if_pos (decide_eq_true leaves)]
  rfl

end LeftAt

def beats (since interval : Int) (count : Nat) (attestations : List Attestation) :
    List (Int × List Attestation) :=
  (List.range (count + 1)).map fun beat : Nat => (since + beat * interval, attestations)

theorem beats_zero (since interval : Int) (attestations : List Attestation) :
    beats since interval 0 attestations = [(since, attestations)] := by
  simp [beats]

theorem beat_succ (since interval : Int) (count : Nat) :
    since + (count + 1 : Nat) * interval = since + count * interval + interval := by
  rw [Int.natCast_succ, Int.add_mul, Int.one_mul, Int.add_assoc]

theorem beats_succ (since interval : Int) (count : Nat) (attestations : List Attestation) :
    beats since interval (count + 1) attestations =
      beats since interval count attestations ++
        [(since + count * interval + interval, attestations)] := by
  rw [beats, List.range_succ, List.map_append, List.map_singleton, beat_succ]
  rfl

/-- A view that is led from `since` to `close` is announced at regular intervals from the
beginning, and so for as long as it is led, or only at the beginning. -/
def Cadence (periodic : Bool) (since close interval : Int)
    (announced : List (Int × List Attestation)) : Prop :=
  ∃ (count : Nat) (attestations : List Attestation),
    announced = beats since interval count attestations ∧ since + count * interval ≤ close ∧
      if periodic = true then close ≤ since + count * interval + interval else count = 0

theorem not_cadence_of_repeated {periodic : Bool} {since close interval : Int}
    {first second : List Attestation} {rest : List (Int × List Attestation)}
    (positive : 0 < interval) :
    ¬ Cadence periodic since close interval ((since, first) :: (since, second) :: rest) := by
  rintro ⟨count, attestations, same, -, -⟩
  cases count with
  | zero =>
      rw [beats_zero] at same
      cases same
  | succ count =>
      have next := congrArg (fun announced => announced[1]?.map Prod.fst) same
      simp [beats] at next
      omega

/-! ### The view that is led -/

structure Beating (conditions : Conditions) (periodic : Bool) (since : Int) (count : Nat)
    (past : List Stage) (engine : Engine) (now : Int) : Prop where
  announced : proofsOf engine.view past =
    beats since engine.timers.proofInterval count engine.installed.attestations
  begun : 0 ≤ since
  reached : since + count * engine.timers.proofInterval ≤ now
  ahead : periodic = true →
    now ≤ since + count * engine.timers.proofInterval + engine.timers.proofInterval
  set : periodic = true → engine.timers.proof =
    .reset (conditions.reading (since + count * engine.timers.proofInterval))
      (nanosOfMillis engine.timers.proofInterval)
  single : periodic = false → count = 0

namespace Beating

variable {conditions : Conditions} {periodic : Bool} {since now : Int} {count : Nat}
  {past : List Stage} {engine : Engine}

theorem cadence (beating : Beating conditions periodic since count past engine now) :
    Cadence periodic since now engine.timers.proofInterval (proofsOf engine.view past) := by
  refine ⟨count, engine.installed.attestations, beating.announced, beating.reached, ?_⟩
  split
  · next often => exact beating.ahead often
  · next once => exact beating.single (Bool.eq_false_of_not_eq_true once)

theorem last_begun (beating : Beating conditions periodic since count past engine now) :
    0 ≤ since + count * engine.timers.proofInterval :=
  Int.add_nonneg beating.begun
    (Int.mul_nonneg (Int.natCast_nonneg count) (Int.le_of_lt engine.timers.proof_positive))

theorem keep {stage : Stage} (beating : Beating conditions periodic since count past engine now)
    (silent : announcements stage.events = [])
    (view : stage.after.engine.view = engine.view)
    (installed : stage.after.engine.installed = engine.installed)
    (seat : stage.after.engine.seat = engine.seat)
    (proof : periodic = true → stage.after.engine.timers.proof = engine.timers.proof) :
    Beating conditions periodic since count (past ++ [stage]) stage.after.engine now := by
  have interval := Engine.seat_proofInterval seat
  have quiet : stage.proofs engine.view = [] := by
    apply Stage.proofs_of_other
    rw [silent]
    exact fun _ listed => absurd listed List.not_mem_nil
  constructor
  · rw [proofsOf_append, view, installed, interval, quiet, List.append_nil]
    exact beating.announced
  · exact beating.begun
  · rw [interval]
    exact beating.reached
  · rw [interval]
    exact beating.ahead
  · rw [interval]
    exact fun often => (proof often).trans (beating.set often)
  · exact beating.single

theorem start {stage : Stage} (unreached : proofsOf stage.after.engine.view past = [])
    (announced : announcements stage.events =
      [(stage.after.engine.view, stage.after.engine.installed.attestations)])
    (begun : 0 ≤ stage.time)
    (set : stage.after.engine.timers.proof =
      .reset (conditions.reading stage.time)
        (nanosOfMillis stage.after.engine.timers.proofInterval)) :
    Beating conditions periodic stage.time 0 (past ++ [stage]) stage.after.engine stage.time := by
  have here : stage.time + (0 : Nat) * stage.after.engine.timers.proofInterval = stage.time := by
    simp
  constructor
  · rw [proofsOf_append, unreached, Stage.proofs_of_announced announced, beats_zero]
    rfl
  · exact begun
  · exact Int.le_of_eq here
  · intro _
    rw [here]
    exact Int.le_add_of_nonneg_right (Int.le_of_lt stage.after.engine.timers.proof_positive)
  · intro _
    rw [here]
    exact set
  · exact fun _ => rfl

/-- A timer that is due is not late either, so that the next beat is now. -/
theorem next_of_due (beating : Beating conditions periodic since count past engine now)
    (often : periodic = true)
    (due : engine.timers.proof.isDue (conditions.reading now) = true)
    (range : conditions.Shows (now + engine.timers.proofInterval)) :
    since + (count + 1 : Nat) * engine.timers.proofInterval = now := by
  have begun := beating.last_begun
  have reached := beating.reached
  have ahead := beating.ahead often
  have positive := engine.timers.proof_positive
  rw [beating.set often, Countdown.isDue_reset (range.earlier (by omega) (by omega))
    (range.earlier (by omega) (by omega))] at due
  rw [beat_succ]
  omega

theorem beat {stage : Stage} (beating : Beating conditions periodic since count past engine now)
    (often : periodic = true)
    (next : since + (count + 1 : Nat) * engine.timers.proofInterval = now)
    (time : stage.time = now)
    (announced : announcements stage.events = [(engine.view, engine.installed.attestations)])
    (after : stage.after.engine =
      { engine with timers := engine.timers.resetProof (conditions.reading now) }) :
    Beating conditions periodic since (count + 1) (past ++ [stage]) stage.after.engine now := by
  have positive := engine.timers.proof_positive
  rw [after]
  constructor
  · rw [proofsOf_append, Stage.proofs_of_announced announced, time]
    change proofsOf engine.view past ++ _ = beats since engine.timers.proofInterval
      (count + 1) engine.installed.attestations
    rw [beats_succ, beating.announced, ← beat_succ, next]
  · exact beating.begun
  · exact Int.le_of_eq next
  · intro _
    change now ≤ since + (count + 1 : Nat) * engine.timers.proofInterval +
      engine.timers.proofInterval
    omega
  · intro _
    change Countdown.reset (conditions.reading now) (nanosOfMillis engine.timers.proofInterval) =
      .reset (conditions.reading (since + (count + 1 : Nat) * engine.timers.proofInterval))
        (nanosOfMillis engine.timers.proofInterval)
    rw [next]
  · intro once
    rw [often] at once
    cases once

end Beating

/-- What is announced in the course of a run, and when, up to the present. -/
structure Rhythm (conditions : Conditions) (periodic : Bool) (past : List Stage) (engine : Engine)
    (now : Int) : Prop where
  begun : 0 ≤ now
  started : 0 ≤ engine.view
  certified : engine.installed.isValid engine.replicas = true ↔ 0 < engine.view
  bounded : ∀ stage ∈ past, stage.after.engine.view ≤ engine.view
  settled : ∀ stage ∈ past, ∃ later ∈ past, later.after.engine.view = engine.view
  told : ∀ stage ∈ past, ∀ installation ∈ installations stage.events,
    installation =
      (stage.after.engine.view, leaderOf stage.after.engine.view engine.replicas) ∧
        0 < stage.after.engine.view
  announcing : ∀ stage ∈ past, ∀ announced ∈ announcements stage.events,
    announced.1 = stage.after.engine.view ∧ 0 < announced.1 ∧
      stage.after.engine.isLeader = true
  left : ∀ stage ∈ past, ∀ view < engine.view,
    (view, engine.self) ∈ installations stage.events →
    conditions.Shows (leftAt view past now + engine.timers.proofInterval) →
      Cadence periodic stage.time (leftAt view past now) engine.timers.proofInterval
        (proofsOf view past)
  current : ∀ stage ∈ past, (engine.view, engine.self) ∈ installations stage.events →
    conditions.Shows (now + engine.timers.proofInterval) →
      ∃ count, Beating conditions periodic stage.time count past engine now

namespace Rhythm

variable {conditions : Conditions} {periodic : Bool} {past : List Stage} {engine : Engine}
  {now : Int}

theorem opening (begun : 0 ≤ now) (fresh : engine.view = 0)
    (blank : ¬ engine.installed.isValid engine.replicas = true) :
    Rhythm conditions periodic [] engine now where
  begun := begun
  started := Int.le_of_eq fresh.symm
  certified := iff_of_false blank (by omega)
  bounded _ listed := absurd listed List.not_mem_nil
  settled _ listed := absurd listed List.not_mem_nil
  told _ listed := absurd listed List.not_mem_nil
  announcing _ listed := absurd listed List.not_mem_nil
  left _ listed := absurd listed List.not_mem_nil
  current _ listed := absurd listed List.not_mem_nil

theorem leads {stage : Stage} (rhythm : Rhythm conditions periodic past engine now)
    (present : stage ∈ past)
    (installs : (engine.view, engine.self) ∈ installations stage.events) :
    leaderOf engine.view engine.replicas = engine.self ∧
      engine.installed.isValid engine.replicas = true := by
  obtain ⟨same, positive⟩ := rhythm.told stage present _ installs
  obtain ⟨view, leader⟩ := Prod.mk.inj same
  rw [← view] at leader positive
  exact ⟨leader.symm, rhythm.certified.2 positive⟩

theorem proofsOf_of_unreached {view : Int} (rhythm : Rhythm conditions periodic past engine now)
    (unreached : engine.view < view) : proofsOf view past = [] := by
  apply List.flatMap_eq_nil_iff.2
  intro stage present
  apply Stage.proofs_of_other
  intro announced listed
  have same := (rhythm.announcing stage present announced listed).1
  have bound := rhythm.bounded stage present
  omega

/-- Time passes, but not beyond the next beat. -/
theorem wait {later : Int} (rhythm : Rhythm conditions periodic past engine now)
    (forward : now ≤ later)
    (inTime : ∀ since, 0 ≤ since → since ≤ now →
      engine.timers.proof =
        .reset (conditions.reading since) (nanosOfMillis engine.timers.proofInterval) →
      conditions.Shows (later + engine.timers.proofInterval) →
        later ≤ since + engine.timers.proofInterval) :
    Rhythm conditions periodic past engine later where
  begun := rhythm.begun.trans forward
  started := rhythm.started
  certified := rhythm.certified
  bounded := rhythm.bounded
  settled := rhythm.settled
  told := rhythm.told
  announcing := rhythm.announcing
  left stage present view earlier installs range := by
    obtain ⟨last, listed, reached⟩ := rhythm.settled stage present
    have same : leftAt view past later = leftAt view past now := by
      have kept := leftAt_of_left listed (show view < _ by omega) [] later now
      rw [List.append_nil] at kept
      exact kept
    rw [same] at range ⊢
    exact rhythm.left stage present view earlier installs range
  current stage present installs range := by
    have begun := rhythm.begun
    have positive := engine.timers.proof_positive
    have sooner : conditions.Shows (now + engine.timers.proofInterval) :=
      range.earlier (by omega) (by omega)
    obtain ⟨count, beating⟩ := rhythm.current stage present installs sooner
    refine ⟨count, ?_⟩
    constructor
    · exact beating.announced
    · exact beating.begun
    · exact beating.reached.trans forward
    · exact fun often => inTime _ beating.last_begun beating.reached (beating.set often) range
    · exact beating.set
    · exact beating.single

/-- A stage that is done at the present, about the view that it ends in. What becomes of the beat
of this view is left open. -/
theorem extend {stage : Stage} (rhythm : Rhythm conditions periodic past engine now)
    (time : stage.time = now) (seat : stage.after.engine.seat = engine.seat)
    (onward : engine.view ≤ stage.after.engine.view)
    (certified : stage.after.engine.installed.isValid engine.replicas = true ↔
      0 < stage.after.engine.view)
    (told : ∀ installation ∈ installations stage.events,
      engine.view < stage.after.engine.view ∧ installation =
        (stage.after.engine.view, leaderOf stage.after.engine.view engine.replicas))
    (announcing : ∀ announced ∈ announcements stage.events,
      announced.1 = stage.after.engine.view ∧ 0 < announced.1 ∧
        stage.after.engine.isLeader = true)
    (current : ∀ other ∈ past ++ [stage],
      (stage.after.engine.view, engine.self) ∈ installations other.events →
      conditions.Shows (now + engine.timers.proofInterval) →
        ∃ count, Beating conditions periodic other.time count (past ++ [stage])
          stage.after.engine now) :
    Rhythm conditions periodic (past ++ [stage]) stage.after.engine now := by
  have roster := Engine.seat_replicas seat
  have self := Engine.seat_self seat
  have interval := Engine.seat_proofInterval seat
  have started := rhythm.started
  constructor
  · exact rhythm.begun
  · exact started.trans onward
  · rw [roster]
    exact certified
  · intro other present
    rcases List.mem_append.1 present with earlier | last
    · exact (rhythm.bounded other earlier).trans onward
    · rw [List.mem_singleton.1 last]
  · exact fun _ _ => ⟨stage, List.mem_append_right _ List.mem_cons_self, rfl⟩
  · rw [roster]
    intro other present installation listed
    rcases List.mem_append.1 present with earlier | last
    · exact rhythm.told other earlier installation listed
    · rw [List.mem_singleton.1 last] at listed ⊢
      obtain ⟨later, same⟩ := told installation listed
      exact ⟨same, by omega⟩
  · intro other present announced listed
    rcases List.mem_append.1 present with earlier | last
    · exact rhythm.announcing other earlier announced listed
    · rw [List.mem_singleton.1 last] at listed ⊢
      exact announcing announced listed
  · rw [self, interval]
    intro other present view earlier installs range
    have before : other ∈ past := by
      rcases List.mem_append.1 present with before | last
      · exact before
      · rw [List.mem_singleton.1 last] at installs
        obtain ⟨-, same⟩ := told _ installs
        have impossible := congrArg Prod.fst same
        dsimp only at impossible
        omega
    have reached : view ≤ engine.view := by
      obtain ⟨same, -⟩ := rhythm.told other before _ installs
      have bound := rhythm.bounded other before
      have named : view = other.after.engine.view := congrArg Prod.fst same
      exact named ▸ bound
    have silent : stage.proofs view = [] := by
      apply Stage.proofs_of_other
      intro announced listed
      have same := (announcing announced listed).1
      omega
    rw [proofsOf_append, silent, List.append_nil]
    rcases Int.lt_or_eq_of_le reached with past_view | rfl
    · obtain ⟨last, listed, settled⟩ := rhythm.settled other before
      rw [leftAt_of_left listed (by omega) [stage] now now] at range ⊢
      exact rhythm.left other before view past_view installs range
    · rw [leftAt_of_leaving rhythm.bounded earlier, time] at range ⊢
      obtain ⟨count, beating⟩ := rhythm.current other before installs range
      exact beating.cadence
  · rw [self, interval]
    exact current

/-- A stage in which the view may change, but its timer is not asked. -/
theorem change {stage : Stage} {set : Bool} (rhythm : Rhythm conditions periodic past engine now)
    (time : stage.time = now)
    (change : engine.Change (conditions.reading now) set stage.after.engine stage.events) :
    Rhythm conditions periodic (past ++ [stage]) stage.after.engine now := by
  have seat := change.seat
  rcases change.stays_or_advances with stays | advances
  · have untold := stays.quiet.installations_eq_nil
    have silent := stays.quiet.announcements_eq_nil
    apply rhythm.extend time seat (Int.le_of_eq stays.view.symm)
    · rw [stays.installed, stays.view]
      exact rhythm.certified
    · rw [untold]
      exact fun _ listed => absurd listed List.not_mem_nil
    · rw [silent]
      exact fun _ listed => absurd listed List.not_mem_nil
    · rw [stays.view]
      intro other present installs range
      rcases List.mem_append.1 present with earlier | last
      · obtain ⟨count, beating⟩ := rhythm.current other earlier installs range
        exact ⟨count, beating.keep silent stays.view stays.installed seat fun _ => stays.proof⟩
      · rw [List.mem_singleton.1 last, untold] at installs
        cases installs
  · have later := advances.later
    have started := rhythm.started
    have positive : 0 < stage.after.engine.view := by omega
    have told := advances.installations_eq
    have announced := advances.announcements_eq
    apply rhythm.extend time seat (Int.le_of_lt later)
    · exact iff_of_true advances.valid positive
    · rw [told]
      exact fun _ listed => ⟨later, List.mem_singleton.1 listed⟩
    · rw [announced]
      intro announcement listed
      split at listed
      · next leads =>
          rw [List.mem_singleton.1 listed]
          refine ⟨rfl, positive, Engine.isLeader_iff.2 ?_⟩
          rw [Engine.seat_replicas seat, Engine.seat_self seat]
          exact leads
      · cases listed
    · intro other present installs range
      rcases List.mem_append.1 present with earlier | last
      · obtain ⟨same, -⟩ := rhythm.told other earlier _ installs
        have bound := rhythm.bounded other earlier
        have named : stage.after.engine.view = other.after.engine.view := congrArg Prod.fst same
        omega
      · rw [List.mem_singleton.1 last, told] at installs
        have leads : leaderOf stage.after.engine.view engine.replicas = engine.self :=
          (congrArg Prod.snd (List.mem_singleton.1 installs)).symm
        rw [if_pos leads] at announced
        have begun : Beating conditions periodic stage.time 0 (past ++ [stage]) stage.after.engine
            stage.time := by
          apply Beating.start (rhythm.proofsOf_of_unreached later) announced
          · rw [time]
            exact rhythm.begun
          · rw [advances.proof, if_pos leads, Engine.seat_proofInterval seat, time]
        rw [List.mem_singleton.1 last]
        exact ⟨0, time ▸ begun⟩

theorem asked (stage : Stage) (rhythm : Rhythm conditions periodic past engine now)
    (time : stage.time = now)
    (after : stage.after.engine = (engine.fireProof periodic (conditions.reading now)).engine)
    (events : stage.events = (engine.fireProof periodic (conditions.reading now)).events) :
    Rhythm conditions periodic (past ++ [stage]) stage.after.engine now := by
  rcases engine.fireProof_cases periodic (conditions.reading now) with
    ⟨-, asked⟩ | ⟨due, fired, silent, idle⟩ | ⟨due, fired, told, often, leads, valid⟩
  · rw [asked] at after events
    have unchanged :
        engine.Change (conditions.reading now) false stage.after.engine stage.events := by
      rw [after, events]
      exact .gather engine.pending engine.attempted Engine.quiet_nil
    exact rhythm.change time unchanged
  · rw [fired] at after
    rw [silent] at events
    apply rhythm.extend time
    · rw [after]
      rfl
    · rw [after]
    · rw [after]
      exact rhythm.certified
    · rw [events]
      exact fun _ listed => absurd listed List.not_mem_nil
    · rw [events]
      exact fun _ listed => absurd listed List.not_mem_nil
    · intro other present installs range
      have same : stage.after.engine.view = engine.view := by rw [after]
      rw [same] at installs
      rcases List.mem_append.1 present with earlier | last
      · obtain ⟨count, beating⟩ := rhythm.current other earlier installs range
        refine ⟨count, beating.keep (by rw [events]; rfl) same (by rw [after]) (by rw [after]; rfl)
          ?_⟩
        intro often
        exact absurd ⟨often, rhythm.leads earlier installs⟩ idle
      · rw [List.mem_singleton.1 last, events] at installs
        cases installs
  · rw [fired] at after
    rw [told] at events
    have same : stage.after.engine.view = engine.view := by rw [after]
    have announced : announcements stage.events =
        [(engine.view, engine.installed.attestations)] := by
      rw [events]
      rfl
    apply rhythm.extend time
    · rw [after]
      rfl
    · exact Int.le_of_eq same.symm
    · rw [after]
      exact rhythm.certified
    · rw [events]
      exact fun _ listed => absurd listed List.not_mem_nil
    · rw [announced]
      intro announcement listed
      rw [List.mem_singleton.1 listed]
      refine ⟨same.symm, rhythm.certified.1 valid, Engine.isLeader_iff.2 ?_⟩
      rw [after]
      exact leads
    · intro other present installs range
      rw [same] at installs
      rcases List.mem_append.1 present with earlier | last
      · obtain ⟨count, beating⟩ := rhythm.current other earlier installs range
        exact ⟨count + 1, beating.beat often (beating.next_of_due often due range) time announced
          after⟩
      · rw [List.mem_singleton.1 last, events] at installs
        cases installs

end Rhythm

end ViewSync
