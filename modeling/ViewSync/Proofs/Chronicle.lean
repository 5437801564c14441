import Mathlib.Logic.Relation
import ViewSync.Proofs.Evidence

/-!
Runs of a cluster that is left to itself.

A chronicle is a cluster together with all that its replicas have done so far. Moves are what can
happen to it when nobody puts messages in flight from outside: the clock moves on, messages are
delivered, duplicated or lost, replicas crash and start anew. Every move is a sequence of moments,
each of which changes one thing; an invariant is checked moment by moment.
-/

namespace ViewSync

namespace Cluster

def straggle (cluster : Cluster) (index : Int) : Cluster × Report :=
  match cluster.queue[cluster.queuePosition index]? with
  | none => (cluster, {})
  | some packet =>
      if cluster.isDown packet.receiver then (cluster.lose index, {})
      else (cluster.lose index).handOver packet

inductive Move
  | tick (millis : Int)
  | deliver (index : Int)
  /-- A message arrives late: its sender may be crashed by now. -/
  | straggle (index : Int)
  | duplicate (index : Int)
  | lose (index : Int)
  | crash (identifier : Int)
  | restart (identifier : Int)
deriving DecidableEq, Repr

def undergo (cluster : Cluster) : Move → Cluster × Report
  | .tick millis => cluster.act (.tick millis)
  | .deliver index => cluster.act (.deliver index)
  | .straggle index => cluster.straggle index
  | .duplicate index => cluster.act (.duplicate index)
  | .lose index => cluster.act (.lose index)
  | .crash identifier => cluster.act (.crash identifier)
  | .restart identifier => cluster.act (.restart identifier)

theorem neverHalts_calm (view : Int) : neverHalts view = false :=
  rfl

/-! ### Putting a replica's new state in place -/

theorem record_eq (cluster : Cluster) (position : Nat) (engine : Engine) (events : List Event) :
    cluster.record position engine events =
      { cluster with
        engines := cluster.engines.set position engine
        queue := cluster.queue ++ cluster.posted position events } := by
  unfold record post
  split
  · next none =>
      rw [List.isEmpty_iff.1 none]
      simp
  · rfl

theorem stored_of_set {α : Type} {items : List α} {position other : Nat} {after found : α}
    (stored : (items.set position after)[other]? = some found) :
    (other = position ∧ found = after) ∨ (other ≠ position ∧ items[other]? = some found) := by
  rw [List.getElem?_set] at stored
  split at stored
  · next same =>
      split at stored
      · exact .inl ⟨same.symm, (Option.some.inj stored).symm⟩
      · cases stored
  · next different => exact .inr ⟨Ne.symm different, stored⟩

theorem mem_posted {cluster : Cluster} {sender : Nat} {events : List Event} {packet : Packet} :
    packet ∈ cluster.posted sender events ↔
      packet.sender = sender ∧ .broadcast packet.message ∈ events ∧
        ∃ receiver : Nat, receiver < cluster.engines.length ∧ packet.receiver = receiver := by
  unfold posted copies
  rw [List.mem_flatMap]
  constructor
  · rintro ⟨event, happened, copied⟩
    cases event with
    | broadcast message =>
        obtain ⟨receiver, within, rfl⟩ := List.mem_map.1 copied
        exact ⟨rfl, happened, receiver, List.mem_range.1 within, rfl⟩
    | quorumCollected view => exact absurd copied List.not_mem_nil
    | viewInstalled view leader => exact absurd copied List.not_mem_nil
  · rintro ⟨sent, happened, receiver, within, reached⟩
    refine ⟨.broadcast packet.message, happened, ?_⟩
    refine List.mem_map.2 ⟨receiver, List.mem_range.2 within, ?_⟩
    rw [← sent, ← reached]

theorem engine?_eq_some {cluster : Cluster} {identifier : Int} {engine : Engine} :
    cluster.engine? identifier = some engine ↔
      0 ≤ identifier ∧ cluster.engines[identifier.toNat]? = some engine := by
  unfold engine?
  split
  · next within => simp [within]
  · next without => simp [without]

/-! ### Firing timers one replica at a time -/

theorem fireFrom_nil (cluster : Cluster) : cluster.fireFrom [] = (cluster, {}) :=
  rfl

theorem foldl_fire (positions : List Nat) (cluster : Cluster) (report : Report) :
    positions.foldl
        (fun (before, report) position =>
          let (after, seen) := fireAt before position
          (after, report.andThen seen))
        (cluster, report) =
      ((cluster.fireFrom positions).1, report.andThen (cluster.fireFrom positions).2) := by
  induction positions generalizing cluster report with
  | nil => simp [fireFrom, Report.andThen]
  | cons position rest ih =>
      rw [fireFrom, List.foldl_cons, List.foldl_cons, ih, ih]
      simp [Report.andThen, List.append_assoc]

theorem fireFrom_cons (cluster : Cluster) (position : Nat) (positions : List Nat) :
    cluster.fireFrom (position :: positions) =
      (((cluster.fireAt position).1.fireFrom positions).1,
        (cluster.fireAt position).2.andThen ((cluster.fireAt position).1.fireFrom positions).2) := by
  rw [fireFrom, List.foldl_cons, foldl_fire]
  simp [Report.andThen]

end Cluster

/-- A cluster and all that its replicas have done so far, in order. -/
structure Chronicle where
  cluster : Cluster
  seen : List (Nat × Event) := []
deriving DecidableEq

namespace Chronicle

open Cluster (Move neverHalts)

def opening (timers : List TimerPair) (now : Int) : Chronicle :=
  { cluster := { engines := Cluster.seats timers now, now } }

def move (chronicle : Chronicle) (move : Move) : Chronicle :=
  let (cluster, report) := chronicle.cluster.undergo move
  { cluster, seen := chronicle.seen ++ report.events }

def after (chronicle : Chronicle) (moves : List Move) : Chronicle :=
  moves.foldl move chronicle

def record (chronicle : Chronicle) (position : Nat) (engine : Engine) (events : List Event) :
    Chronicle :=
  { cluster := chronicle.cluster.record position engine events
    seen := chronicle.seen ++ events.map (position, ·) }

def size (chronicle : Chronicle) : Nat :=
  chronicle.cluster.engines.length

section Record

variable {chronicle : Chronicle} {position other : Nat} {after found : Engine}
  {events : List Event}

/-- A replica after a step is the one that took it, or it is as it was. -/
theorem stored_record
    (stored : (chronicle.record position after events).cluster.engines[other]? = some found) :
    (other = position ∧ found = after) ∨
      (other ≠ position ∧ chronicle.cluster.engines[other]? = some found) := by
  simp only [record, Cluster.record_eq] at stored
  exact Cluster.stored_of_set stored

theorem mem_record_queue {packet : Packet} :
    packet ∈ (chronicle.record position after events).cluster.queue ↔
      packet ∈ chronicle.cluster.queue ∨ packet ∈ chronicle.cluster.posted position events := by
  simp only [record, Cluster.record_eq]
  exact List.mem_append

end Record

/-! ### Moments -/

inductive Transit (chronicle : Chronicle) : Chronicle → Prop
  | loss (queue : List Packet) (fewer : ∀ packet ∈ queue, packet ∈ chronicle.cluster.queue) :
      Transit chronicle { chronicle with cluster := { chronicle.cluster with queue } }
  | hear (packet : Packet) (position : Nat) (engine : Engine)
      (inFlight : packet ∈ chronicle.cluster.queue) (addressed : packet.receiver = position)
      (present : chronicle.cluster.engines[position]? = some engine) :
      Transit chronicle
        (chronicle.record position
          (engine.receive neverHalts chronicle.cluster.now
            ⟨packet.sender, packet.message⟩).engine
          (engine.receive neverHalts chronicle.cluster.now
            ⟨packet.sender, packet.message⟩).events)

inductive Moment (chronicle : Chronicle) : Chronicle → Prop
  | clock (now : Int) :
      Moment chronicle { chronicle with cluster := { chronicle.cluster with now } }
  | outage (crashed : List Int) :
      Moment chronicle { chronicle with cluster := { chronicle.cluster with crashed } }
  | transit (later : Chronicle) (carried : Transit chronicle later) : Moment chronicle later
  | fire (position : Nat) (engine : Engine)
      (present : chronicle.cluster.engines[position]? = some engine) :
      Moment chronicle
        (chronicle.record position (engine.fireDue neverHalts true chronicle.cluster.now).engine
          (engine.fireDue neverHalts true chronicle.cluster.now).events)
  | renew (position : Nat) (engine : Engine)
      (present : chronicle.cluster.engines[position]? = some engine) :
      Moment chronicle
        { chronicle with
          cluster :=
            { chronicle.cluster with
              engines :=
                chronicle.cluster.engines.set position
                  (engine.fresh.start chronicle.cluster.now) } }

abbrev Transits : Chronicle → Chronicle → Prop :=
  Relation.ReflTransGen Transit

abbrev Moments : Chronicle → Chronicle → Prop :=
  Relation.ReflTransGen Moment

theorem moments_of_transits {before after : Chronicle} (carried : Transits before after) :
    Moments before after :=
  Relation.ReflTransGen.mono (fun _ later transit => Moment.transit later transit) _ _ carried

def extend (chronicle : Chronicle) (result : Cluster × Report) : Chronicle :=
  { cluster := result.1, seen := chronicle.seen ++ result.2.events }

theorem extend_nothing (chronicle : Chronicle) :
    chronicle.extend (chronicle.cluster, {}) = chronicle := by
  simp [extend]

theorem move_eq_extend (chronicle : Chronicle) (move : Move) :
    chronicle.move move = chronicle.extend (chronicle.cluster.undergo move) :=
  rfl

/-! ### Firing -/

theorem extend_fireAt_cases (chronicle : Chronicle) (position : Nat) :
    (chronicle.extend (chronicle.cluster.fireAt position) = chronicle ∧
      (chronicle.cluster.isDown position = true ∨
        chronicle.cluster.engines[position]? = none)) ∨
    ∃ engine, chronicle.cluster.isDown position = false ∧
      chronicle.cluster.engines[position]? = some engine ∧
        chronicle.extend (chronicle.cluster.fireAt position) =
          chronicle.record position (engine.fireDue neverHalts true chronicle.cluster.now).engine
            (engine.fireDue neverHalts true chronicle.cluster.now).events := by
  cases down : chronicle.cluster.isDown position with
  | true =>
      rw [Cluster.fireAt, if_pos down, extend_nothing]
      exact .inl ⟨rfl, .inl rfl⟩
  | false =>
      rw [Cluster.fireAt, if_neg (Bool.eq_false_iff.1 down)]
      cases present : chronicle.cluster.engines[position]? with
      | none => exact .inl ⟨extend_nothing chronicle, .inr rfl⟩
      | some engine => exact .inr ⟨engine, rfl, rfl, rfl⟩

theorem extend_fireFrom_cons (chronicle : Chronicle) (position : Nat) (rest : List Nat) :
    chronicle.extend (chronicle.cluster.fireFrom (position :: rest)) =
      (chronicle.extend (chronicle.cluster.fireAt position)).extend
        ((chronicle.cluster.fireAt position).1.fireFrom rest) := by
  rw [Cluster.fireFrom_cons]
  simp [extend, Report.andThen]

theorem moments_fireAt (chronicle : Chronicle) (position : Nat) :
    Moments chronicle (chronicle.extend (chronicle.cluster.fireAt position)) := by
  rcases extend_fireAt_cases chronicle position with ⟨same, -⟩ | ⟨engine, -, present, fired⟩
  · rw [same]
  · rw [fired]
    exact .single (.fire position engine present)

theorem moments_fireFrom (positions : List Nat) (chronicle : Chronicle) :
    Moments chronicle (chronicle.extend (chronicle.cluster.fireFrom positions)) := by
  induction positions generalizing chronicle with
  | nil =>
      rw [Cluster.fireFrom_nil, extend_nothing]
  | cons position rest ih =>
      rw [extend_fireFrom_cons]
      exact (moments_fireAt chronicle position).trans
        (ih (chronicle.extend (chronicle.cluster.fireAt position)))

/-! ### Carrying messages -/

theorem transits_handOver (chronicle : Chronicle) (packet : Packet)
    (inFlight : packet ∈ chronicle.cluster.queue) :
    Transits chronicle (chronicle.extend (chronicle.cluster.handOver packet)) := by
  unfold Cluster.handOver
  split
  · rw [extend_nothing]
  · next engine present =>
      obtain ⟨within, stored⟩ := Cluster.engine?_eq_some.1 present
      exact .single (.hear packet packet.receiver.toNat engine inFlight
        (Int.toNat_of_nonneg within).symm stored)

/-- Taking a message out before it is heard comes to losing it right after. -/
theorem transits_taken (chronicle : Chronicle) {index : Nat} {packet : Packet}
    (inFlight : chronicle.cluster.queue[index]? = some packet) :
    Transits chronicle
      (chronicle.extend
        ({ chronicle.cluster with
            queue := chronicle.cluster.queue.eraseIdx index }.handOver packet)) := by
  have fewer : ∀ other ∈ chronicle.cluster.queue.eraseIdx index,
      other ∈ chronicle.cluster.queue := fun other => List.mem_of_mem_eraseIdx
  cases present : chronicle.cluster.engine? packet.receiver with
  | none =>
      have unheard : { chronicle.cluster with
          queue := chronicle.cluster.queue.eraseIdx index }.handOver packet =
            ({ chronicle.cluster with queue := chronicle.cluster.queue.eraseIdx index }, {}) := by
        have sameEngines : { chronicle.cluster with
            queue := chronicle.cluster.queue.eraseIdx index }.engine? packet.receiver = none :=
          present
        rw [Cluster.handOver, sameEngines]
      rw [unheard]
      have lost : Transit chronicle _ := .loss _ fewer
      simpa [extend] using Relation.ReflTransGen.single lost
  | some engine =>
      have heard := transits_handOver chronicle packet (List.mem_of_getElem? inFlight)
      refine heard.tail ?_
      have sameEngines : { chronicle.cluster with
          queue := chronicle.cluster.queue.eraseIdx index }.engine? packet.receiver =
            some engine := present
      rw [Cluster.handOver, Cluster.handOver, present, sameEngines]
      simp only [Cluster.record_eq, extend]
      refine .loss _ ?_
      intro other remains
      rcases List.mem_append.1 remains with waiting | posted
      · exact List.mem_append_left _ (fewer other waiting)
      · exact List.mem_append_right _ posted

theorem transits_lose (chronicle : Chronicle) (index : Int) :
    Transits chronicle (chronicle.move (.lose index)) := by
  have lost : Transit chronicle _ := .loss
    (chronicle.cluster.queue.eraseIdx (chronicle.cluster.queuePosition index))
    fun _ => List.mem_of_mem_eraseIdx
  simpa [move_eq_extend, extend, Cluster.undergo, Cluster.act, Cluster.lose] using
    Relation.ReflTransGen.single lost

theorem transits_deliver (chronicle : Chronicle) (index : Int) :
    Transits chronicle (chronicle.move (.deliver index)) := by
  have lost := transits_lose chronicle index
  simp only [move_eq_extend, Cluster.undergo, Cluster.act, Cluster.deliver] at lost ⊢
  split
  · rw [extend_nothing]
  · next packet inFlight =>
      unfold Cluster.consume
      split
      · exact lost
      · exact transits_taken chronicle inFlight

theorem transits_straggle (chronicle : Chronicle) (index : Int) :
    Transits chronicle (chronicle.move (.straggle index)) := by
  have lost := transits_lose chronicle index
  simp only [move_eq_extend, Cluster.undergo, Cluster.act, Cluster.straggle] at lost ⊢
  split
  · rw [extend_nothing]
  · next packet inFlight =>
      split
      · exact lost
      · exact transits_taken chronicle inFlight

theorem transits_duplicate (chronicle : Chronicle) (index : Int) :
    Transits chronicle (chronicle.move (.duplicate index)) := by
  simp only [move_eq_extend, Cluster.undergo, Cluster.act, Cluster.duplicate]
  split
  · rw [extend_nothing]
  · next packet inFlight =>
      unfold Cluster.consume
      split
      · rw [extend_nothing]
      · exact transits_handOver chronicle packet (List.mem_of_getElem? inFlight)

/-! ### Moves -/

def clocked (chronicle : Chronicle) (millis : Int) : Chronicle :=
  { chronicle with
    cluster :=
      { chronicle.cluster with now := wrap64 (chronicle.cluster.now + nanosOfMillis millis) } }

theorem move_tick (chronicle : Chronicle) (millis : Int) :
    chronicle.move (.tick millis) =
      (chronicle.clocked millis).extend
        ((chronicle.clocked millis).cluster.fireFrom (List.range chronicle.size)) :=
  rfl

theorem moments_move (chronicle : Chronicle) (move : Move) :
    Moments chronicle (chronicle.move move) := by
  cases move with
  | tick millis =>
      rw [move_tick]
      exact .head (.clock _) (moments_fireFrom _ (chronicle.clocked millis))
  | deliver index => exact moments_of_transits (transits_deliver chronicle index)
  | straggle index => exact moments_of_transits (transits_straggle chronicle index)
  | duplicate index => exact moments_of_transits (transits_duplicate chronicle index)
  | lose index => exact moments_of_transits (transits_lose chronicle index)
  | crash identifier =>
      have gone : Moment chronicle _ := .outage (chronicle.cluster.crashed.insert identifier)
      simpa [move_eq_extend, extend, Cluster.undergo, Cluster.act, Cluster.crash] using
        Relation.ReflTransGen.single gone
  | restart identifier =>
      have back : Moment chronicle _ :=
        .outage (chronicle.cluster.crashed.filter (· ≠ identifier))
      simp only [move_eq_extend, Cluster.undergo, Cluster.act, Cluster.restart]
      split
      · simpa [extend] using Relation.ReflTransGen.single back
      · next engine present =>
          have stored := (Cluster.engine?_eq_some.1 present).2
          let served : Chronicle :=
            { chronicle with
              cluster :=
                { chronicle.cluster with
                  crashed := chronicle.cluster.crashed.filter (· ≠ identifier) } }
          have renewed : served.Moment _ := .renew identifier.toNat engine stored
          simpa [extend, served] using Relation.ReflTransGen.head back (.single renewed)

/-- What every moment keeps is kept by every run. -/
theorem after_induction {holds : Chronicle → Prop}
    (kept : ∀ before after : Chronicle, Moment before after → holds before → holds after)
    (moves : List Move) (chronicle : Chronicle) (start : holds chronicle) :
    holds (chronicle.after moves) := by
  induction moves generalizing chronicle with
  | nil => exact start
  | cons move rest ih =>
      have moved : ∀ later, Moments chronicle later → holds later := by
        intro later run
        induction run with
        | refl => exact start
        | tail _ moment held => exact kept _ _ moment held
      exact ih _ (moved _ (moments_move chronicle move))

end Chronicle

end ViewSync
