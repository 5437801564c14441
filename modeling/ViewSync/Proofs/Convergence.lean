import ViewSync.Proofs.Delivery

/-!
A group of live replicas that is a quorum and has not attempted the view after its highest one
moves there in one round, whoever of those at the highest view begin it and in whatever order
messages arrive.

While messages are delivered one of two things holds. Either the new leader has announced the view,
and the announcement is on its way to every member that has not installed it; or nobody has, and
then the vote of each member is on its way to every other member, or else the member is yet to be
called by a vote that is on its way to it. A leader that is crashed is no exception: then the
second holds until the end.
-/

namespace ViewSync

namespace Chronicle

open Cluster (Move neverHalts)

def Called (chronicle : Chronicle) (view : Int) (member : Nat) : Prop :=
  (∃ engine, chronicle.cluster.engines[member]? = some engine ∧ engine.attempted < view) ∧
    ∃ sender, ⟨sender, member, .viewChange view⟩ ∈ chronicle.cluster.queue

structure Polling (chronicle : Chronicle) (view : Int) (group : Finset Nat) : Prop where
  unproved : ∀ packet ∈ chronicle.cluster.queue, packet.message = .viewChange view
  voting : ∀ member ∈ group, chronicle.Called view member ∨
    ∀ other ∈ group, chronicle.Conveys view member other

structure Gathered (chronicle : Chronicle) (view : Int) (group : Finset Nat) : Prop where
  sound : chronicle.Sound
  live : ∀ member ∈ group, chronicle.IsLive member
  about : ∀ packet ∈ chronicle.cluster.queue,
    packet.message.view = view ∧ chronicle.cluster.isDown packet.sender = false
  within : ∀ member ∈ group, ∀ engine : Engine,
    chronicle.cluster.engines[member]? = some engine →
      engine.view ≤ view ∧ engine.attempted ≤ view

structure Electing (chronicle : Chronicle) (view : Int) (group : Finset Nat) : Prop
    extends chronicle.Gathered view group where
  underWay : (∀ member ∈ group, chronicle.Announced view member) ∨ chronicle.Polling view group

section Record

variable {chronicle : Chronicle} {view : Int} {group : Finset Nat} {position : Nat}
  {before after : Engine} {events : List Event}

theorem announced_of_broadcast {attestations : List Attestation}
    (broadcast : .broadcast (.viewProof view attestations) ∈ events)
    (live : ∀ member ∈ group, chronicle.IsLive member) :
    ∀ member ∈ group, (chronicle.record position after events).Announced view member :=
  fun member joined => .inr (told_of_broadcast broadcast (live member joined).1)

/-- What a replica broadcasts about the view is a proof, or else all of it are votes. -/
theorem proof_or_votes
    (about : ∀ message, .broadcast message ∈ events → message.view = view) :
    (∃ attestations, .broadcast (.viewProof view attestations) ∈ events) ∨
      ∀ message, .broadcast message ∈ events → message = .viewChange view := by
  by_cases proof : ∃ attestations, .broadcast (.viewProof view attestations) ∈ events
  · exact .inl proof
  · right
    intro message broadcast
    have aboutView := about message broadcast
    cases message with
    | viewChange other =>
        simp only [Message.view] at aboutView
        rw [aboutView]
    | viewProof other attestations =>
        simp only [Message.view] at aboutView
        subst aboutView
        exact absurd ⟨attestations, broadcast⟩ proof

theorem conveys_of_broadcast (broadcast : .broadcast (.viewChange view) ∈ events)
    (live : ∀ member ∈ group, chronicle.IsLive member) :
    ∀ other ∈ group, (chronicle.record position after events).Conveys view position other :=
  fun other joined => .inl (posted_of_broadcast broadcast (live other joined).1)

theorem Gathered.record (gathered : chronicle.Gathered view group)
    (present : chronicle.cluster.engines[position]? = some before)
    (sound : (chronicle.record position after events).Sound)
    (up : chronicle.cluster.isDown position = false)
    (about : ∀ message, .broadcast message ∈ events → message.view = view)
    (forward : position ∈ group → after.view ≤ view ∧ after.attempted ≤ view) :
    (chronicle.record position after events).Gathered view group where
  sound := sound
  live member joined := isLive_record.2 (gathered.live member joined)
  about packet inFlight := by
    rw [record_isDown]
    rcases mem_record_queue.1 inFlight with waiting | posted
    · exact gathered.about packet waiting
    · obtain ⟨sent, broadcast, -⟩ := Cluster.mem_posted.1 posted
      rw [sent]
      exact ⟨about packet.message broadcast, up⟩
  within member joined engine found := by
    rcases stored_record found with ⟨rfl, rfl⟩ | ⟨-, earlier⟩
    · exact forward joined
    · exact gathered.within member joined engine earlier

end Record

/-! ### Deliveries -/

section Deliver

variable {before after : Chronicle} {view : Int} {group : Finset Nat}

theorem Gathered.withQueue {queue : List Packet} (gathered : before.Gathered view group)
    (fewer : ∀ packet ∈ queue, packet ∈ before.cluster.queue) :
    (before.withQueue queue).Gathered view group where
  sound := gathered.sound.withQueue fewer
  live := gathered.live
  about packet left := gathered.about packet (fewer packet left)
  within := gathered.within

theorem Gathered.delivery (gathered : before.Gathered view group)
    (delivery : Delivery before after) : after.Gathered view group := by
  have sound := gathered.sound.delivery delivery
  cases delivery with
  | missed packet queue taken cut => exact gathered.withQueue taken.fewer
  | heard packet queue position engine taken senderUp receiverUp addressed present =>
      have aboutView := (gathered.about packet taken.waiting).1
      refine (gathered.withQueue taken.fewer).record present sound (addressed ▸ receiverUp)
        ?_ ?_
      · intro message broadcast
        rw [← aboutView]
        exact Engine.view_of_broadcast_receive Cluster.neverHalts_calm broadcast
      · intro joined
        obtain ⟨viewWithin, attemptedWithin⟩ := gathered.within position joined engine present
        constructor
        · rcases @Engine.view_receive engine neverHalts before.cluster.now
            ⟨packet.sender, packet.message⟩ Cluster.neverHalts_calm with same | ⟨-, moved⟩
          · rw [same]
            exact viewWithin
          · rw [moved]
            exact Int.le_of_eq aboutView
        · rcases @Engine.attempted_receive engine neverHalts before.cluster.now
            ⟨packet.sender, packet.message⟩ Cluster.neverHalts_calm with same | ⟨raised, -⟩
          · rw [same]
            exact attemptedWithin
          · rw [raised]
            exact max_le attemptedWithin (Int.le_of_eq aboutView)

theorem broadcast_of_called {engine : Engine} {now sender : Int} {earlier later : Evidence}
    (kept : engine.WellKept earlier) (known : engine.knows sender = true)
    (keptAfter : (engine.receive neverHalts now ⟨sender, .viewChange view⟩).engine.WellKept later)
    (idle : engine.attempted < view) :
    .broadcast (.viewChange view) ∈
      (engine.receive neverHalts now ⟨sender, .viewChange view⟩).events := by
  rcases @Engine.attempted_receive engine neverHalts now ⟨sender, .viewChange view⟩
    Cluster.neverHalts_calm with same | ⟨-, joins⟩
  · rcases @Engine.counts_receive engine neverHalts now earlier kept Cluster.neverHalts_calm sender
      view known with passed | voted
    · have ordered := keptAfter.ordered
      omega
    · rw [keptAfter.candidacy_of_unattempted (same ▸ idle), Certificate.voters_blank] at voted
      exact absurd voted (Finset.notMem_empty sender)
  · exact joins view rfl idle

theorem Called.delivery (gathered : before.Gathered view group)
    (unproved : ∀ packet ∈ before.cluster.queue, packet.message = .viewChange view)
    (delivery : Delivery before after) {member : Nat} (joined : member ∈ group)
    (called : before.Called view member) :
    after.Called view member ∨ ∀ other ∈ group, after.Conveys view member other := by
  have sound := gathered.sound.delivery delivery
  obtain ⟨⟨waiting, found, idle⟩, sender, inFlight⟩ := called
  cases delivery with
  | missed packet queue taken cut =>
      rcases taken.others _ inFlight with same | left
      · exact absurd cut ((gathered.live member joined).not_cut
          (gathered.about packet taken.waiting).2 (same ▸ rfl))
      · exact .inl ⟨⟨waiting, found, idle⟩, sender, left⟩
  | heard packet queue position engine taken senderUp receiverUp addressed present =>
      have within : position < (before.withQueue queue).size :=
        (List.getElem?_eq_some_iff.1 present).1
      by_cases here : member = position
      · subst here
        rw [found, Option.some.injEq] at present
        subst present
        right
        -- any vote for the view will do: the member has not attempted it and so joins
        have keptAfter := sound.kept member _ ((record_engine within member).trans (if_pos rfl))
        have vote := unproved packet taken.waiting
        rw [vote] at keptAfter ⊢
        have broadcast := broadcast_of_called (gathered.sound.kept member waiting found)
          (gathered.sound.knows taken.waiting found) keptAfter idle
        exact conveys_of_broadcast broadcast gathered.live
      · left
        refine ⟨⟨waiting, ?_, idle⟩, sender, ?_⟩
        · rw [record_engine within, if_neg here]
          exact found
        · rcases taken.others _ inFlight with rfl | left
          · exact absurd (Int.ofNat.inj addressed) here
          · exact mem_record_queue.2 (.inl left)

theorem Electing.delivery (later : 0 ≤ view) (delivery : Delivery before after)
    (electing : before.Electing view group) : after.Electing view group := by
  have gathered := electing.toGathered
  refine ⟨gathered.delivery delivery, ?_⟩
  rcases electing.underWay with announced | ⟨unproved, voting⟩
  · exact .inl fun member joined =>
      (announced member joined).delivery delivery gathered.sound
        (fun packet inFlight => (gathered.about packet inFlight).2) later
        (gathered.live member joined)
  · have voted : ∀ member ∈ group, after.Called view member ∨
        ∀ other ∈ group, after.Conveys view member other := by
      intro member joined
      rcases voting member joined with called | conveyed
      · exact called.delivery gathered unproved delivery joined
      · exact .inr fun other alsoJoined =>
          (conveyed other alsoJoined).delivery delivery gathered.sound
            (gathered.live member joined) (gathered.live other alsoJoined)
    cases delivery with
    | missed packet queue taken cut =>
        exact .inr ⟨fun other left => unproved other (taken.fewer other left), voted⟩
    | heard packet queue position engine taken senderUp receiverUp addressed present =>
        have about : ∀ message,
            .broadcast message ∈ (engine.receive neverHalts before.cluster.now
              ⟨packet.sender, packet.message⟩).events → message.view = view := by
          intro message broadcast
          rw [← (gathered.about packet taken.waiting).1]
          exact Engine.view_of_broadcast_receive Cluster.neverHalts_calm broadcast
        -- once there is a proof it reaches everyone, and the votes do not matter any more
        rcases proof_or_votes about with ⟨attestations, proof⟩ | votes
        · exact .inl (announced_of_broadcast proof gathered.live)
        · refine .inr ⟨?_, voted⟩
          intro other inFlight
          rcases mem_record_queue.1 inFlight with left | posted
          · exact unproved other (taken.fewer other left)
          · exact votes other.message (Cluster.mem_posted.1 posted).2.1

end Deliver

/-! ### Timeouts -/

section TimeOut

variable {chronicle : Chronicle} {view : Int} {group : Finset Nat} {position : Nat}
  {engine : Engine}

theorem mem_timeOut_queue {packet : Packet} (inFlight : packet ∈ chronicle.cluster.queue)
    (position : Nat) : packet ∈ (chronicle.timeOut position).cluster.queue := by
  unfold timeOut
  split
  · exact inFlight
  · exact mem_record_queue.2 (.inl inFlight)

theorem about_timeOut (next : engine.view + 1 = view) {message : Message}
    (broadcast : .broadcast message ∈
      (engine.progressTimeout neverHalts chronicle.cluster.now).events) :
    message.view = view := by
  rw [← next]
  exact Engine.view_of_broadcast_progressTimeout Cluster.neverHalts_calm broadcast

theorem Gathered.timeOut (gathered : chronicle.Gathered view group) (joined : position ∈ group)
    (present : chronicle.cluster.engines[position]? = some engine)
    (next : engine.view + 1 = view) (notLast : engine.view ≠ maxView) :
    (chronicle.timeOut position).Gathered view group := by
  have sound := gathered.sound.timeOut position
  obtain ⟨-, attemptedWithin⟩ := gathered.within position joined engine present
  rw [timeOut_eq present] at sound ⊢
  refine gathered.record present sound (gathered.live position joined).2
    (fun message => about_timeOut next) ?_
  intro _
  constructor
  · rcases @Engine.view_progressTimeout engine neverHalts chronicle.cluster.now
      Cluster.neverHalts_calm with same | moved
    · omega
    · omega
  · have raised := @Engine.attempted_progressTimeout engine neverHalts chronicle.cluster.now
      Cluster.neverHalts_calm notLast
    rw [raised]
    exact max_le attemptedWithin (Int.le_of_eq next)

theorem Announced.timeOut {member : Nat} (announced : chronicle.Announced view member)
    (present : chronicle.cluster.engines[position]? = some engine) :
    (chronicle.timeOut position).Announced view member := by
  rw [timeOut_eq present]
  apply announced.record present
  rcases @Engine.view_progressTimeout engine neverHalts chronicle.cluster.now
    Cluster.neverHalts_calm with same | moved
  · omega
  · omega

theorem Called.timeOut {member : Nat} (called : chronicle.Called view member)
    (different : member ≠ position) : (chronicle.timeOut position).Called view member := by
  obtain ⟨⟨waiting, found, idle⟩, sender, inFlight⟩ := called
  exact ⟨⟨waiting, (timeOut_engine different).trans found, idle⟩, sender,
    mem_timeOut_queue inFlight position⟩

/-- Once a member has timed out its vote is on the way, and the round is under way if the other
members have voted or are called. -/
theorem underWay_timeOut (gathered : chronicle.Gathered view group)
    (present : chronicle.cluster.engines[position]? = some engine)
    (next : engine.view + 1 = view) (notLast : engine.view ≠ maxView)
    (unproved : ∀ packet ∈ chronicle.cluster.queue, packet.message = .viewChange view)
    (voting : ∀ member ∈ group, member ≠ position →
      (chronicle.timeOut position).Called view member ∨
        ∀ other ∈ group, (chronicle.timeOut position).Conveys view member other) :
    (∀ member ∈ group, (chronicle.timeOut position).Announced view member) ∨
      (chronicle.timeOut position).Polling view group := by
  have ownVote : ∀ other ∈ group, (chronicle.timeOut position).Conveys view position other := by
    intro other joined
    rw [← next]
    exact conveys_timeOut present notLast (gathered.live other joined).1
  have everyone : ∀ member ∈ group, (chronicle.timeOut position).Called view member ∨
      ∀ other ∈ group, (chronicle.timeOut position).Conveys view member other := by
    intro member joined
    by_cases same : member = position
    · exact .inr (same ▸ ownVote)
    · exact voting member joined same
  have about : ∀ message, .broadcast message ∈
      (engine.progressTimeout neverHalts chronicle.cluster.now).events → message.view = view :=
    fun message => about_timeOut next
  rcases proof_or_votes about with ⟨attestations, proof⟩ | votes
  · left
    rw [timeOut_eq present]
    exact announced_of_broadcast proof gathered.live
  · refine .inr ⟨?_, everyone⟩
    intro packet inFlight
    rw [timeOut_eq present] at inFlight
    rcases mem_record_queue.1 inFlight with waiting | posted
    · exact unproved packet waiting
    · exact votes packet.message (Cluster.mem_posted.1 posted).2.1

theorem electing_timeOut (gathered : chronicle.Gathered view group)
    (idle : chronicle.cluster.queue = [])
    (unattempted : ∀ member ∈ group, ∀ other : Engine,
      chronicle.cluster.engines[member]? = some other → other.attempted < view)
    (joined : position ∈ group)
    (present : chronicle.cluster.engines[position]? = some engine)
    (next : engine.view + 1 = view) (notLast : engine.view ≠ maxView) :
    (chronicle.timeOut position).Electing view group := by
  refine ⟨gathered.timeOut joined present next notLast,
    underWay_timeOut gathered present next notLast ?_ ?_⟩
  · intro packet inFlight
    rw [idle] at inFlight
    exact absurd inFlight List.not_mem_nil
  · intro member alsoJoined different
    have live := gathered.live member alsoJoined
    obtain ⟨other, found⟩ := live.engine
    refine .inl ⟨⟨other, (timeOut_engine different).trans found,
      unattempted member alsoJoined other found⟩, position, ?_⟩
    rw [timeOut_eq present, ← next]
    exact posted_of_broadcast
      (Engine.progressTimeout_broadcasts Cluster.neverHalts_calm notLast) live.1

theorem Electing.timeOut (electing : chronicle.Electing view group) (joined : position ∈ group)
    (present : chronicle.cluster.engines[position]? = some engine)
    (next : engine.view + 1 = view) (notLast : engine.view ≠ maxView) :
    (chronicle.timeOut position).Electing view group := by
  have gathered := electing.toGathered
  refine ⟨gathered.timeOut joined present next notLast, ?_⟩
  rcases electing.underWay with announced | ⟨unproved, voting⟩
  · exact .inl fun member alsoJoined => (announced member alsoJoined).timeOut present
  · refine underWay_timeOut gathered present next notLast unproved ?_
    intro member alsoJoined different
    exact (voting member alsoJoined).imp (fun called => called.timeOut different)
      fun conveyed other third => (conveyed other third).timeOut position

theorem Electing.timeOutAll (starters : List Nat) (electing : chronicle.Electing view group)
    (joined : ∀ starter ∈ starters, starter ∈ group) (distinct : starters.Nodup)
    (notLast : view ≤ maxView)
    (next : ∀ starter ∈ starters, ∀ other : Engine,
      chronicle.cluster.engines[starter]? = some other → other.view + 1 = view) :
    (chronicle.timeOutAll starters).Electing view group := by
  induction starters generalizing chronicle with
  | nil => exact electing
  | cons first rest ih =>
      have firstJoined := joined first List.mem_cons_self
      obtain ⟨engine, present⟩ := (electing.live first firstJoined).engine
      have firstNext := next first List.mem_cons_self engine present
      rw [timeOutAll_cons]
      apply ih (electing.timeOut firstJoined present firstNext (by omega))
        (fun starter later => joined starter (List.mem_cons_of_mem first later)) distinct.tail
      intro starter later other found
      rw [timeOut_engine_of_nodup distinct later] at found
      exact next starter (List.mem_cons_of_mem first later) other found

theorem electing_timeOutAll (starters : List Nat) (gathered : chronicle.Gathered view group)
    (idle : chronicle.cluster.queue = [])
    (unattempted : ∀ member ∈ group, ∀ other : Engine,
      chronicle.cluster.engines[member]? = some other → other.attempted < view)
    (someone : starters ≠ []) (joined : ∀ starter ∈ starters, starter ∈ group)
    (distinct : starters.Nodup) (notLast : view ≤ maxView)
    (next : ∀ starter ∈ starters, ∀ other : Engine,
      chronicle.cluster.engines[starter]? = some other → other.view + 1 = view) :
    (chronicle.timeOutAll starters).Electing view group := by
  cases starters with
  | nil => exact absurd rfl someone
  | cons first rest =>
      have firstJoined := joined first List.mem_cons_self
      obtain ⟨engine, present⟩ := (gathered.live first firstJoined).engine
      have firstNext := next first List.mem_cons_self engine present
      have electing := electing_timeOut gathered idle unattempted firstJoined present firstNext
        (by omega)
      rw [timeOutAll_cons]
      apply electing.timeOutAll rest
        (fun starter later => joined starter (List.mem_cons_of_mem first later)) distinct.tail
        notLast
      intro starter later other found
      rw [timeOut_engine_of_nodup distinct later] at found
      exact next starter (List.mem_cons_of_mem first later) other found

end TimeOut

/-! ### The end of a round -/

/-- With no message left every member of a quorum has installed the view. -/
theorem Electing.installed {chronicle : Chronicle} {view : Int} {group : Finset Nat}
    (electing : chronicle.Electing view group) (idle : chronicle.cluster.queue = [])
    (quorum : chronicle.size / 2 + 1 ≤ group.card) {member : Nat} (joined : member ∈ group) :
    ∃ engine, chronicle.cluster.engines[member]? = some engine ∧ engine.view = view ∧
      engine.attempted = view ∧ engine.pending = ∅ := by
  obtain ⟨engine, found⟩ := (electing.live member joined).engine
  have kept := electing.sound.kept member engine found
  have reached : view ≤ engine.view := by
    rcases electing.underWay with announced | ⟨-, voting⟩
    · exact (announced member joined).arrived idle found
    · -- without any proof each member has counted the votes of the whole group
      apply kept.view_le_of_quorum
      · rw [(electing.sound.seated member engine found).2, quorumSize_natCast]
        exact Int.ofNat_le.2 quorum
      · intro voter alsoJoined
        rcases voting voter alsoJoined with ⟨-, _, inFlight⟩ | conveyed
        · rw [idle] at inFlight
          exact absurd inFlight List.not_mem_nil
        · exact (conveyed member joined).arrived idle found
  obtain ⟨viewWithin, attemptedWithin⟩ := electing.within member joined engine found
  have ordered := kept.ordered
  refine ⟨engine, found, by omega, by omega, ?_⟩
  apply Std.ExtTreeMap.ext_getElem?
  intro key
  rw [Std.ExtTreeMap.getElem?_empty]
  cases stored : engine.pending[key]? with
  | none => rfl
  | some certificate =>
      obtain ⟨ahead, tried, -⟩ := kept.gathered key certificate stored
      omega

/-- In any reachable state with nothing in flight, let a group of live replicas be a quorum, and
let none of them have attempted a view after the highest view of the group. When some of those at
the highest view take their progress timeouts and messages are delivered in any order, deliveries
come to an end, and then all of the group have installed the next view and gather nothing. -/
theorem one_round_converges (timers : List TimerPair) (now : Int) (moves : List Move)
    (group : Finset Nat) (highest : Int) (starters : List Nat)
    (idle : ((opening timers now).after moves).cluster.queue = [])
    (live : ∀ member ∈ group, ((opening timers now).after moves).IsLive member)
    (quorum : timers.length / 2 + 1 ≤ group.card)
    (unattempted : ∀ member ∈ group, ∀ engine : Engine,
      ((opening timers now).after moves).cluster.engines[member]? = some engine →
        engine.attempted ≤ highest)
    (notLast : highest < maxView)
    (someone : starters ≠ []) (distinct : starters.Nodup)
    (joined : ∀ starter ∈ starters, starter ∈ group)
    (leading : ∀ starter ∈ starters, ∀ engine : Engine,
      ((opening timers now).after moves).cluster.engines[starter]? = some engine →
        engine.view = highest) :
    ∃ bound : Nat, ∀ choices : List Int, bound ≤ choices.length →
      let final := (((opening timers now).after moves).timeOutAll starters).deliverAll choices
      final.cluster.queue = [] ∧
        ∀ member ∈ group, ∃ engine, final.cluster.engines[member]? = some engine ∧
          engine.view = highest + 1 ∧ engine.attempted = highest + 1 ∧ engine.pending = ∅ := by
  have sound : ((opening timers now).after moves).Sound := sound_after timers now moves
  have sameSize := size_after timers now moves
  generalize (opening timers now).after moves = chronicle at *
  have gathered : chronicle.Gathered (highest + 1) group := by
    refine ⟨sound, live, ?_, ?_⟩
    · intro packet inFlight
      rw [idle] at inFlight
      exact absurd inFlight List.not_mem_nil
    · intro member alsoJoined engine present
      have tried := unattempted member alsoJoined engine present
      have ordered := (sound.kept member engine present).ordered
      omega
  have begun : (chronicle.timeOutAll starters).Electing (highest + 1) group :=
    electing_timeOutAll starters gathered idle
      (fun member alsoJoined other found =>
        Int.lt_add_one_of_le (unattempted member alsoJoined other found))
      someone joined distinct notLast
      (fun starter starting other found => by rw [leading starter starting other found])
  refine ⟨(chronicle.timeOutAll starters).cluster.burden
    (chronicle.timeOutAll starters).cluster.viewsInFlight, ?_⟩
  intro choices enough final
  have emptied : final.cluster.queue = [] :=
    queue_deliverAll choices _ (Cluster.isAbout_viewsInFlight _) enough
  have later : 0 ≤ highest + 1 := by
    obtain ⟨first, starting⟩ := List.exists_mem_of_ne_nil starters someone
    obtain ⟨engine, present⟩ := (live first (joined first starting)).engine
    have started := (sound.kept first engine present).started
    have firstLeads := leading first starting engine present
    omega
  have finished : final.Electing (highest + 1) group :=
    deliverAll_induction (fun _ _ delivery => Electing.delivery later delivery) choices _ begun
  have finalSize : final.size = timers.length := by
    have constant := @deliverAll_induction
      (fun other => other.size = (chronicle.timeOutAll starters).size)
      (fun _ _ delivery same => delivery.size_eq.trans same) choices _ rfl
    rw [constant, timeOutAll_size, sameSize]
  refine ⟨emptied, ?_⟩
  intro member alsoJoined
  exact finished.installed emptied (finalSize ▸ quorum) alsoJoined

/-- Two of three replicas move on although the third, which leads the next view, is crashed. -/
theorem one_round_converges_of_crashed_leader :
    let chronicle := (opening (List.replicate 3 ⟨100, 30, by decide, by decide, {}, {}⟩) 0).after
      [.crash 1]
    ∃ bound : Nat, ∀ choices : List Int, bound ≤ choices.length →
      let final := (chronicle.timeOutAll [0]).deliverAll choices
      final.cluster.queue = [] ∧
        ∀ member ∈ ({0, 2} : Finset Nat), ∃ engine,
          final.cluster.engines[member]? = some engine ∧
            engine.view = 1 ∧ engine.attempted = 1 ∧ engine.pending = ∅ := by
  intro chronicle
  have fresh : ∀ (position : Nat) (engine : Engine),
      chronicle.cluster.engines[position]? = some engine →
        engine.view = 0 ∧ engine.attempted = 0 := by
    intro position engine present
    obtain ⟨within, rfl⟩ := @opening_engine _ 0 position engine present
    exact ⟨rfl, rfl⟩
  exact one_round_converges _ 0 _ {0, 2} 0 [0] (by decide +kernel) (by decide +kernel)
    (by decide) (fun member _ engine present => Int.le_of_eq (fresh member engine present).2)
    (by decide) (by decide) (by decide) (by decide)
    fun starter _ engine present => (fresh starter engine present).1

end Chronicle

end ViewSync
