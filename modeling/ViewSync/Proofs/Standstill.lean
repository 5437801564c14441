import ViewSync.Proofs.Delivery

/-!
When a round changes nothing.

A replica counts each vote once and never asks for votes that were lost, so replicas at different
views may all have counted whatever the others propose next. Then a round in which every live
replica takes its progress timeout and every message is delivered leaves them where they are, and
so does every round after it. This is the only way in which a round can change nothing.
-/

namespace ViewSync

namespace Engine

def standing (engine : Engine) : Int × Int × Table Certificate :=
  (engine.view, engine.attempted, engine.pending)

theorem Counts.of_standing {left right : Engine} (same : left.standing = right.standing)
    {sender view : Int} (counted : left.Counts sender view) : right.Counts sender view := by
  have sameView : left.view = right.view := congrArg Prod.fst same
  have samePending : left.pending = right.pending := congrArg (fun all => all.2.2) same
  unfold Counts candidacy at counted ⊢
  rw [← sameView, ← samePending]
  exact counted

theorem insert_candidacy {engine : Engine} {view : Int}
    (voted : (engine.candidacy view).voters.Nonempty) :
    engine.pending.insert view (engine.candidacy view) = engine.pending := by
  cases stored : engine.pending[view]? with
  | none =>
      have blank : engine.candidacy view = .blank view := by
        rw [candidacy, stored]
        rfl
      rw [blank, Certificate.voters_blank] at voted
      exact absurd voted Finset.not_nonempty_empty
  | some certificate =>
      apply Std.ExtTreeMap.ext_getElem?
      intro key
      rw [Table.getElem?_insert]
      split
      · next same =>
          subst same
          rw [candidacy, stored]
          rfl
      · rfl

/-- A replica that has counted its own vote for the next view only says so again. -/
theorem progressTimeout_of_counts {evidence : Evidence} {engine : Engine} {halts : Int → Bool}
    {now : Int} (electoral : evidence.Electoral engine.replicas)
    (kept : engine.WellKept evidence) (calm : ∀ view, halts view = false)
    (next : engine.view ≠ maxView) (counted : engine.Counts engine.self (engine.view + 1)) :
    (engine.progressTimeout halts now).engine.standing = engine.standing ∧
      (engine.progressTimeout halts now).events =
        [.broadcast (.viewChange (engine.view + 1))] := by
  obtain ⟨ballot, short⟩ := kept.candidacy_ballot (engine.view + 1)
  have voted : engine.self ∈ (engine.candidacy (engine.view + 1)).voters := by
    rcases counted with passed | voted
    · omega
    · exact voted
  have tried : engine.view + 1 ≤ engine.attempted := by
    by_contra unattempted
    rw [kept.candidacy_of_unattempted (Int.not_le.1 unattempted),
      Certificate.voters_blank] at voted
    exact absurd voted (Finset.notMem_empty _)
  have invalid : ¬ (engine.candidacy (engine.view + 1)).isValid
      (engine.rearm now).replicas = true := by
    change ¬ (engine.candidacy (engine.view + 1)).isValid engine.replicas = true
    rw [ballot.isValid_iff (fun sender => electoral.seated sender _) engine.roster_positive]
    exact Int.not_le.2 short
  obtain ⟨after, events⟩ := @progressTimeout_of_next engine halts now (calm _) next
  rw [after, events, ballot.add_of_mem voted, tally_of_not_valid invalid, max_eq_left tried]
  refine ⟨?_, rfl⟩
  change (engine.view, engine.attempted,
    engine.pending.insert (engine.view + 1) (engine.candidacy (engine.view + 1))) = _
  rw [insert_candidacy ⟨_, voted⟩]
  rfl

end Engine

namespace Chronicle

open Cluster (Move neverHalts)

/-- Some live replica is not ahead of another one and has not counted the vote that this one casts
next. -/
def Unheard (chronicle : Chronicle) : Prop :=
  ∃ proposer ∈ chronicle.cluster.engines, ∃ hearer ∈ chronicle.cluster.engines,
    chronicle.cluster.isDown proposer.self = false ∧
      chronicle.cluster.isDown hearer.self = false ∧
        ¬ hearer.Counts proposer.self (proposer.view + 1)

instance (engine : Engine) (sender view : Int) : Decidable (engine.Counts sender view) :=
  inferInstanceAs (Decidable (_ ∨ _))

instance (chronicle : Chronicle) : Decidable chronicle.Unheard :=
  inferInstanceAs (Decidable (∃ proposer ∈ chronicle.cluster.engines,
    ∃ hearer ∈ chronicle.cluster.engines, _))

def Moved (before after : Chronicle) : Prop :=
  ∃ position < before.size, before.cluster.isDown position = false ∧
    after.cluster.engines[position]?.map Engine.standing ≠
      before.cluster.engines[position]?.map Engine.standing

instance (before after : Chronicle) : Decidable (Moved before after) :=
  inferInstanceAs (Decidable (∃ position < before.size, _))

def IsProposal (reference : Chronicle) (sender : Int) (message : Message) : Prop :=
  ∃ proposer ∈ reference.cluster.engines, reference.cluster.isDown proposer.self = false ∧
    sender = proposer.self ∧ message = .viewChange (proposer.view + 1)

/-- No live replica has moved since `reference`, and nothing but proposals is in flight. -/
structure Settled (reference chronicle : Chronicle) : Prop where
  sound : chronicle.Sound
  sameSize : chronicle.size = reference.size
  sameOutage : chronicle.cluster.crashed = reference.cluster.crashed
  still : ∀ position, reference.IsLive position →
    chronicle.cluster.engines[position]?.map Engine.standing =
      reference.cluster.engines[position]?.map Engine.standing
  proposals : ∀ packet ∈ chronicle.cluster.queue,
    reference.IsProposal packet.sender packet.message

section Settled

variable {reference chronicle : Chronicle} {position : Nat} {before after : Engine}
  {events : List Event}

theorem settled_refl (sound : chronicle.Sound) (idle : chronicle.cluster.queue = []) :
    chronicle.Settled chronicle where
  sound := sound
  sameSize := rfl
  sameOutage := rfl
  still _ _ := rfl
  proposals packet inFlight := by
    rw [idle] at inFlight
    exact absurd inFlight List.not_mem_nil

theorem Settled.record (settled : reference.Settled chronicle)
    (present : chronicle.cluster.engines[position]? = some before)
    (sound : (chronicle.record position after events).Sound)
    (same : after.standing = before.standing)
    (proposes : ∀ message, .broadcast message ∈ events →
      reference.IsProposal position message) :
    reference.Settled (chronicle.record position after events) where
  sound := sound
  sameSize := record_size.trans settled.sameSize
  sameOutage := by
    simp only [Chronicle.record, Cluster.record_eq]
    exact settled.sameOutage
  still other live := by
    rw [record_engine (List.getElem?_eq_some_iff.1 present).1, ← settled.still other live]
    split
    · next here =>
        subst here
        rw [present, Option.map_some, Option.map_some, same]
    · rfl
  proposals packet inFlight := by
    rcases mem_record_queue.1 inFlight with waiting | posted
    · exact settled.proposals packet waiting
    · obtain ⟨sent, broadcast, -⟩ := Cluster.mem_posted.1 posted
      rw [sent]
      exact proposes packet.message broadcast

/-- A live replica stands as it stood, and has counted all that is proposed. -/
theorem Settled.counts (settled : reference.Settled chronicle) (sound : reference.Sound)
    (heard : ¬ reference.Unheard) (live : reference.IsLive position)
    (present : chronicle.cluster.engines[position]? = some before) {proposer : Engine}
    (listed : proposer ∈ reference.cluster.engines)
    (proposerUp : reference.cluster.isDown proposer.self = false) :
    before.Counts proposer.self (proposer.view + 1) := by
  have found := List.getElem?_eq_getElem live.1
  have still := settled.still position live
  rw [present, found, Option.map_some, Option.map_some, Option.some.injEq] at still
  have place := (sound.seated position _ found).1
  by_contra uncounted
  apply heard
  refine ⟨proposer, listed, _, List.getElem_mem live.1, proposerUp, ?_, ?_⟩
  · rw [place]
    exact live.2
  · intro counted
    exact uncounted (counted.of_standing still.symm)

theorem Settled.isLive (settled : reference.Settled chronicle)
    (present : chronicle.cluster.engines[position]? = some before)
    (up : chronicle.cluster.isDown position = false) : reference.IsLive position := by
  constructor
  · rw [← settled.sameSize]
    exact (List.getElem?_eq_some_iff.1 present).1
  · rw [← up, Cluster.isDown, Cluster.isDown, settled.sameOutage]

theorem Settled.withQueue {queue : List Packet} (settled : reference.Settled chronicle)
    (fewer : ∀ packet ∈ queue, packet ∈ chronicle.cluster.queue) :
    reference.Settled (chronicle.withQueue queue) where
  sound := settled.sound.withQueue fewer
  sameSize := settled.sameSize
  sameOutage := settled.sameOutage
  still := settled.still
  proposals packet left := settled.proposals packet (fewer packet left)

theorem Settled.delivery {later : Chronicle} (settled : reference.Settled chronicle)
    (sound : reference.Sound) (heard : ¬ reference.Unheard) (delivery : Delivery chronicle later) :
    reference.Settled later := by
  have soundLater := settled.sound.delivery delivery
  cases delivery with
  | missed packet queue taken cut => exact settled.withQueue taken.fewer
  | heard packet queue position engine taken senderUp receiverUp addressed present =>
      obtain ⟨proposer, listed, proposerUp, sent, vote⟩ := settled.proposals packet taken.waiting
      have live := settled.isLive present (addressed ▸ receiverUp)
      have unmoved : (engine.receive neverHalts chronicle.cluster.now
            ⟨packet.sender, packet.message⟩).engine = engine ∧
          (engine.receive neverHalts chronicle.cluster.now
            ⟨packet.sender, packet.message⟩).events = [] := by
        rw [vote, sent]
        exact Engine.receive_of_counts (settled.sound.kept position engine present)
          (settled.counts sound heard live present listed proposerUp)
      refine (settled.withQueue taken.fewer).record present soundLater
        (congrArg Engine.standing unmoved.1) ?_
      intro message broadcast
      rw [unmoved.2] at broadcast
      exact absurd broadcast List.not_mem_nil

theorem Settled.timeOut (settled : reference.Settled chronicle) (sound : reference.Sound)
    (heard : ¬ reference.Unheard) (live : reference.IsLive position) {original : Engine}
    (found : reference.cluster.engines[position]? = some original)
    (notLast : original.view < maxView) : reference.Settled (chronicle.timeOut position) := by
  have soundLater := settled.sound.timeOut position
  have within : position < chronicle.size := settled.sameSize ▸ live.1
  have present := List.getElem?_eq_getElem within
  have listed := List.mem_of_getElem? found
  have place := (sound.seated position original found).1
  have up : reference.cluster.isDown original.self = false := place ▸ live.2
  have still := settled.still position live
  rw [present, found, Option.map_some, Option.map_some, Option.some.injEq] at still
  have sameView := congrArg Prod.fst still
  simp only [Engine.standing] at sameView
  obtain ⟨sameSelf, sameRoster⟩ := settled.sound.seated position _ present
  have counted := settled.counts sound heard live present listed up
  rw [place, ← sameView, ← sameSelf] at counted
  obtain ⟨same, events⟩ := @Engine.progressTimeout_of_counts chronicle.evidence _ neverHalts
    chronicle.cluster.now (sameRoster ▸ evidence_electoral chronicle)
    (settled.sound.kept position _ present) Cluster.neverHalts_calm (by omega) counted
  rw [timeOut_eq present] at soundLater ⊢
  refine settled.record present soundLater same ?_
  intro message broadcast
  rw [events, List.mem_singleton] at broadcast
  cases broadcast
  exact ⟨original, listed, up, place.symm, by rw [sameView]⟩

theorem Settled.timeOutAll (order : List Nat) (settled : reference.Settled chronicle)
    (sound : reference.Sound) (heard : ¬ reference.Unheard)
    (live : ∀ position ∈ order, reference.IsLive position)
    (notLast : ∀ position engine, reference.IsLive position →
      reference.cluster.engines[position]? = some engine → engine.view < maxView) :
    reference.Settled (chronicle.timeOutAll order) := by
  induction order generalizing chronicle with
  | nil => exact settled
  | cons first rest ih =>
      have firstLive := live first List.mem_cons_self
      obtain ⟨engine, found⟩ := firstLive.engine
      rw [timeOutAll_cons]
      exact ih (settled.timeOut sound heard firstLive found (notLast first engine firstLive found))
        fun position later => live position (List.mem_cons_of_mem first later)

theorem Settled.not_moved (settled : reference.Settled chronicle) :
    ¬ Moved reference chronicle := by
  rintro ⟨position, within, up, changed⟩
  exact changed (settled.still position ⟨within, up⟩)

end Settled

/-! ### Rounds -/

def round (chronicle : Chronicle) (order : List Nat) (choices : List Int) : Chronicle :=
  (chronicle.timeOutAll order).deliverAll choices

theorem Settled.round {reference chronicle : Chronicle} (settled : reference.Settled chronicle)
    (sound : reference.Sound) (heard : ¬ reference.Unheard) {order : List Nat}
    (live : ∀ position ∈ order, reference.IsLive position)
    (notLast : ∀ position engine, reference.IsLive position →
      reference.cluster.engines[position]? = some engine → engine.view < maxView)
    (choices : List Int) : reference.Settled (chronicle.round order choices) :=
  deliverAll_induction (fun _ _ delivery kept => kept.delivery sound heard delivery) choices _
    (settled.timeOutAll order sound heard live notLast)

/-- Where a round changes nothing, no number of rounds does. -/
theorem standstill_lasts {chronicle : Chronicle} (sound : chronicle.Sound)
    (idle : chronicle.cluster.queue = []) (heard : ¬ chronicle.Unheard)
    (notLast : ∀ position engine, chronicle.IsLive position →
      chronicle.cluster.engines[position]? = some engine → engine.view < maxView)
    (rounds : List (List Nat × List Int))
    (live : ∀ turn ∈ rounds, ∀ position ∈ turn.1, chronicle.IsLive position) :
    ¬ Moved chronicle (rounds.foldl (fun state turn => state.round turn.1 turn.2) chronicle) := by
  have settled : ∀ state, chronicle.Settled state →
      chronicle.Settled (rounds.foldl (fun state turn => state.round turn.1 turn.2) state) := by
    induction rounds with
    | nil => exact fun _ settled => settled
    | cons turn rest ih =>
        intro state settled
        rw [List.foldl_cons]
        apply ih
        · exact fun later listed => live later (List.mem_cons_of_mem turn listed)
        · exact settled.round sound heard (live turn List.mem_cons_self) notLast turn.2
  exact (settled chronicle (settled_refl sound idle)).not_moved

theorem Conveys.timeOutAll (order : List Nat) {chronicle : Chronicle} {view : Int}
    {sender receiver : Nat} (conveyed : chronicle.Conveys view sender receiver) :
    (chronicle.timeOutAll order).Conveys view sender receiver := by
  induction order generalizing chronicle with
  | nil => exact conveyed
  | cons first rest ih => exact ih (conveyed.timeOut first)

theorem conveys_timeOutAll (order : List Nat) {chronicle : Chronicle} (distinct : order.Nodup)
    {sender receiver : Nat} (listed : sender ∈ order) {engine : Engine}
    (present : chronicle.cluster.engines[sender]? = some engine)
    (next : engine.view ≠ maxView) (within : receiver < chronicle.size) :
    (chronicle.timeOutAll order).Conveys (engine.view + 1) sender receiver := by
  induction order generalizing chronicle with
  | nil => exact absurd listed List.not_mem_nil
  | cons first rest ih =>
      rw [timeOutAll_cons]
      rcases List.mem_cons.1 listed with rfl | later
      · exact (conveys_timeOut present next within).timeOutAll rest
      · apply ih distinct.tail later ((timeOut_engine_of_nodup distinct later).trans present)
        rw [timeOut_size]
        exact within

theorem isLive_timeOutAll (order : List Nat) {chronicle : Chronicle} {position : Nat} :
    (chronicle.timeOutAll order).IsLive position ↔ chronicle.IsLive position := by
  induction order generalizing chronicle with
  | nil => exact Iff.rfl
  | cons first rest ih => rw [timeOutAll_cons, ih, isLive_timeOut]

theorem Sound.conveys_round {chronicle : Chronicle} (sound : chronicle.Sound)
    {order : List Nat} (distinct : order.Nodup) {sender receiver : Nat}
    (listed : sender ∈ order) (senderLive : chronicle.IsLive sender)
    (receiverLive : chronicle.IsLive receiver) {engine : Engine}
    (present : chronicle.cluster.engines[sender]? = some engine)
    (next : engine.view ≠ maxView) (choices : List Int) :
    (chronicle.round order choices).Conveys (engine.view + 1) sender receiver := by
  have all := @deliverAll_induction
    (fun state => state.Sound ∧ state.IsLive sender ∧ state.IsLive receiver ∧
      state.Conveys (engine.view + 1) sender receiver)
    (fun before after delivery ⟨stateSound, senderUp, receiverUp, conveyed⟩ =>
      ⟨stateSound.delivery delivery, delivery.isLive_iff.2 senderUp,
        delivery.isLive_iff.2 receiverUp,
        conveyed.delivery delivery stateSound senderUp receiverUp⟩)
    choices (chronicle.timeOutAll order)
    ⟨sound.timeOutAll order, (isLive_timeOutAll order).2 senderLive,
      (isLive_timeOutAll order).2 receiverLive,
      conveys_timeOutAll order distinct listed present next receiverLive.1⟩
  exact all.2.2.2

/-- In any reachable state with nothing in flight and no live replica at the last view, let every
live replica take its progress timeout once and messages be delivered in any order. Deliveries come
to an end, and then a live replica has moved exactly if some live replica had a vote of another one
yet to count. -/
theorem round_moves_iff (timers : List TimerPair) (now : Int) (moves : List Move)
    (order : List Nat)
    (idle : ((opening timers now).after moves).cluster.queue = [])
    (notLast : ∀ position engine, ((opening timers now).after moves).IsLive position →
      ((opening timers now).after moves).cluster.engines[position]? = some engine →
        engine.view < maxView)
    (distinct : order.Nodup)
    (everyone : ∀ position,
      position ∈ order ↔ ((opening timers now).after moves).IsLive position) :
    ∃ bound : Nat, ∀ choices : List Int, bound ≤ choices.length →
      let final := ((opening timers now).after moves).round order choices
      final.cluster.queue = [] ∧
        (Moved ((opening timers now).after moves) final ↔
          ((opening timers now).after moves).Unheard) := by
  have sound : ((opening timers now).after moves).Sound := sound_after timers now moves
  generalize (opening timers now).after moves = chronicle at *
  refine ⟨(chronicle.timeOutAll order).cluster.burden
    (chronicle.timeOutAll order).cluster.viewsInFlight, ?_⟩
  intro choices enough final
  have emptied : final.cluster.queue = [] :=
    queue_deliverAll choices _ (Cluster.isAbout_viewsInFlight _) enough
  refine ⟨emptied, ?_, ?_⟩
  · intro moved
    by_contra heard
    have settled : chronicle.Settled final := (settled_refl sound idle).round sound heard
      (fun position listed => (everyone position).1 listed) notLast choices
    exact settled.not_moved moved
  · rintro ⟨proposer, proposerListed, hearer, hearerListed, proposerUp, hearerUp, uncounted⟩
    obtain ⟨sender, present⟩ := List.mem_iff_getElem?.1 proposerListed
    obtain ⟨receiver, found⟩ := List.mem_iff_getElem?.1 hearerListed
    have senderPlace := (sound.seated sender proposer present).1
    have receiverPlace := (sound.seated receiver hearer found).1
    have senderLive : chronicle.IsLive sender :=
      ⟨(List.getElem?_eq_some_iff.1 present).1, senderPlace ▸ proposerUp⟩
    have receiverLive : chronicle.IsLive receiver :=
      ⟨(List.getElem?_eq_some_iff.1 found).1, receiverPlace ▸ hearerUp⟩
    have next := notLast sender proposer senderLive present
    have conveyed : final.Conveys (proposer.view + 1) sender receiver :=
      sound.conveys_round distinct ((everyone sender).2 senderLive) senderLive receiverLive
        present (Int.ne_of_lt next) choices
    refine ⟨receiver, receiverLive.1, receiverLive.2, ?_⟩
    intro same
    -- what was yet to count is counted by now, so standing still contradicts it
    rw [found, Option.map_some] at same
    obtain ⟨engine, presentAfter, standing⟩ := Option.map_eq_some_iff.1 same
    rw [senderPlace] at uncounted
    exact uncounted ((conveyed.arrived emptied presentAfter).of_standing standing)

/-- A run that ends in a standstill. Replica 0 is alone with view 1, the two live ones below it have
counted each other's vote for view 1 and one vote of replica 0 for view 2, and all other votes are
lost. -/
def standstill : List Move :=
  [.tick 100, .deliver 4, .deliver 11, .deliver 8, .deliver 5] ++ List.replicate 12 (.lose 0) ++
    [.crash 3, .tick 100, .deliver 1, .deliver 1] ++ List.replicate 18 (.lose 0)

/-- Three of four replicas are live, which is a quorum, and a round without any loss leaves all of
them where they are, at different views. -/
theorem majority_can_stand_still :
    let chronicle := (opening (List.replicate 4 ⟨100, 30, by decide, by decide, {}, {}⟩) 0).after
      standstill
    let final := chronicle.round [0, 1, 2] (List.replicate 12 0)
    chronicle.cluster.queue = [] ∧ (∀ position ∈ [0, 1, 2], chronicle.IsLive position) ∧
      chronicle.cluster.engines.map (·.view) = [1, 0, 0, 0] ∧
        final.cluster.queue = [] ∧ ¬ Moved chronicle final := by
  decide +kernel

theorem round_moves_iff_at_standstill :
    let chronicle := (opening (List.replicate 4 ⟨100, 30, by decide, by decide, {}, {}⟩) 0).after
      standstill
    ∃ bound : Nat, ∀ choices : List Int, bound ≤ choices.length →
      (chronicle.round [0, 1, 2] choices).cluster.queue = [] ∧
        ¬ Moved chronicle (chronicle.round [0, 1, 2] choices) := by
  intro chronicle
  have heard : ¬ chronicle.Unheard := by decide +kernel
  have early : ∀ engine ∈ chronicle.cluster.engines, engine.view < maxView := by decide +kernel
  have size : chronicle.size = 4 := size_after _ 0 standstill
  have live : ∀ position < 4, position ∈ [0, 1, 2] ↔ chronicle.IsLive position := by
    decide +kernel
  have everyone : ∀ position, position ∈ [0, 1, 2] ↔ chronicle.IsLive position := by
    intro position
    by_cases within : position < 4
    · exact live position within
    · constructor
      · intro listed
        simp only [List.mem_cons, List.not_mem_nil, or_false] at listed
        omega
      · intro up
        exact absurd (size ▸ up.1) within
  obtain ⟨bound, settled⟩ := round_moves_iff _ 0 standstill [0, 1, 2] (by decide +kernel)
    (fun position engine _ present => early engine (List.mem_of_getElem? present)) (by decide)
    everyone
  refine ⟨bound, fun choices enough => ?_⟩
  obtain ⟨emptied, exactly⟩ := settled choices enough
  exact ⟨emptied, fun moved => heard (exactly.1 moved)⟩

end Chronicle

end ViewSync
