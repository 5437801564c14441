import ViewSync.Proofs.Quiescence

/-!
There is no storm of messages.

Messages are taken out of the queue one at a time, in any order, and each is consumed by its
receiver or lost: on its way, because its ends are cut off from each other, or because one of them
is crashed. No timer fires meanwhile. Nothing is known of the replicas or of the messages, some of
which may have been put in flight by outsiders. All the same every replica makes at most two
broadcasts for each view that the messages in flight at the start are about, and when these have
been delivered the queue is empty. The same holds of a queue that is drained from one of its ends.
-/

namespace ViewSync

theorem Engine.headroom_le (engine : Engine) (views : Finset Int) :
    engine.headroom views ≤ 2 * views.card := by
  have attempts : viewsAfter views engine.attempted ≤ views.card := Finset.card_filter_le _ _
  have installs : viewsAfter views engine.view ≤ views.card := Finset.card_filter_le _ _
  unfold headroom
  omega

def Report.broadcastCount (report : Report) : Nat :=
  (broadcasts (report.events.map Prod.snd)).length

theorem Report.broadcastCount_andThen (first second : Report) :
    (first.andThen second).broadcastCount = first.broadcastCount + second.broadcastCount := by
  unfold broadcastCount andThen
  rw [List.map_append, broadcasts_append, List.length_append]

namespace Cluster

def headroom (cluster : Cluster) (views : Finset Int) : Nat :=
  (cluster.engines.map (·.headroom views)).sum

theorem headroom_le (cluster : Cluster) (views : Finset Int) :
    cluster.headroom views ≤ cluster.engines.length * (2 * views.card) := by
  unfold headroom
  induction cluster.engines with
  | nil => simp
  | cons first rest ih =>
      have ofFirst := first.headroom_le views
      rw [List.map_cons, List.sum_cons, List.length_cons, Nat.succ_mul]
      omega

theorem burden_eq (cluster : Cluster) (views : Finset Int) :
    cluster.burden views =
      cluster.queue.length + cluster.engines.length * cluster.headroom views :=
  rfl

theorem burden_le (cluster : Cluster) (views : Finset Int) :
    cluster.burden views ≤ cluster.queue.length +
      cluster.engines.length * (cluster.engines.length * (2 * views.card)) := by
  rw [burden_eq]
  exact Nat.add_le_add_left (Nat.mul_le_mul_left _ (cluster.headroom_le views)) _

/-- What becomes of a message that is taken out: there are as many replicas as before, they pay in
headroom for what they broadcast, and no more than that is put in flight. -/
structure Pays (before : Cluster) (result : Cluster × Report) (views : Finset Int) : Prop where
  size : result.1.engines.length = before.engines.length
  paid : result.2.broadcastCount + result.1.headroom views ≤ before.headroom views
  posted : result.1.queue.length ≤
    before.queue.length + before.engines.length * result.2.broadcastCount
  about : before.IsAbout views → result.1.IsAbout views

theorem Pays.burden_le {before : Cluster} {result : Cluster × Report} {views : Finset Int}
    (pays : before.Pays result views) : result.1.burden views ≤ before.burden views := by
  have paid := Nat.mul_le_mul_left before.engines.length pays.paid
  have posted := pays.posted
  rw [Nat.mul_add] at paid
  rw [burden_eq, burden_eq, pays.size]
  omega

theorem pays_nothing (cluster : Cluster) (views : Finset Int) :
    cluster.Pays (cluster, {}) views where
  size := rfl
  paid := Nat.le_of_eq (Nat.zero_add _)
  posted := Nat.le_add_right _ _
  about := id

theorem pays_handOver (cluster : Cluster) (packet : Packet) {views : Finset Int}
    (present : packet.message.view ∈ views) : cluster.Pays (cluster.handOver packet) views where
  size := (length_handOver cluster packet).1
  paid := headroom_handOver cluster packet present
  posted := Nat.le_of_eq (length_handOver cluster packet).2
  about about := isAbout_handOver about present

/-! ### Any order -/

structure Taking where
  index : Int
  lost : Bool := false
deriving DecidableEq, Repr

def isCut (cluster : Cluster) (blocked : List (Int × Int)) (index : Int) : Bool :=
  cluster.queue[cluster.queuePosition index]?.any fun packet =>
    blocked.contains (packet.sender, packet.receiver)

/-- Takes one message out of the queue. It is delivered unless it is lost or cut off. -/
def takeOut (cluster : Cluster) (blocked : List (Int × Int)) (taking : Taking) :
    Cluster × Report :=
  if taking.lost || cluster.isCut blocked taking.index then (cluster.lose taking.index, {})
  else cluster.deliver taking.index

def takeOutAll (blocked : List (Int × Int)) : List Taking → Cluster → Cluster × Report
  | [], cluster => (cluster, {})
  | taking :: rest, cluster =>
      let (after, seen) := cluster.takeOut blocked taking
      let (last, later) := takeOutAll blocked rest after
      (last, seen.andThen later)

theorem takeOutAll_cons (blocked : List (Int × Int)) (taking : Taking) (rest : List Taking)
    (cluster : Cluster) :
    takeOutAll blocked (taking :: rest) cluster =
      ((takeOutAll blocked rest (cluster.takeOut blocked taking).1).1,
        (cluster.takeOut blocked taking).2.andThen
          (takeOutAll blocked rest (cluster.takeOut blocked taking).1).2) :=
  rfl

theorem takeOut_of_empty {cluster : Cluster} (idle : cluster.queue = [])
    (blocked : List (Int × Int)) (taking : Taking) :
    cluster.takeOut blocked taking = (cluster, {}) := by
  have lost : cluster.lose taking.index = cluster := by
    obtain ⟨engines, crashed, now, queue, allowance⟩ := cluster
    subst idle
    rfl
  unfold takeOut
  split
  · rw [lost]
  · exact deliver_of_empty idle taking.index

theorem takeOutAll_of_empty {cluster : Cluster} (idle : cluster.queue = [])
    (blocked : List (Int × Int)) (takings : List Taking) :
    takeOutAll blocked takings cluster = (cluster, {}) := by
  induction takings with
  | nil => rfl
  | cons taking rest ih =>
      rw [takeOutAll_cons, takeOut_of_empty idle, ih]
      rfl

/-- One message is taken out of a queue that has any, and what becomes of it is paid for. -/
theorem takeOut_pays {cluster : Cluster} {views : Finset Int} (about : cluster.IsAbout views)
    (busy : cluster.queue ≠ []) (blocked : List (Int × Int)) (taking : Taking) :
    ∃ position, position < cluster.queue.length ∧
      ({ cluster with queue := cluster.queue.eraseIdx position } : Cluster).Pays
        (cluster.takeOut blocked taking) views := by
  unfold takeOut
  split
  · exact ⟨_, queuePosition_lt busy taking.index, pays_nothing _ views⟩
  · obtain ⟨position, packet, waiting, result⟩ := deliver_cases busy taking.index
    refine ⟨position, (List.getElem?_eq_some_iff.1 waiting).1, ?_⟩
    rcases result with ⟨-, lost⟩ | ⟨-, -, handed⟩
    · rw [lost]
      exact pays_nothing _ views
    · rw [handed]
      exact pays_handOver _ packet (about packet (List.mem_of_getElem? waiting))

/-- However messages are taken out, all broadcasts are paid for, and no message is left after as
many takings as the burden. -/
theorem takeOutAll_pays (blocked : List (Int × Int)) (takings : List Taking) {cluster : Cluster}
    {views : Finset Int} (about : cluster.IsAbout views) :
    (takeOutAll blocked takings cluster).2.broadcastCount +
        (takeOutAll blocked takings cluster).1.headroom views ≤ cluster.headroom views ∧
      (cluster.burden views ≤ takings.length →
        (takeOutAll blocked takings cluster).1.queue = []) := by
  induction takings generalizing cluster with
  | nil =>
      refine ⟨Nat.le_of_eq (Nat.zero_add _), ?_⟩
      intro enough
      rw [List.length_nil, burden] at enough
      exact List.eq_nil_of_length_eq_zero (show cluster.queue.length = 0 by omega)
  | cons taking rest ih =>
      by_cases idle : cluster.queue = []
      · rw [takeOutAll_of_empty idle]
        exact ⟨Nat.le_of_eq (Nat.zero_add _), fun _ => idle⟩
      · obtain ⟨position, within, pays⟩ := takeOut_pays about idle blocked taking
        have stillAbout := pays.about fun packet left =>
          about packet (List.mem_of_mem_eraseIdx left)
        have lighter : (cluster.takeOut blocked taking).1.burden views < cluster.burden views := by
          refine Nat.lt_of_le_of_lt pays.burden_le ?_
          simp only [burden, List.length_eraseIdx_of_lt within]
          omega
        have paid : (cluster.takeOut blocked taking).2.broadcastCount +
            (cluster.takeOut blocked taking).1.headroom views ≤ cluster.headroom views := pays.paid
        obtain ⟨restPaid, emptied⟩ := ih stillAbout
        simp only [takeOutAll_cons, Report.broadcastCount_andThen]
        constructor
        · omega
        · intro enough
          rw [List.length_cons] at enough
          exact emptied (by omega)

/-! ### From either end -/

theorem Draining.mem_lineUp {draining : Draining} {waiting posted : List Packet}
    {packet : Packet} :
    packet ∈ draining.lineUp waiting posted ↔ packet ∈ waiting ∨ packet ∈ posted := by
  unfold lineUp
  split
  · next none => simp [List.isEmpty_iff.1 none]
  · split
    · rw [List.mem_append, List.mem_reverse, or_comm]
    · exact List.mem_append

theorem Draining.length_lineUp (draining : Draining) (waiting posted : List Packet) :
    (draining.lineUp waiting posted).length = waiting.length + posted.length := by
  unfold lineUp
  split
  · next none => simp [List.isEmpty_iff.1 none]
  · split
    · rw [List.length_append, List.length_reverse, Nat.add_comm]
    · exact List.length_append

theorem Draining.mem_arrange {draining : Draining} {queue : List Packet} {packet : Packet} :
    packet ∈ draining.arrange queue ↔ packet ∈ queue := by
  unfold arrange
  split
  · exact List.mem_reverse
  · exact Iff.rfl

theorem Draining.length_arrange (draining : Draining) (queue : List Packet) :
    (draining.arrange queue).length = queue.length := by
  unfold arrange
  split
  · exact List.length_reverse
  · rfl

def taking (cluster : Cluster) : Cluster :=
  { cluster with queue := [], allowance := cluster.allowance - 1 }

def takeNext (draining : Draining) (packet : Packet) (cluster : Cluster) : Cluster × Report :=
  if draining.blocked.contains (packet.sender, packet.receiver) then (cluster.taking, {})
  else cluster.taking.consume packet

theorem drainUpTo_cons (draining : Draining) (limit : Nat) (packet : Packet)
    (waiting : List Packet) (cluster : Cluster) :
    drainUpTo draining (limit + 1) (packet :: waiting) cluster =
      ((drainUpTo draining limit
          (draining.lineUp waiting (takeNext draining packet cluster).1.queue)
          (takeNext draining packet cluster).1).1,
        (takeNext draining packet cluster).2.andThen
          (drainUpTo draining limit
            (draining.lineUp waiting (takeNext draining packet cluster).1.queue)
            (takeNext draining packet cluster).1).2) :=
  rfl

theorem takeNext_pays (draining : Draining) (packet : Packet) (cluster : Cluster)
    {views : Finset Int} (present : packet.message.view ∈ views) :
    cluster.taking.Pays (takeNext draining packet cluster) views := by
  unfold takeNext
  split
  · exact pays_nothing _ views
  · unfold consume
    split
    · exact pays_nothing _ views
    · exact pays_handOver _ packet present

theorem drainUpTo_pays (draining : Draining) (limit : Nat) {waiting : List Packet}
    {cluster : Cluster} {views : Finset Int}
    (about : ∀ packet ∈ waiting, packet.message.view ∈ views) :
    (drainUpTo draining limit waiting cluster).2.broadcastCount +
        (drainUpTo draining limit waiting cluster).1.headroom views ≤ cluster.headroom views ∧
      (waiting.length + cluster.engines.length * cluster.headroom views ≤ limit →
        (drainUpTo draining limit waiting cluster).1.queue = []) := by
  induction limit generalizing waiting cluster with
  | zero =>
      refine ⟨Nat.le_of_eq (Nat.zero_add _), ?_⟩
      intro enough
      apply List.eq_nil_of_length_eq_zero
      change (draining.arrange waiting).length = 0
      rw [draining.length_arrange]
      omega
  | succ limit ih =>
      cases waiting with
      | nil => exact ⟨Nat.le_of_eq (Nat.zero_add _), fun _ => rfl⟩
      | cons packet rest =>
          have pays := takeNext_pays draining packet cluster
            (about packet List.mem_cons_self)
          have posted : (takeNext draining packet cluster).1.burden views ≤
              0 + cluster.engines.length * cluster.headroom views := pays.burden_le
          have paid : (takeNext draining packet cluster).2.broadcastCount +
              (takeNext draining packet cluster).1.headroom views ≤ cluster.headroom views :=
            pays.paid
          have nextAbout : ∀ other ∈ draining.lineUp rest
              (takeNext draining packet cluster).1.queue, other.message.view ∈ views := by
            intro other next
            rcases Draining.mem_lineUp.1 next with waiting | answer
            · exact about other (List.mem_cons_of_mem _ waiting)
            · exact pays.about (fun _ none => absurd none List.not_mem_nil) other answer
          obtain ⟨restPaid, emptied⟩ := @ih _ (takeNext draining packet cluster).1 nextAbout
          rw [burden_eq] at posted
          simp only [drainUpTo_cons, Report.broadcastCount_andThen]
          constructor
          · omega
          · intro enough
            apply emptied
            rw [List.length_cons] at enough
            rw [draining.length_lineUp]
            omega

/-! ### The end -/

/-- Taking messages out of the queue comes to an end, whatever the order, whoever is crashed or cut
off, whatever is lost, and whatever the replicas and the messages are. Each replica makes at most
two broadcasts for each view that a message is about at the start, and once the messages that were
waiting and those broadcasts have been taken out, nothing is left. -/
theorem draining_ends (cluster : Cluster) :
    let replicas := cluster.engines.length
    let answers := replicas * (2 * cluster.viewsInFlight.card)
    let limit := cluster.queue.length + replicas * answers
    (∀ (blocked : List (Int × Int)) (takings : List Taking),
      (takeOutAll blocked takings cluster).2.broadcastCount ≤ answers ∧
        (limit ≤ takings.length → (takeOutAll blocked takings cluster).1.queue = [])) ∧
    ∀ draining : Draining,
      (cluster.drain draining).2.broadcastCount ≤ answers ∧
        (limit ≤ cluster.allowance → (cluster.drain draining).1.queue = []) := by
  intro replicas answers limit
  have most := cluster.headroom_le cluster.viewsInFlight
  have bounded := cluster.burden_le cluster.viewsInFlight
  constructor
  · intro blocked takings
    obtain ⟨paid, emptied⟩ := takeOutAll_pays blocked takings cluster.isAbout_viewsInFlight
    exact ⟨Nat.le_trans (Nat.le_of_add_right_le paid) most,
      fun enough => emptied (Nat.le_trans bounded enough)⟩
  · intro draining
    have about : ∀ packet ∈ draining.arrange cluster.queue,
        packet.message.view ∈ cluster.viewsInFlight := fun packet waiting =>
      cluster.isAbout_viewsInFlight packet (Draining.mem_arrange.1 waiting)
    obtain ⟨paid, emptied⟩ := @drainUpTo_pays draining cluster.allowance _ cluster _ about
    refine ⟨Nat.le_trans (Nat.le_of_add_right_le paid) most, ?_⟩
    intro enough
    apply emptied
    rw [draining.length_arrange]
    exact Nat.le_trans bounded enough

/-- A vote, a stranger's vote and a proof, each for another view, are in flight among three
replicas. One of these is crashed. -/
def strangersCalling : Cluster where
  engines := seats (List.replicate 3 ⟨100, 30, by decide, by decide, {}, {}⟩) 0
  crashed := [2]
  queue := [⟨0, 1, .viewChange 10⟩, ⟨7, 0, .viewChange 9⟩,
    ⟨1, 0, .viewProof 6 [⟨0, 6⟩, ⟨2, 7⟩]⟩]

/-- Four broadcasts are made, though one replica cannot reach itself, and the queue is emptied. -/
theorem draining_ends_after_strangers_call :
    let drained := takeOutAll [(0, 0)] (List.replicate 57 { index := 0 }) strangersCalling
    let reversed := strangersCalling.drain { newestFirst := true }
    (drained.2.broadcastCount = 4 ∧ drained.2.broadcastCount ≤ 18 ∧ drained.1.queue = []) ∧
      reversed.2.broadcastCount ≤ 18 ∧ reversed.1.queue = [] := by
  have views : strangersCalling.viewsInFlight.card = 3 := by decide +kernel
  have allowed : 57 ≤ strangersCalling.allowance := by decide
  have ends := draining_ends strangersCalling
  simp only [views] at ends
  obtain ⟨bounded, emptied⟩ := ends.1 [(0, 0)] (List.replicate 57 { index := 0 })
  obtain ⟨reverseBounded, reverseEmptied⟩ := ends.2 { newestFirst := true }
  exact ⟨⟨by decide +kernel, bounded, emptied (Nat.le_of_eq (List.length_replicate).symm)⟩,
    reverseBounded, reverseEmptied allowed⟩

end Cluster

end ViewSync
