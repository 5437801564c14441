import Mathlib.Algebra.GroupWithZero.Nat
import Mathlib.Data.Finset.Card
import ViewSync.Proofs.Chronicle

/-!
Delivering all messages comes to an end.

A replica answers a message only by attempting or installing its view, and either can happen once
for each view that is ahead of the replica. No answer is about another view than the message was.
So a replica has only so much headroom over the views that messages in flight are about, and every
broadcast takes some of it away. This holds of replicas and messages of any kind.
-/

namespace ViewSync

def Message.view : Message → Int
  | .viewChange view => view
  | .viewProof view _ => view

def broadcasts (events : List Event) : List Message :=
  events.filterMap fun
    | .broadcast message => some message
    | _ => none

theorem broadcasts_append (first second : List Event) :
    broadcasts (first ++ second) = broadcasts first ++ broadcasts second :=
  List.filterMap_append

def viewsAfter (views : Finset Int) (view : Int) : Nat :=
  (views.filter (view < ·)).card

theorem viewsAfter_mono (views : Finset Int) {earlier later : Int} (order : earlier ≤ later) :
    viewsAfter views later ≤ viewsAfter views earlier := by
  apply Finset.card_le_card
  intro view kept
  rw [Finset.mem_filter] at kept ⊢
  exact ⟨kept.1, Int.lt_of_le_of_lt order kept.2⟩

theorem viewsAfter_lt {views : Finset Int} {earlier view : Int} (present : view ∈ views)
    (ahead : earlier < view) : viewsAfter views view < viewsAfter views earlier := by
  apply Finset.card_lt_card
  rw [Finset.ssubset_iff_of_subset]
  · refine ⟨view, Finset.mem_filter.2 ⟨present, ahead⟩, ?_⟩
    intro kept
    exact Int.lt_irrefl view (Finset.mem_filter.1 kept).2
  · intro other kept
    rw [Finset.mem_filter] at kept ⊢
    exact ⟨kept.1, Int.lt_trans ahead kept.2⟩

namespace Engine

/-- How often a replica may still attempt or install one of the views. -/
def headroom (engine : Engine) (views : Finset Int) : Nat :=
  viewsAfter views engine.attempted + viewsAfter views engine.view

theorem broadcasts_install (engine : Engine) (now view : Int) (certificate : Certificate) :
    broadcasts (engine.install now view certificate).2 =
      if leaderOf view engine.replicas = engine.self then
        [.viewProof view certificate.attestations]
      else [] := by
  rw [install_eq]
  split <;> rfl

theorem broadcasts_joining (engine : Engine) (view : Int) :
    broadcasts (engine.joining view) =
      if engine.attempted < view then [.viewChange view] else [] := by
  unfold joining
  split <;> rfl

theorem broadcasts_tally (engine : Engine) (now view : Int) (certificate : Certificate)
    (attempted : Int) :
    broadcasts (engine.tally now view certificate attempted).2 =
      if certificate.isValid engine.replicas = true ∧
          leaderOf view engine.replicas = engine.self then
        [.viewProof view certificate.attestations]
      else [] := by
  by_cases valid : certificate.isValid engine.replicas = true
  · rw [tally_of_valid valid]
    change broadcasts ((engine.hold view certificate attempted).install now view certificate).2 = _
    rw [broadcasts_install]
    simp only [valid, true_and]
    rfl
  · rw [tally_of_not_valid valid, if_neg fun both => valid both.1]
    rfl

theorem headroom_tally {engine : Engine} {now view : Int} {certificate : Certificate}
    {views : Finset Int} (present : view ∈ views) (newer : engine.view < view) :
    (broadcasts (engine.joining view ++
          (engine.tally now view certificate (max engine.attempted view)).2)).length +
        (engine.tally now view certificate (max engine.attempted view)).1.headroom views ≤
      engine.headroom views := by
  -- the attempted view pays for joining, and the installed view for announcing
  have joined : (broadcasts (engine.joining view)).length +
      viewsAfter views (max engine.attempted view) ≤ viewsAfter views engine.attempted := by
    rw [broadcasts_joining]
    split
    · next joins =>
        have fewer := viewsAfter_lt present joins
        rw [max_eq_right (Int.le_of_lt joins), List.length_singleton]
        omega
    · next stays =>
        rw [max_eq_left (Int.not_lt.1 stays), List.length_nil]
        omega
  have installed : (broadcasts
        (engine.tally now view certificate (max engine.attempted view)).2).length +
      viewsAfter views (engine.tally now view certificate (max engine.attempted view)).1.view ≤
        viewsAfter views engine.view := by
    rw [broadcasts_tally, tally_view]
    have fewer := viewsAfter_lt present newer
    by_cases valid : certificate.isValid engine.replicas = true
    · rw [if_pos valid]
      split
      · rw [List.length_singleton]
        omega
      · rw [List.length_nil]
        omega
    · rw [if_neg valid, if_neg fun both => valid both.1, List.length_nil]
      omega
  rw [broadcasts_append, List.length_append, headroom, headroom,
    tally_attempted (le_max_right _ _)]
  omega

section Receive

variable {engine : Engine} {halts : Int → Bool} {now : Int} {envelope : Envelope}

theorem headroom_receive (calm : ∀ view, halts view = false) {views : Finset Int}
    (present : envelope.message.view ∈ views) :
    (broadcasts (engine.receive halts now envelope).events).length +
        (engine.receive halts now envelope).engine.headroom views ≤ engine.headroom views := by
  obtain ⟨sender, message⟩ := envelope
  cases message with
  | viewChange view =>
      change (broadcasts (engine.receiveViewChange halts now sender view).events).length +
        (engine.receiveViewChange halts now sender view).engine.headroom views ≤ _
      rcases @receiveViewChange_cases engine halts now sender view calm with
        ⟨⟨after, events⟩, -⟩ | ⟨⟨after, events⟩, -, newer, -⟩
      · rw [after, events]
        simp [broadcasts]
      · rw [after, events]
        exact headroom_tally present newer
  | viewProof view attestations =>
      change (broadcasts (engine.receiveViewProof now sender view attestations).events).length +
        (engine.receiveViewProof now sender view attestations).engine.headroom views ≤ _
      rcases @receiveViewProof_cases engine now sender view attestations with
        ⟨⟨after, events⟩, -⟩ | ⟨⟨after, events⟩, -⟩ | ⟨⟨after, events⟩, -, -, later⟩
      · rw [after, events]
        simp [broadcasts]
      · rw [after, events]
        simp [broadcasts, headroom, rearm]
      · have fewer := viewsAfter_lt present later
        have noMore := viewsAfter_mono views (le_max_left engine.attempted view)
        simp only [Message.view] at fewer
        rw [after, events, headroom, headroom, install_view, install_attempted,
          broadcasts_install]
        split
        · rw [List.length_singleton]
          omega
        · rw [List.length_nil]
          omega

theorem view_of_broadcast_receive (calm : ∀ view, halts view = false) {message : Message}
    (answer : .broadcast message ∈ (engine.receive halts now envelope).events) :
    message.view = envelope.message.view := by
  obtain ⟨sender, received⟩ := envelope
  cases received with
  | viewChange view =>
      change .broadcast message ∈ (engine.receiveViewChange halts now sender view).events at answer
      rcases @receiveViewChange_cases engine halts now sender view calm with
        ⟨⟨-, events⟩, -⟩ | ⟨⟨-, events⟩, -⟩
      · rw [events] at answer
        exact absurd answer List.not_mem_nil
      · rw [events, List.mem_append, broadcast_mem_joining, broadcast_mem_tally] at answer
        rcases answer with ⟨-, rfl⟩ | ⟨-, -, rfl⟩
        · rfl
        · rfl
  | viewProof view attestations =>
      change .broadcast message ∈
        (engine.receiveViewProof now sender view attestations).events at answer
      rcases @receiveViewProof_cases engine now sender view attestations with
        ⟨⟨-, events⟩, -⟩ | ⟨⟨-, events⟩, -⟩ | ⟨⟨-, events⟩, -⟩
      · rw [events] at answer
        exact absurd answer List.not_mem_nil
      · rw [events] at answer
        exact absurd answer List.not_mem_nil
      · rw [events, broadcast_mem_install] at answer
        rw [answer.2]
        rfl

end Receive

end Engine

namespace Cluster

/-- The messages in flight, and those that answers to them may still put in flight. -/
def burden (cluster : Cluster) (views : Finset Int) : Nat :=
  cluster.queue.length +
    cluster.engines.length * (cluster.engines.map (·.headroom views)).sum

def IsAbout (cluster : Cluster) (views : Finset Int) : Prop :=
  ∀ packet ∈ cluster.queue, packet.message.view ∈ views

def viewsInFlight (cluster : Cluster) : Finset Int :=
  (cluster.queue.map (·.message.view)).toFinset

theorem isAbout_viewsInFlight (cluster : Cluster) : cluster.IsAbout cluster.viewsInFlight := by
  intro packet inFlight
  rw [viewsInFlight, List.mem_toFinset]
  exact List.mem_map_of_mem inFlight

theorem length_posted (cluster : Cluster) (sender : Nat) (events : List Event) :
    (cluster.posted sender events).length =
      cluster.engines.length * (broadcasts events).length := by
  induction events with
  | nil => rfl
  | cons event rest ih =>
      have split : cluster.posted sender (event :: rest) =
          cluster.posted sender [event] ++ cluster.posted sender rest := by
        simp [posted]
      have splitBroadcasts : broadcasts (event :: rest) = broadcasts [event] ++ broadcasts rest :=
        broadcasts_append [event] rest
      rw [split, splitBroadcasts, List.length_append, List.length_append, ih, Nat.mul_add]
      cases event <;> simp [posted, copies, broadcasts]

theorem sum_headroom_set (engines : List Engine) (views : Finset Int) {position : Nat}
    {before : Engine} (present : engines[position]? = some before) (after : Engine) :
    ((engines.set position after).map (·.headroom views)).sum + before.headroom views =
      (engines.map (·.headroom views)).sum + after.headroom views := by
  induction engines generalizing position with
  | nil => simp at present
  | cons first rest ih =>
      cases position with
      | zero =>
          rw [List.getElem?_cons_zero, Option.some.injEq] at present
          subst present
          simp only [List.set_cons_zero, List.map_cons, List.sum_cons]
          omega
      | succ position =>
          rw [List.getElem?_cons_succ] at present
          have restSum := ih present
          simp only [List.set_cons_succ, List.map_cons, List.sum_cons]
          omega

/-- Whoever consumes a message pays in headroom for every broadcast it makes. -/
theorem headroom_handOver (cluster : Cluster) (packet : Packet) {views : Finset Int}
    (present : packet.message.view ∈ views) :
    (broadcasts ((cluster.handOver packet).2.events.map Prod.snd)).length +
        ((cluster.handOver packet).1.engines.map (·.headroom views)).sum ≤
      (cluster.engines.map (·.headroom views)).sum := by
  unfold handOver
  split
  · simp [broadcasts]
  · next engine found =>
      have stored := (engine?_eq_some.1 found).2
      have paid := @Engine.headroom_receive engine neverHalts cluster.now
        ⟨packet.sender, packet.message⟩ Cluster.neverHalts_calm views present
      have total := sum_headroom_set cluster.engines views stored
        (engine.receive neverHalts cluster.now ⟨packet.sender, packet.message⟩).engine
      simp only [record_eq, List.map_map, Function.comp_def, List.map_id']
      omega

theorem length_handOver (cluster : Cluster) (packet : Packet) :
    (cluster.handOver packet).1.engines.length = cluster.engines.length ∧
      (cluster.handOver packet).1.queue.length = cluster.queue.length +
        cluster.engines.length *
          (broadcasts ((cluster.handOver packet).2.events.map Prod.snd)).length := by
  unfold handOver
  split
  · simp [broadcasts]
  · simp only [record_eq, List.length_set, List.length_append, length_posted, List.map_map,
      Function.comp_def, List.map_id', and_self]

theorem burden_handOver (cluster : Cluster) (packet : Packet) {views : Finset Int}
    (present : packet.message.view ∈ views) :
    (cluster.handOver packet).1.burden views ≤ cluster.burden views := by
  have paid := Nat.mul_le_mul_left cluster.engines.length
    (headroom_handOver cluster packet present)
  obtain ⟨sameSize, longer⟩ := length_handOver cluster packet
  rw [Nat.mul_add] at paid
  rw [burden, burden, sameSize, longer]
  omega

theorem isAbout_handOver {cluster : Cluster} {packet : Packet} {views : Finset Int}
    (about : cluster.IsAbout views) (present : packet.message.view ∈ views) :
    (cluster.handOver packet).1.IsAbout views := by
  unfold handOver
  split
  · exact about
  · next engine found =>
      intro other inFlight
      simp only [record_eq] at inFlight
      rcases List.mem_append.1 inFlight with waiting | posted
      · exact about other waiting
      · obtain ⟨-, broadcast, -⟩ := mem_posted.1 posted
        rw [Engine.view_of_broadcast_receive Cluster.neverHalts_calm broadcast]
        exact present

theorem queuePosition_lt {cluster : Cluster} (busy : cluster.queue ≠ []) (index : Int) :
    cluster.queuePosition index < cluster.queue.length := by
  have positive := List.length_pos_iff.2 busy
  have nonneg := Int.emod_nonneg index (show (cluster.queue.length : Int) ≠ 0 by omega)
  have below := Int.emod_lt_of_pos index (show 0 < (cluster.queue.length : Int) by omega)
  unfold queuePosition
  omega

/-- A delivery takes one message out of a queue that has any, and loses it or hands it over. -/
theorem deliver_cases {cluster : Cluster} (busy : cluster.queue ≠ []) (index : Int) :
    ∃ position packet, cluster.queue[position]? = some packet ∧
      (((cluster.isDown packet.sender = true ∨ cluster.isDown packet.receiver = true) ∧
          cluster.deliver index =
            ({ cluster with queue := cluster.queue.eraseIdx position }, {})) ∨
        (cluster.isDown packet.sender = false ∧ cluster.isDown packet.receiver = false ∧
          cluster.deliver index =
            { cluster with queue := cluster.queue.eraseIdx position }.handOver packet)) := by
  have within := queuePosition_lt busy index
  refine ⟨cluster.queuePosition index, cluster.queue[cluster.queuePosition index],
    List.getElem?_eq_getElem within, ?_⟩
  rw [deliver, List.getElem?_eq_getElem within]
  simp only [consume]
  by_cases lost : cluster.isDown cluster.queue[cluster.queuePosition index].sender = true ∨
      cluster.isDown cluster.queue[cluster.queuePosition index].receiver = true
  · left
    refine ⟨lost, if_pos ?_⟩
    rw [Bool.or_eq_true]
    exact lost
  · right
    obtain ⟨senderUp, receiverUp⟩ := not_or.1 lost
    rw [Bool.not_eq_true] at senderUp receiverUp
    refine ⟨senderUp, receiverUp, if_neg ?_⟩
    rw [Bool.or_eq_true]
    exact lost

theorem deliver_of_empty {cluster : Cluster} (idle : cluster.queue = []) (index : Int) :
    cluster.deliver index = (cluster, {}) := by
  simp [deliver, idle]

/-- Every delivery makes the burden lighter. -/
theorem burden_deliver {cluster : Cluster} {views : Finset Int} (about : cluster.IsAbout views)
    (busy : cluster.queue ≠ []) (index : Int) :
    (cluster.deliver index).1.burden views < cluster.burden views ∧
      (cluster.deliver index).1.IsAbout views := by
  obtain ⟨position, packet, waiting, result⟩ := deliver_cases busy index
  have within := (List.getElem?_eq_some_iff.1 waiting).1
  let taken : Cluster := { cluster with queue := cluster.queue.eraseIdx position }
  have lighter : taken.burden views < cluster.burden views := by
    simp only [taken, burden, List.length_eraseIdx_of_lt within]
    omega
  have stillAbout : taken.IsAbout views := fun other left =>
    about other (List.mem_of_mem_eraseIdx left)
  have present := about packet (List.mem_of_getElem? waiting)
  rcases result with ⟨-, lost⟩ | ⟨-, -, handed⟩
  · rw [lost]
    exact ⟨lighter, stillAbout⟩
  · rw [handed]
    exact ⟨Nat.lt_of_le_of_lt (burden_handOver taken packet present) lighter,
      isAbout_handOver stillAbout present⟩

end Cluster

namespace Chronicle

def deliverAll (chronicle : Chronicle) (choices : List Int) : Chronicle :=
  chronicle.after (choices.map .deliver)

theorem deliverAll_cons (chronicle : Chronicle) (choice : Int) (choices : List Int) :
    chronicle.deliverAll (choice :: choices) =
      (chronicle.extend (chronicle.cluster.deliver choice)).deliverAll choices :=
  rfl

theorem deliverAll_of_empty {chronicle : Chronicle} (idle : chronicle.cluster.queue = [])
    (choices : List Int) : chronicle.deliverAll choices = chronicle := by
  induction choices with
  | nil => rfl
  | cons choice rest ih =>
      rw [deliverAll_cons, Cluster.deliver_of_empty idle, extend_nothing]
      exact ih

/-- Whatever the order of delivery, no message is left after as many deliveries as the burden. -/
theorem queue_deliverAll (choices : List Int) (chronicle : Chronicle) {views : Finset Int}
    (about : chronicle.cluster.IsAbout views)
    (enough : chronicle.cluster.burden views ≤ choices.length) :
    (chronicle.deliverAll choices).cluster.queue = [] := by
  induction choices generalizing chronicle with
  | nil =>
      rw [List.length_nil, Cluster.burden] at enough
      exact List.eq_nil_of_length_eq_zero (show chronicle.cluster.queue.length = 0 by omega)
  | cons choice rest ih =>
      by_cases idle : chronicle.cluster.queue = []
      · rw [deliverAll_of_empty idle]
        exact idle
      · obtain ⟨lighter, stillAbout⟩ := Cluster.burden_deliver about idle choice
        rw [deliverAll_cons]
        rw [List.length_cons] at enough
        apply ih
        · exact stillAbout
        · change (chronicle.cluster.deliver choice).1.burden views ≤ rest.length
          omega

end Chronicle

end ViewSync
