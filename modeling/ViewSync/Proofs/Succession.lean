import ViewSync.Proofs.Delivery

/-!
Views come one after the other.

A replica proposes only the view after its own, and joins or installs only views for which others
have voted. So in a cluster that is left to itself nobody moves towards a view before all earlier
ones were installed, by anybody and at any time of the run. That replicas crash and forget what
they have installed makes no difference, because this is about what has happened and not about what
is remembered. Nothing is asked of the clocks: timers may run out in any order.
-/

namespace ViewSync

inductive Event.Reaches : Event → Int → Prop
  | voted (view : Int) : Reaches (.broadcast (.viewChange view)) view
  | installed (view leader : Int) : Reaches (.viewInstalled view leader) view

/-! ### What has been installed -/

def Installed (seen : List (Nat × Event)) (view : Int) : Prop :=
  ∃ position leader, (position, .viewInstalled view leader) ∈ seen

def Climbed (seen : List (Nat × Event)) (view : Int) : Prop :=
  ∀ below : Int, 1 ≤ below → below < view → Installed seen below

/-- Whenever somebody moved towards a view, all views before it had been installed. -/
def Gapless (seen : List (Nat × Event)) : Prop :=
  ∀ (index position : Nat) (event : Event) (view : Int),
    seen[index]? = some (position, event) → event.Reaches view → Climbed (seen.take index) view

def highestInstalled : List (Nat × Event) → Int
  | [] => 0
  | (_, .viewInstalled view _) :: rest => max view (highestInstalled rest)
  | _ :: rest => highestInstalled rest

section Installed

variable {seen later : List (Nat × Event)} {view : Int}

theorem Climbed.mono (climbed : Climbed seen view) (kept : ∀ entry ∈ seen, entry ∈ later) :
    Climbed later view := by
  intro below first before
  obtain ⟨position, leader, present⟩ := climbed below first before
  exact ⟨position, leader, kept _ present⟩

theorem climbed_of_le_one (low : view ≤ 1) : Climbed seen view := by
  intro below first before
  omega

theorem Climbed.succ (climbed : Climbed seen view) (installed : Installed seen view) :
    Climbed seen (view + 1) := by
  intro below first before
  by_cases same : below = view
  · rw [same]
    exact installed
  · exact climbed below first (by omega)

theorem Climbed.max {other : Int} (climbed : Climbed seen view) (also : Climbed seen other) :
    Climbed seen (max view other) := by
  rcases max_choice view other with left | right
  · rw [left]
    exact climbed
  · rw [right]
    exact also

theorem gapless_nil : Gapless [] := by
  intro index position event view present
  simp at present

/-- Towards whatever view anybody has moved, the views before it have been installed by now. -/
theorem Gapless.climbed {position : Nat} {event : Event} (gapless : Gapless seen)
    (present : (position, event) ∈ seen) (reached : event.Reaches view) : Climbed seen view := by
  obtain ⟨index, stored⟩ := List.mem_iff_getElem?.1 present
  exact (gapless index position event view stored reached).mono fun _ => List.mem_of_mem_take

theorem Gapless.append (gapless : Gapless seen)
    (climbed : ∀ entry ∈ later, ∀ reached, entry.2.Reaches reached → Climbed seen reached) :
    Gapless (seen ++ later) := by
  intro index position event view stored reached
  by_cases earlier : index < seen.length
  · rw [List.getElem?_append_left earlier] at stored
    rw [List.take_append_of_le_length (Nat.le_of_lt earlier)]
    exact gapless index position event view stored reached
  · rw [List.getElem?_append_right (Nat.not_lt.1 earlier)] at stored
    rw [List.take_append, List.take_of_length_le (Nat.not_lt.1 earlier)]
    exact (climbed _ (List.mem_of_getElem? stored) view reached).mono
      fun _ => List.mem_append_left _

theorem highestInstalled_nonneg (seen : List (Nat × Event)) : 0 ≤ highestInstalled seen := by
  fun_induction highestInstalled seen with
  | case1 => exact Int.le_refl 0
  | case2 position view leader rest ih => exact Int.le_trans ih (le_max_right _ _)
  | case3 entry rest other ih => exact ih

theorem le_highestInstalled (installed : Installed seen view) : view ≤ highestInstalled seen := by
  obtain ⟨position, leader, present⟩ := installed
  fun_induction highestInstalled seen with
  | case1 => exact absurd present List.not_mem_nil
  | case2 other installed leader rest ih =>
      rcases List.mem_cons.1 present with first | later
      · cases first
        exact le_max_left _ _
      · exact Int.le_trans (ih later) (le_max_right _ _)
  | case3 entry rest other ih =>
      rcases List.mem_cons.1 present with first | later
      · cases first
        exact absurd rfl (other position view leader)
      · exact ih later

theorem Climbed.le_highestInstalled (climbed : Climbed seen view) :
    view ≤ highestInstalled seen + 1 := by
  by_cases low : view ≤ 1
  · have nonneg := highestInstalled_nonneg seen
    omega
  · have before := ViewSync.le_highestInstalled (climbed (view - 1) (by omega) (by omega))
    omega

end Installed

/-! ### One step of a replica -/

namespace Engine

/-- By a step a replica moves towards no other view than `target`, and says so when it installs
it. -/
structure Towards (before after : Engine) (events : List Event) (target : Int) : Prop where
  reaches : ∀ event ∈ events, ∀ reached, event.Reaches reached → reached = target
  view : after.view = before.view ∨
    (after.view = target ∧ ∃ leader, .viewInstalled target leader ∈ events)
  attempted : after.attempted = before.attempted ∨
    after.attempted = max before.attempted target

variable {engine after : Engine} {halts : Int → Bool} {now view attempted : Int}
  {certificate : Certificate}

theorem towards_retimed (engine : Engine) (timers : TimerPair) (target : Int) :
    engine.Towards { engine with timers } [] target where
  reaches _ happened := absurd happened List.not_mem_nil
  view := .inl rfl
  attempted := .inl rfl

theorem towards_install (engine : Engine) (now view : Int) (certificate : Certificate) :
    engine.Towards (engine.install now view certificate).1
      (engine.install now view certificate).2 view where
  reaches event happened reached reaches := by
    rw [install_eq] at happened
    split at happened
    · rcases List.mem_cons.1 happened with rfl | last
      · cases reaches
      · rw [List.mem_singleton.1 last] at reaches
        cases reaches
        rfl
    · rw [List.mem_singleton.1 happened] at reaches
      cases reaches
      rfl
  view := by
    refine .inr ⟨install_view _ _ _ _, leaderOf view engine.replicas, ?_⟩
    rw [install_eq]
    split <;> simp
  attempted := .inr (install_attempted _ _ _ _)

theorem towards_tally (engine : Engine) (now view : Int) (certificate : Certificate) :
    engine.Towards (engine.tally now view certificate (max engine.attempted view)).1
      (engine.tally now view certificate (max engine.attempted view)).2 view := by
  have raised : (engine.tally now view certificate (max engine.attempted view)).1.attempted =
      max engine.attempted view := tally_attempted (le_max_right _ _)
  by_cases valid : certificate.isValid engine.replicas = true
  · have installs := towards_install (engine.hold view certificate (max engine.attempted view))
      now view certificate
    refine ⟨?_, ?_, .inr raised⟩
    · rw [tally_of_valid valid]
      intro event happened reached reaches
      rcases List.mem_cons.1 happened with rfl | later
      · cases reaches
      · exact installs.reaches event later reached reaches
    · rw [tally_of_valid valid]
      rcases installs.view with same | ⟨moved, leader, told⟩
      · exact .inl same
      · exact .inr ⟨moved, leader, List.mem_cons_of_mem _ told⟩
  · refine ⟨?_, .inl ?_, .inr raised⟩
    · rw [tally_of_not_valid valid]
      exact fun event happened => absurd happened List.not_mem_nil
    · rw [tally_of_not_valid valid]
      rfl

theorem Towards.vote_first {events votes : List Event} (towards : engine.Towards after events view)
    (only : ∀ event ∈ votes, event = .broadcast (.viewChange view)) :
    engine.Towards after (votes ++ events) view where
  reaches event happened reached reaches := by
    rcases List.mem_append.1 happened with vote | later
    · rw [only event vote] at reaches
      cases reaches
      rfl
    · exact towards.reaches event later reached reaches
  view := towards.view.imp id fun moved =>
    ⟨moved.1, moved.2.imp fun _ told => List.mem_append_right _ told⟩
  attempted := towards.attempted

theorem towards_receive (calm : ∀ view, halts view = false) (envelope : Envelope) :
    engine.Towards (engine.receive halts now envelope).engine
      (engine.receive halts now envelope).events envelope.message.view := by
  obtain ⟨sender, message⟩ := envelope
  cases message with
  | viewChange view =>
      change engine.Towards (engine.receiveViewChange halts now sender view).engine
        (engine.receiveViewChange halts now sender view).events view
      rcases @receiveViewChange_cases engine halts now sender view calm with
        ⟨⟨after, events⟩, -⟩ | ⟨⟨after, events⟩, -⟩
      · rw [after, events]
        exact engine.towards_retimed engine.timers view
      · rw [after, events]
        apply (towards_tally engine now view (engine.pool sender view)).vote_first
        intro event joined
        unfold joining at joined
        split at joined
        · exact List.mem_singleton.1 joined
        · exact absurd joined List.not_mem_nil
  | viewProof view attestations =>
      change engine.Towards (engine.receiveViewProof now sender view attestations).engine
        (engine.receiveViewProof now sender view attestations).events view
      rcases @receiveViewProof_cases engine now sender view attestations with
        ⟨⟨after, events⟩, -⟩ | ⟨⟨after, events⟩, -⟩ | ⟨⟨after, events⟩, -⟩
      · rw [after, events]
        exact engine.towards_retimed engine.timers view
      · rw [after, events]
        exact engine.towards_retimed (engine.timers.resetProgress now) view
      · rw [after, events]
        exact towards_install engine now view _

theorem towards_progressTimeout (calm : ∀ view, halts view = false) :
    engine.Towards (engine.progressTimeout halts now).engine
      (engine.progressTimeout halts now).events (engine.view + 1) := by
  by_cases last : engine.view = maxView
  · obtain ⟨after, events⟩ := @progressTimeout_of_last engine halts now last
    rw [after, events]
    exact engine.towards_retimed (engine.timers.resetProgress now) _
  · obtain ⟨after, events⟩ := @progressTimeout_of_next engine halts now (calm _) last
    have counts := towards_tally (engine.rearm now) now (engine.view + 1)
      ((engine.candidacy (engine.view + 1)).add ⟨engine.self, engine.view + 1⟩)
    have proposes := counts.vote_first fun event
      (only : event ∈ [.broadcast (.viewChange (engine.view + 1))]) => List.mem_singleton.1 only
    rw [after, events]
    exact ⟨proposes.reaches, proposes.view, proposes.attempted⟩

theorem towards_proofTimeout (engine : Engine) (now target : Int) :
    engine.Towards (engine.proofTimeout now).engine (engine.proofTimeout now).events target := by
  obtain ⟨timers, retimed⟩ := engine.proofTimeout_retimes now
  rw [retimed]
  refine ⟨?_, .inl rfl, .inl rfl⟩
  intro event happened reached reaches
  rw [eq_of_mem_proofTimeout happened] at reaches
  cases reaches

theorem towards_fireDue (calm : ∀ view, halts view = false) :
    engine.Towards (engine.fireDue halts true now).engine
      (engine.fireDue halts true now).events (engine.view + 1) := by
  obtain ⟨after, events⟩ := @fireDue_eq engine halts now calm true
  have first : engine.Towards (engine.fireProgress halts now).engine
      (engine.fireProgress halts now).events (engine.view + 1) := by
    by_cases due : engine.timers.progress.isDue now = true
    · rw [(fireProgress_of_due due).1, (fireProgress_of_due due).2.1]
      exact towards_progressTimeout calm
    · rw [(fireProgress_of_not_due due).1, (fireProgress_of_not_due due).2.1]
      exact engine.towards_retimed engine.timers _
  obtain ⟨timers, retimed⟩ := (engine.fireProgress halts now).engine.fireProof_retimes now
  rw [after, events, retimed]
  refine ⟨?_, ?_, first.attempted⟩
  · intro event happened reached reaches
    rcases List.mem_append.1 happened with early | late
    · exact first.reaches event early reached reaches
    · rw [eq_of_mem_fireProof late] at reaches
      cases reaches
  · exact first.view.imp id fun moved =>
      ⟨moved.1, moved.2.imp fun _ told => List.mem_append_left _ told⟩

end Engine

namespace Chronicle

open Cluster (Move neverHalts)

/-! ### Every run -/

/-- Nobody has left a view out: not in the history, nor in the view that a replica has installed or
attempted. -/
structure Climbing (chronicle : Chronicle) : Prop where
  gapless : Gapless chronicle.seen
  standing : ∀ (position : Nat) (engine : Engine),
    chronicle.cluster.engines[position]? = some engine →
      Climbed chronicle.seen (engine.view + 1)
  trying : ∀ (position : Nat) (engine : Engine),
    chronicle.cluster.engines[position]? = some engine → Climbed chronicle.seen engine.attempted

section Record

variable {chronicle : Chronicle} {position : Nat} {before after : Engine} {events : List Event}
  {view : Int}

/-- A step towards a view leaves no view out when all views before it have been installed. -/
theorem Climbing.record (climbing : chronicle.Climbing)
    (present : chronicle.cluster.engines[position]? = some before)
    (towards : before.Towards after events view) (climbed : Climbed chronicle.seen view) :
    (chronicle.record position after events).Climbing := by
  have kept : ∀ entry ∈ chronicle.seen,
      entry ∈ (chronicle.record position after events).seen := fun _ => List.mem_append_left _
  refine ⟨?_, ?_, ?_⟩
  · apply climbing.gapless.append
    intro entry happened reached reaches
    obtain ⟨event, told, rfl⟩ := List.mem_map.1 happened
    rw [towards.reaches event told reached reaches]
    exact climbed
  · intro other engine found
    rcases stored_record found with ⟨rfl, rfl⟩ | ⟨-, earlier⟩
    · rcases towards.view with same | ⟨moved, leader, told⟩
      · rw [same]
        exact (climbing.standing other before present).mono kept
      · rw [moved]
        exact (climbed.mono kept).succ
          ⟨other, leader, List.mem_append_right _ (List.mem_map_of_mem told)⟩
    · exact (climbing.standing other engine earlier).mono kept
  · intro other engine found
    rcases stored_record found with ⟨rfl, rfl⟩ | ⟨-, earlier⟩
    · have tried := (climbing.trying other before present).mono kept
      rcases towards.attempted with same | raised
      · rw [same]
        exact tried
      · rw [raised]
        exact tried.max (climbed.mono kept)
    · exact (climbing.trying other engine earlier).mono kept

end Record

theorem Climbing.climbed_of_cast {chronicle : Chronicle} (climbing : chronicle.Climbing)
    {sender view : Int} (cast : chronicle.Cast sender view) : Climbed chronicle.seen view :=
  climbing.gapless.climbed cast.2.2 (.voted view)

/-- Nobody sends a message about a view before the views before it have been installed: somebody
has voted for it. -/
theorem Climbing.climbed_of_inFlight {chronicle : Chronicle} (climbing : chronicle.Climbing)
    (sound : chronicle.Sound) {packet : Packet} (inFlight : packet ∈ chronicle.cluster.queue) :
    Climbed chronicle.seen packet.message.view := by
  obtain ⟨nonneg, below, sanctioned⟩ := sound.inFlight packet inFlight
  cases carried : packet.message with
  | viewChange view =>
      rw [carried] at sanctioned
      exact climbing.climbed_of_cast sanctioned
  | viewProof view attestations =>
      rw [carried] at sanctioned
      obtain ⟨certificate, proved, -⟩ := sanctioned
      have positive := quorumSize_positive (Int.lt_of_le_of_lt nonneg below)
      have quorum := proved.2
      obtain ⟨voter, voted⟩ := Finset.card_pos.1 (show 0 < certificate.voters.card by omega)
      exact climbing.climbed_of_cast (proved.1.cast voter voted)

theorem Climbing.transit {before after : Chronicle} (carried : Transit before after)
    (sound : before.Sound) (climbing : before.Climbing) : after.Climbing := by
  cases carried with
  | loss queue fewer => exact ⟨climbing.gapless, climbing.standing, climbing.trying⟩
  | hear packet position engine inFlight addressed present =>
      exact climbing.record present (Engine.towards_receive Cluster.neverHalts_calm _)
        (climbing.climbed_of_inFlight sound inFlight)

theorem Climbing.moment {before after : Chronicle} (moment : Moment before after)
    (sound : before.Sound) (climbing : before.Climbing) : after.Climbing := by
  cases moment with
  | clock now => exact ⟨climbing.gapless, climbing.standing, climbing.trying⟩
  | outage crashed => exact ⟨climbing.gapless, climbing.standing, climbing.trying⟩
  | transit _ carried => exact climbing.transit carried sound
  | fire position engine present =>
      exact climbing.record present (Engine.towards_fireDue Cluster.neverHalts_calm)
        (climbing.standing position engine present)
  | renew position engine present =>
      refine ⟨climbing.gapless, ?_, ?_⟩
      · intro other found stored
        rcases Cluster.stored_of_set stored with ⟨-, rfl⟩ | ⟨-, earlier⟩
        · exact climbed_of_le_one (Int.le_refl 1)
        · exact climbing.standing other found earlier
      · intro other found stored
        rcases Cluster.stored_of_set stored with ⟨-, rfl⟩ | ⟨-, earlier⟩
        · exact climbed_of_le_one (show (0 : Int) ≤ 1 by decide)
        · exact climbing.trying other found earlier

theorem climbing_opening (timers : List TimerPair) (now : Int) :
    (opening timers now).Climbing where
  gapless := gapless_nil
  standing position engine present := by
    obtain ⟨within, rfl⟩ := opening_engine present
    exact climbed_of_le_one (Int.le_refl 1)
  trying position engine present := by
    obtain ⟨within, rfl⟩ := opening_engine present
    exact climbed_of_le_one (show (0 : Int) ≤ 1 by decide)

theorem Climbing.moments {before after : Chronicle} (run : Moments before after)
    (sound : before.Sound) (climbing : before.Climbing) : after.Sound ∧ after.Climbing := by
  induction run with
  | refl => exact ⟨sound, climbing⟩
  | tail _ moment held => exact ⟨held.1.moment moment, held.2.moment moment held.1⟩

/-! ### Timers that run out at any time -/

def remind (chronicle : Chronicle) (position : Nat) : Chronicle :=
  match chronicle.cluster.engines[position]? with
  | none => chronicle
  | some engine =>
      let step := engine.proofTimeout chronicle.cluster.now
      chronicle.record position step.engine step.events

/-- What happens in a cluster when nothing is known of its clocks. Beside the moves, a timer of a
replica runs out whatever the clock says, and a copy of a message is heard however late. -/
inductive Happening
  | move (move : Move)
  | progressTimeout (position : Nat)
  | proofTimeout (position : Nat)
  /-- The message stays in flight. Its sender may be crashed by now. -/
  | echo (index : Int)
deriving DecidableEq, Repr

def happen (chronicle : Chronicle) : Happening → Chronicle
  | .move move => chronicle.move move
  | .progressTimeout position =>
      if chronicle.cluster.isDown position then chronicle else chronicle.timeOut position
  | .proofTimeout position =>
      if chronicle.cluster.isDown position then chronicle else chronicle.remind position
  | .echo index =>
      match chronicle.cluster.queue[chronicle.cluster.queuePosition index]? with
      | none => chronicle
      | some packet =>
          if chronicle.cluster.isDown packet.receiver then chronicle
          else chronicle.extend (chronicle.cluster.handOver packet)

def course (chronicle : Chronicle) (happenings : List Happening) : Chronicle :=
  happenings.foldl happen chronicle

section Happening

variable {chronicle : Chronicle}

theorem remind_eq {position : Nat} {engine : Engine}
    (present : chronicle.cluster.engines[position]? = some engine) :
    chronicle.remind position =
      chronicle.record position (engine.proofTimeout chronicle.cluster.now).engine
        (engine.proofTimeout chronicle.cluster.now).events := by
  rw [remind, present]

theorem Sound.remind (sound : chronicle.Sound) (position : Nat) :
    (chronicle.remind position).Sound := by
  cases present : chronicle.cluster.engines[position]? with
  | none =>
      rw [Chronicle.remind, present]
      exact sound
  | some engine =>
      obtain ⟨wellKept, sanctioned⟩ := @Engine.WellKept.proofTimeout _ _
        (sound.kept_record _ _ present) chronicle.cluster.now
      rw [remind_eq present]
      exact sound.record present Engine.proofTimeout_seat wellKept sanctioned

theorem Climbing.timeOut (climbing : chronicle.Climbing) (position : Nat) :
    (chronicle.timeOut position).Climbing := by
  cases present : chronicle.cluster.engines[position]? with
  | none =>
      rw [Chronicle.timeOut, present]
      exact climbing
  | some engine =>
      rw [timeOut_eq present]
      exact climbing.record present (Engine.towards_progressTimeout Cluster.neverHalts_calm)
        (climbing.standing position engine present)

theorem Climbing.remind (climbing : chronicle.Climbing) (position : Nat) :
    (chronicle.remind position).Climbing := by
  cases present : chronicle.cluster.engines[position]? with
  | none =>
      rw [Chronicle.remind, present]
      exact climbing
  | some engine =>
      rw [remind_eq present]
      exact climbing.record present (engine.towards_proofTimeout _ _)
        (climbing.standing position engine present)

theorem moments_echo (chronicle : Chronicle) (index : Int) :
    Moments chronicle (chronicle.happen (.echo index)) := by
  rw [happen]
  split
  · exact .refl
  · next packet inFlight =>
      split
      · exact .refl
      · exact moments_of_transits
          (transits_handOver chronicle packet (List.mem_of_getElem? inFlight))

theorem Climbing.happen (climbing : chronicle.Climbing) (sound : chronicle.Sound)
    (happening : Happening) :
    (chronicle.happen happening).Sound ∧ (chronicle.happen happening).Climbing := by
  cases happening with
  | move move => exact climbing.moments (moments_move chronicle move) sound
  | progressTimeout position =>
      rw [Chronicle.happen]
      split
      · exact ⟨sound, climbing⟩
      · exact ⟨sound.timeOut position, climbing.timeOut position⟩
  | proofTimeout position =>
      rw [Chronicle.happen]
      split
      · exact ⟨sound, climbing⟩
      · exact ⟨sound.remind position, climbing.remind position⟩
  | echo index => exact climbing.moments (moments_echo chronicle index) sound

end Happening

theorem climbing_course (timers : List TimerPair) (now : Int) (happenings : List Happening) :
    ((opening timers now).course happenings).Sound ∧
      ((opening timers now).course happenings).Climbing := by
  have held : ∀ chronicle : Chronicle, chronicle.Sound ∧ chronicle.Climbing →
      (chronicle.course happenings).Sound ∧ (chronicle.course happenings).Climbing := by
    induction happenings with
    | nil => exact fun _ held => held
    | cons happening rest ih =>
        intro chronicle held
        exact ih _ (held.2.happen held.1 happening)
  exact held _ ⟨sound_opening timers now, climbing_opening timers now⟩

/-- In every run of a cluster that is left to itself, whoever broadcasts a view change or installs
a view does so after every earlier view was installed by somebody. So nobody has attempted a view
beyond the one after the highest that was installed. -/
theorem views_are_reached_without_gaps (timers : List TimerPair) (now : Int)
    (happenings : List Happening) :
    let chronicle := (opening timers now).course happenings
    (∀ (index position : Nat) (event : Event) (view : Int),
      chronicle.seen[index]? = some (position, event) → event.Reaches view →
        ∀ below : Int, 1 ≤ below → below < view →
          Installed (chronicle.seen.take index) below) ∧
    ∀ (position : Nat) (engine : Engine),
      chronicle.cluster.engines[position]? = some engine →
        (engine.view = 0 ∨ Installed chronicle.seen engine.view) ∧
          engine.attempted ≤ highestInstalled chronicle.seen + 1 := by
  intro chronicle
  obtain ⟨sound, climbing⟩ : chronicle.Sound ∧ chronicle.Climbing :=
    climbing_course timers now happenings
  refine ⟨climbing.gapless, ?_⟩
  intro position engine present
  refine ⟨?_, (climbing.trying position engine present).le_highestInstalled⟩
  by_cases first : engine.view = 0
  · exact .inl first
  · have started := (sound.kept position engine present).started
    right
    exact climbing.standing position engine present engine.view (by omega) (Int.lt_succ _)

/-- Replica 0 goes from the first view to view 2 when nobody remembers view 1 any more: replicas 1
and 2 installed it and started anew. -/
theorem views_are_reached_without_gaps_though_forgotten :
    let chronicle := (opening (List.replicate 3 ⟨100, 30, by decide, by decide, {}, {}⟩) 0).course
      [.progressTimeout 0, .echo 1, .move (.deliver 8), .move (.restart 1), .progressTimeout 2,
        .move (.restart 2), .move (.deliver 8)]
    chronicle.cluster.engines.map (·.view) = [2, 0, 0] ∧
      chronicle.seen[7]? = some (0, .broadcast (.viewChange 2)) ∧
        Installed (chronicle.seen.take 7) 1 ∧
          ∃ engine, chronicle.cluster.engines[0]? = some engine ∧ engine.attempted = 2 ∧
            engine.attempted ≤ highestInstalled chronicle.seen + 1 := by
  intro chronicle
  have forgotten : chronicle.cluster.engines.map (·.view) = [2, 0, 0] := by decide +kernel
  have joined : chronicle.seen[7]? = some (0, .broadcast (.viewChange 2)) := by decide +kernel
  have tried : chronicle.cluster.engines[0]?.map (·.attempted) = some 2 := by decide +kernel
  obtain ⟨engine, present, second⟩ := Option.map_eq_some_iff.1 tried
  have gapless := views_are_reached_without_gaps
    (List.replicate 3 ⟨100, 30, by decide, by decide, {}, {}⟩) 0
    [.progressTimeout 0, .echo 1, .move (.deliver 8), .move (.restart 1), .progressTimeout 2,
      .move (.restart 2), .move (.deliver 8)]
  exact ⟨forgotten, joined,
    gapless.1 7 0 _ 2 joined (.voted 2) 1 (by decide) (by decide),
    engine, present, second, (gapless.2 0 engine present).2⟩

end Chronicle

end ViewSync
