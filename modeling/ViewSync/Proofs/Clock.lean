import ViewSync.Proofs.Delivery

/-!
A clock that keeps within its range.

Instants are integers of 64 bits and wrap around, and a deadline that wraps around is in the past.
In a timely run the clock never goes back and never comes so close to the end of its range that a
timer could be set beyond it. Then the proof timer of a live replica, when it is armed, is due in
the future and within one interval.
-/

namespace ViewSync

def Showable (instant : Int) : Prop :=
  -9223372036854775808 ≤ instant ∧ instant < 9223372036854775808

instance (instant : Int) : Decidable (Showable instant) :=
  inferInstanceAs (Decidable (_ ∧ _))

theorem wrap64_eq_iff {instant : Int} : wrap64 instant = instant ↔ Showable instant := by
  rw [wrap64, Int.bmod_eq_iff (by decide), Showable]
  omega

theorem wrap64_of_showable {instant : Int} (showable : Showable instant) :
    wrap64 instant = instant :=
  wrap64_eq_iff.2 showable

theorem wrap64_add_nanos {now millis : Int}
    (showable : Showable (now + millis * nanosPerMilli)) :
    wrap64 (now + nanosOfMillis millis) = now + millis * nanosPerMilli := by
  rw [nanosOfMillis, wrap64, wrap64, Int.add_bmod_bmod]
  exact wrap64_of_showable showable

namespace Engine

/-- Neither timer of the replica can be set to an instant that the clock does not show. -/
def Fits (engine : Engine) (now : Int) : Prop :=
  Showable (now + engine.timers.progressInterval * nanosPerMilli) ∧
    Showable (now + engine.timers.proofInterval * nanosPerMilli)

instance (engine : Engine) (now : Int) : Decidable (engine.Fits now) :=
  inferInstanceAs (Decidable (_ ∧ _))

theorem Fits.of_seat {left right : Engine} (same : left.seat = right.seat) {now : Int}
    (fits : right.Fits now) : left.Fits now := by
  unfold Fits
  rw [seat_progressInterval same, seat_proofInterval same]
  exact fits

def OnTime (engine : Engine) (now : Int) : Prop :=
  engine.timers.proof.armed = true →
    now < engine.timers.proof.deadline ∧
      engine.timers.proof.deadline ≤ now + engine.timers.proofInterval * nanosPerMilli

theorem nanos_positive {millis : Int} (positive : 0 < millis) : 0 < millis * nanosPerMilli := by
  unfold nanosPerMilli
  omega

theorem onTime_of_reset {engine before : Engine} {now : Int} (fits : before.Fits now)
    (sameInterval : engine.timers.proofInterval = before.timers.proofInterval)
    (set : engine.timers.proof = .reset now (nanosOfMillis before.timers.proofInterval)) :
    engine.OnTime now := by
  intro _
  have later := nanos_positive before.timers.proof_positive
  have deadline : engine.timers.proof.deadline =
      now + before.timers.proofInterval * nanosPerMilli := by
    rw [set]
    exact wrap64_add_nanos fits.2
  rw [sameInterval]
  omega

def TendsProof (before after : Engine) (now : Int) : Prop :=
  after.timers.proof = before.timers.proof ∨ after.timers.proof.armed = false ∨
    after.timers.proof = .reset now (nanosOfMillis before.timers.proofInterval)

section Transitions

variable {engine : Engine} {halts : Int → Bool} {now : Int}

theorem tendsProof_install (engine : Engine) (now view : Int) (certificate : Certificate) :
    engine.TendsProof (engine.install now view certificate).1 now := by
  unfold TendsProof
  rw [install_proof]
  split
  · exact .inr (.inr rfl)
  · exact .inr (.inl rfl)

theorem tendsProof_tally (engine : Engine) (now view : Int) (certificate : Certificate)
    (attempted : Int) :
    engine.TendsProof (engine.tally now view certificate attempted).1 now := by
  by_cases valid : certificate.isValid engine.replicas = true
  · rw [tally_of_valid valid]
    exact tendsProof_install (engine.hold view certificate attempted) now view certificate
  · rw [tally_of_not_valid valid]
    exact .inl rfl

theorem tendsProof_receive (calm : ∀ view, halts view = false) (envelope : Envelope) :
    engine.TendsProof (engine.receive halts now envelope).engine now := by
  obtain ⟨sender, message⟩ := envelope
  cases message with
  | viewChange view =>
      simp only [receive]
      rcases @receiveViewChange_cases engine halts now sender view calm with
        ⟨⟨after, -⟩, -⟩ | ⟨⟨after, -⟩, -⟩
      · rw [after]
        exact .inl rfl
      · rw [after]
        exact tendsProof_tally _ _ _ _ _
  | viewProof view attestations =>
      simp only [receive]
      rcases @receiveViewProof_cases engine now sender view attestations with
        ⟨⟨after, -⟩, -⟩ | ⟨⟨after, -⟩, -⟩ | ⟨⟨after, -⟩, -⟩
      · rw [after]
        exact .inl rfl
      · rw [after]
        exact .inl rfl
      · rw [after]
        exact tendsProof_install _ _ _ _

theorem tendsProof_fireProgress (calm : ∀ view, halts view = false) :
    engine.TendsProof (engine.fireProgress halts now).engine now := by
  by_cases due : engine.timers.progress.isDue now = true
  · rw [(fireProgress_of_due due).1]
    by_cases last : engine.view = maxView
    · rw [(progressTimeout_of_last last).1]
      exact .inl rfl
    · rw [(progressTimeout_of_next (calm _) last).1]
      exact tendsProof_tally (engine.rearm now) _ _ _ _
  · rw [(fireProgress_of_not_due due).1]
    exact .inl rfl

theorem fireProof_tends :
    ((engine.fireProof true now).engine.timers.proof = engine.timers.proof ∧
        ¬ engine.timers.proof.isDue now = true) ∨
      (engine.fireProof true now).engine.timers.proof.armed = false ∨
      (engine.fireProof true now).engine.timers.proof =
        .reset now (nanosOfMillis engine.timers.proofInterval) := by
  by_cases due : engine.timers.proof.isDue now = true
  · rw [(fireProof_of_due due).1]
    by_cases leads : leaderOf engine.view engine.replicas = engine.self ∧
        engine.installed.isValid engine.replicas = true
    · rw [(proofTimeout_of_leads leads.1 leads.2).1]
      exact .inr (.inr rfl)
    · rw [(proofTimeout_of_silent (not_and_or.1 leads)).1]
      exact .inr (.inl rfl)
  · rw [(fireProof_of_not_due due).1]
    exact .inl ⟨rfl, due⟩

theorem OnTime.receive (calm : ∀ view, halts view = false) (envelope : Envelope)
    (fits : engine.Fits now) (onTime : engine.OnTime now) :
    (engine.receive halts now envelope).engine.OnTime now := by
  have sameInterval := seat_proofInterval (@receive_seat engine halts now calm envelope)
  rcases @tendsProof_receive engine halts now calm envelope with same | disarmed | set
  · unfold OnTime
    rw [same, sameInterval]
    exact onTime
  · intro armed
    rw [disarmed] at armed
    cases armed
  · exact onTime_of_reset fits sameInterval set

/-- Once a replica has asked its timers its proof timer is on time, if it was not set too far
ahead. -/
theorem onTime_fireDue (calm : ∀ view, halts view = false) (fits : engine.Fits now)
    (near : engine.timers.proof.armed = true →
      engine.timers.proof.deadline ≤ now + engine.timers.proofInterval * nanosPerMilli) :
    (engine.fireDue halts true now).engine.OnTime now := by
  have sameInterval := seat_proofInterval (@fireDue_seat engine halts now calm)
  have firstInterval := seat_proofInterval (@fireProgress_seat engine halts now calm)
  have firstFits : (engine.fireProgress halts now).engine.Fits now :=
    fits.of_seat (fireProgress_seat calm)
  rw [(fireDue_eq calm true).1] at sameInterval ⊢
  rcases @fireProof_tends (engine.fireProgress halts now).engine now with
    ⟨same, waiting⟩ | disarmed | set
  · rcases @tendsProof_fireProgress engine halts now calm with unchanged | off | reset
    · intro armed
      rw [same, unchanged] at armed ⊢
      rw [unchanged, Countdown.isDue, armed, Bool.true_and, decide_eq_true_eq] at waiting
      have soon := near armed
      rw [sameInterval]
      omega
    · intro armed
      rw [same, off] at armed
      cases armed
    · exact onTime_of_reset fits sameInterval (same.trans reset)
  · intro armed
    rw [disarmed] at armed
    cases armed
  · exact onTime_of_reset firstFits (sameInterval.trans firstInterval.symm) set

end Transitions

end Engine

namespace Chronicle

open Cluster (Move neverHalts)

/-- At the instant, no replica can set a timer to an instant that the clock does not show. -/
def Fits (chronicle : Chronicle) (now : Int) : Prop :=
  Showable now ∧ ∀ engine ∈ chronicle.cluster.engines, engine.Fits now

instance (chronicle : Chronicle) (now : Int) : Decidable (chronicle.Fits now) :=
  inferInstanceAs (Decidable (_ ∧ ∀ engine ∈ chronicle.cluster.engines, _))

/-- The states of runs in which the clock never goes back and always fits. -/
inductive Timely : Chronicle → Prop
  | opening (timers : List TimerPair) (now : Int) (fits : (opening timers now).Fits now) :
      Timely (opening timers now)
  | tick {before : Chronicle} (millis : Int) (earlier : Timely before) (forward : 0 ≤ millis)
      (fits : before.Fits (before.cluster.now + millis * nanosPerMilli)) :
      Timely (before.move (.tick millis))
  | move {before : Chronicle} (move : Move) (earlier : Timely before)
      (still : ∀ millis, move ≠ .tick millis) : Timely (before.move move)

theorem Timely.after (moves : List Move) {chronicle : Chronicle} (timely : chronicle.Timely)
    (still : ∀ move ∈ moves, ∀ millis, move ≠ .tick millis) :
    (chronicle.after moves).Timely := by
  induction moves generalizing chronicle with
  | nil => exact timely
  | cons first rest ih =>
      exact ih (.move first timely (still first List.mem_cons_self))
        fun move later => still move (List.mem_cons_of_mem first later)

structure Punctual (chronicle : Chronicle) : Prop where
  fits : chronicle.Fits chronicle.cluster.now
  onTime : ∀ (position : Nat) (engine : Engine), chronicle.IsLive position →
    chronicle.cluster.engines[position]? = some engine → engine.OnTime chronicle.cluster.now

section Record

variable {chronicle : Chronicle} {position : Nat} {before after : Engine} {events : List Event}

theorem record_now : (chronicle.record position after events).cluster.now =
    chronicle.cluster.now := by
  simp only [record, Cluster.record_eq]

theorem Fits.record {now : Int} (fits : chronicle.Fits now)
    (present : chronicle.cluster.engines[position]? = some before)
    (sameSeat : after.seat = before.seat) :
    (chronicle.record position after events).Fits now := by
  refine ⟨fits.1, ?_⟩
  intro engine listed
  simp only [Chronicle.record, Cluster.record_eq] at listed
  rcases List.mem_or_eq_of_mem_set listed with earlier | rfl
  · exact fits.2 engine earlier
  · exact (fits.2 before (List.mem_of_getElem? present)).of_seat sameSeat

theorem Punctual.record (punctual : chronicle.Punctual)
    (present : chronicle.cluster.engines[position]? = some before)
    (sameSeat : after.seat = before.seat)
    (onTime : chronicle.IsLive position → after.OnTime chronicle.cluster.now) :
    (chronicle.record position after events).Punctual where
  fits := by
    rw [record_now]
    exact punctual.fits.record present sameSeat
  onTime other engine live found := by
    rw [record_now]
    rw [isLive_record] at live
    rcases stored_record found with ⟨rfl, rfl⟩ | ⟨-, earlier⟩
    · exact onTime live
    · exact punctual.onTime other engine live earlier

end Record

theorem Punctual.transit {before after : Chronicle} (carried : Transit before after)
    (punctual : before.Punctual) : after.Punctual := by
  cases carried with
  | loss queue fewer => exact ⟨punctual.fits, punctual.onTime⟩
  | hear packet position engine inFlight addressed present =>
      apply punctual.record present (Engine.receive_seat Cluster.neverHalts_calm _)
      intro live
      exact (punctual.onTime position engine live present).receive Cluster.neverHalts_calm _
        (punctual.fits.2 engine (List.mem_of_getElem? present))

theorem Punctual.transits {before after : Chronicle} (carried : Transits before after)
    (punctual : before.Punctual) : after.Punctual := by
  induction carried with
  | refl => exact punctual
  | tail _ transit ih => exact ih.transit transit

/-! ### Asking the timers -/

/-- Proof timers of live replicas that are yet to be asked were not set too far ahead, and all
others are on time. -/
structure Asking (chronicle : Chronicle) (positions : List Nat) : Prop where
  fits : chronicle.Fits chronicle.cluster.now
  near : ∀ (position : Nat) (engine : Engine), chronicle.IsLive position →
    chronicle.cluster.engines[position]? = some engine →
      engine.timers.proof.armed = true →
        engine.timers.proof.deadline ≤
            chronicle.cluster.now + engine.timers.proofInterval * nanosPerMilli ∧
          (position ∈ positions ∨ chronicle.cluster.now < engine.timers.proof.deadline)

theorem Asking.fireAt {chronicle : Chronicle} {position : Nat} {rest : List Nat}
    (asking : chronicle.Asking (position :: rest)) :
    (chronicle.extend (chronicle.cluster.fireAt position)).Asking rest := by
  have others : ∀ (other : Nat) (engine : Engine), chronicle.IsLive other → other ≠ position →
      chronicle.cluster.engines[other]? = some engine → engine.timers.proof.armed = true →
        engine.timers.proof.deadline ≤
            chronicle.cluster.now + engine.timers.proofInterval * nanosPerMilli ∧
          (other ∈ rest ∨ chronicle.cluster.now < engine.timers.proof.deadline) := by
    intro other engine live different found armed
    obtain ⟨soon, listed | ahead⟩ := asking.near other engine live found armed
    · exact ⟨soon, .inl (List.mem_of_ne_of_mem different listed)⟩
    · exact ⟨soon, .inr ahead⟩
  rcases fireAt_cases chronicle position with ⟨same, unasked⟩ | ⟨engine, live, present, fired⟩
  · rw [same]
    refine ⟨asking.fits, ?_⟩
    intro other engine live found
    apply others other engine live _ found
    rintro rfl
    exact unasked live
  · have fits := asking.fits.2 engine (List.mem_of_getElem? present)
    have onTime : (engine.fireDue neverHalts true chronicle.cluster.now).engine.OnTime
        chronicle.cluster.now :=
      Engine.onTime_fireDue Cluster.neverHalts_calm fits fun armed =>
        (asking.near position engine live present armed).1
    rw [fired]
    constructor
    · rw [record_now]
      exact asking.fits.record present (Engine.fireDue_seat Cluster.neverHalts_calm)
    · intro other found otherLive stored armed
      rw [record_now]
      rw [isLive_record] at otherLive
      rcases stored_record stored with ⟨-, rfl⟩ | ⟨different, earlier⟩
      · obtain ⟨ahead, soon⟩ := onTime armed
        exact ⟨soon, .inr ahead⟩
      · exact others other found otherLive different earlier armed

theorem Asking.fireFrom (positions : List Nat) {chronicle : Chronicle}
    (asking : chronicle.Asking positions) :
    (chronicle.extend (chronicle.cluster.fireFrom positions)).Punctual := by
  induction positions generalizing chronicle with
  | nil =>
      rw [Cluster.fireFrom_nil, extend_nothing]
      refine ⟨asking.fits, ?_⟩
      intro position engine live found armed
      obtain ⟨soon, listed | ahead⟩ := asking.near position engine live found armed
      · exact absurd listed List.not_mem_nil
      · exact ⟨ahead, soon⟩
  | cons position rest ih =>
      rw [extend_fireFrom_cons]
      exact ih asking.fireAt

theorem clocked_now {chronicle : Chronicle} {millis : Int}
    (showable : Showable (chronicle.cluster.now + millis * nanosPerMilli)) :
    (chronicle.clocked millis).cluster.now =
      chronicle.cluster.now + millis * nanosPerMilli :=
  wrap64_add_nanos showable

theorem nanos_nonneg {millis : Int} (forward : 0 ≤ millis) : 0 ≤ millis * nanosPerMilli := by
  unfold nanosPerMilli
  omega

theorem Punctual.tick {chronicle : Chronicle} {millis : Int} (punctual : chronicle.Punctual)
    (forward : 0 ≤ millis)
    (fits : chronicle.Fits (chronicle.cluster.now + millis * nanosPerMilli)) :
    (chronicle.move (.tick millis)).Punctual := by
  have now := clocked_now fits.1
  have onward := nanos_nonneg forward
  rw [move_tick]
  apply Asking.fireFrom
  constructor
  · rw [now]
    exact fits
  · intro position engine live found armed
    obtain ⟨-, soon⟩ := punctual.onTime position engine live found armed
    rw [now]
    exact ⟨by omega, .inl (List.mem_range.2 live.1)⟩

/-! ### Crashes -/

theorem isDown_crash {cluster : Cluster} {identifier other : Int}
    (up : (cluster.crash identifier).isDown other = false) : cluster.isDown other = false := by
  simp only [Cluster.isDown, Cluster.crash, List.contains_eq_mem, decide_eq_false_iff_not,
    List.mem_insert_iff, not_or] at up ⊢
  exact up.2

theorem Punctual.crash {chronicle : Chronicle} (punctual : chronicle.Punctual)
    (identifier : Int) : (chronicle.move (.crash identifier)).Punctual where
  fits := punctual.fits
  onTime position engine live found :=
    punctual.onTime position engine ⟨live.1, isDown_crash live.2⟩ found

theorem Punctual.restart {chronicle : Chronicle} (punctual : chronicle.Punctual)
    (identifier : Int) : (chronicle.move (.restart identifier)).Punctual := by
  have others : ∀ position : Nat, (position : Int) ≠ identifier →
      (chronicle.cluster.crashed.filter (· ≠ identifier)).contains (position : Int) = false →
        chronicle.cluster.isDown position = false := by
    intro position different up
    simp only [Cluster.isDown, List.contains_eq_mem, decide_eq_false_iff_not, List.mem_filter,
      not_and, decide_eq_true_eq] at up ⊢
    intro down
    exact up down different
  simp only [move_eq_extend, Cluster.undergo, Cluster.act, Cluster.restart]
  cases present : chronicle.cluster.engine? identifier with
  | none =>
      refine ⟨punctual.fits, ?_⟩
      intro position engine live found
      have stored : chronicle.cluster.engines[position]? = some engine := found
      apply punctual.onTime position engine ⟨live.1, others position _ live.2⟩ found
      rintro rfl
      rw [Cluster.engine?_eq_some.2 ⟨Int.natCast_nonneg position, stored⟩] at present
      cases present
  | some engine =>
      obtain ⟨nonneg, stored⟩ := Cluster.engine?_eq_some.1 present
      have within := (List.getElem?_eq_some_iff.1 stored).1
      constructor
      · refine ⟨punctual.fits.1, ?_⟩
        intro other listed
        rcases List.mem_or_eq_of_mem_set listed with earlier | rfl
        · exact punctual.fits.2 other earlier
        · exact punctual.fits.2 engine (List.mem_of_getElem? stored)
      · intro position other live found armed
        simp only [extend] at found
        rw [List.getElem?_set, if_pos within] at found
        split at found
        · rw [← Option.some.inj found] at armed
          cases armed
        · next different =>
            have elsewhere : (position : Int) ≠ identifier := by
              rintro rfl
              exact different (Int.toNat_natCast position)
            have seated : position < chronicle.size := (List.getElem?_eq_some_iff.1 found).1
            exact punctual.onTime position other ⟨seated, others position elsewhere live.2⟩ found
              armed

theorem Timely.punctual {chronicle : Chronicle} (timely : chronicle.Timely) :
    chronicle.Punctual := by
  induction timely with
  | opening timers now fits =>
      refine ⟨fits, ?_⟩
      intro position engine live found armed
      obtain ⟨within, rfl⟩ := opening_engine found
      cases armed
  | tick millis earlier forward fits ih => exact ih.tick forward fits
  | @move before move earlier still ih =>
      cases move with
      | tick millis => exact absurd rfl (still millis)
      | deliver index => exact ih.transits (transits_deliver before index)
      | straggle index => exact ih.transits (transits_straggle before index)
      | duplicate index => exact ih.transits (transits_duplicate before index)
      | lose index => exact ih.transits (transits_lose before index)
      | crash identifier => exact ih.crash identifier
      | restart identifier => exact ih.restart identifier

theorem Sound.move {chronicle : Chronicle} (sound : chronicle.Sound) (move : Move) :
    (chronicle.move move).Sound :=
  after_induction (fun _ _ => Sound.moment) [move] chronicle sound

theorem Timely.sound {chronicle : Chronicle} (timely : chronicle.Timely) : chronicle.Sound := by
  induction timely with
  | opening timers now fits => exact sound_opening timers now
  | tick millis earlier forward fits ih => exact ih.move _
  | move move earlier still ih => exact ih.move move

end Chronicle

end ViewSync
