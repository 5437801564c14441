import ViewSync.Proofs.CanonicalFrames
import ViewSync.Proofs.Diary

/-!
Broadcasts on the wire.

A replica that hears only what comes out of frames says only what fits into one, and nobody on the
roster finds fault with it. A proof that the replica has taken in is merged, so that it is not the
list that was heard which is sent on: each sender is named once, with the highest of its views. The
numbers in it are among those that were heard, and there are not more of them, and whoever backed
the view still does. What the replica gathers itself is a bare quorum.
-/

namespace ViewSync

open ViewSync.Frame (Writable InRange)

/-! ### What fits into a frame -/

namespace Frame

structure Fits (envelope : Envelope) : Prop where
  inRange : InRange envelope
  few : envelope.message.attestations.length ≤ 8190

theorem Fits.of_decode? {envelope : Envelope} {bytes : Bytes} {size : Nat}
    (read : decode? bytes = some ⟨envelope, size⟩) : Fits envelope := by
  obtain ⟨frame, rest, -, canonical, -⟩ := decode?_eq_some_iff.1 read
  exact ⟨canonical.inRange, (short_iff canonical.written).1 canonical.short⟩

theorem Fits.survives {envelope : Envelope} (fits : Fits envelope) :
    ∃ frame, encode envelope = .ok frame ∧ decode? frame = some ⟨envelope, frame.length⟩ := by
  have written := encode_eq_ok_iff.2 ⟨fun field listed => (fits.inRange field listed).1, rfl⟩
  have canonical : Canonical envelope _ := ⟨fits.inRange, written, (short_iff written).2 fits.few⟩
  have read := canonical.decode?_append []
  rw [List.append_nil] at read
  exact ⟨_, written, read⟩

theorem InRange.view_writable {envelope : Envelope} (inRange : InRange envelope) :
    Writable envelope.message.view := by
  obtain ⟨sender, message⟩ := envelope
  cases message with
  | viewChange view => exact (inRange_viewChange.1 inRange).2
  | viewProof view attestations => exact (inRange_viewProof.1 inRange).2.1

end Frame

/-! ### What there is to say -/

structure Certificate.Carries (certificate : Certificate) (replicas view : Int) : Prop where
  later : 0 < view
  writable : Writable view
  candidate : certificate.view = view
  valid : certificate.isValid replicas = true
  inRange : ∀ attestation ∈ certificate.attestations,
    Writable attestation.sender ∧ Writable attestation.view
  few : certificate.attestations.length ≤ 8190

namespace Evidence

/-- Votes from the roster for views that have a word, and certificates that can be sent on. -/
def ofWire (replicas : Int) : Evidence where
  vote sender view := (0 ≤ sender ∧ sender < replicas) ∧ Writable view
  proof view certificate := certificate.Carries replicas view

variable {replicas : Int}

/-- On a roster of which more than half fits into a frame, identifiers have a word. -/
theorem writable_of_seated (small : quorumSize replicas ≤ 8190) {sender : Int}
    (seated : 0 ≤ sender ∧ sender < replicas) : Writable sender := by
  refine ⟨seated.1, ?_⟩
  have roster : 0 < replicas := Int.lt_of_le_of_lt seated.1 seated.2
  rw [History.quorumSize_eq roster] at small
  simp only [Frame.maxWord]
  omega

theorem ofWire_electoral (roster : 0 < replicas) (small : quorumSize replicas ≤ 8190) :
    (ofWire replicas).Electoral replicas where
  seated _ _ voted := voted.1
  elects view certificate later ballot quorum := by
    have valid := (ballot.isValid_iff (fun _ voted => voted.1) roster).2 (Int.le_of_eq quorum.symm)
    have positive := quorumSize_positive roster
    have someone : certificate.voters.Nonempty := by
      rw [← Finset.card_pos]
      omega
    obtain ⟨sender, voter⟩ := someone
    refine ⟨later, (ballot.cast sender voter).2, ballot.candidate, valid, ?_, ?_⟩
    · intro attestation listed
      have stored := Certificate.mem_attestations.1 listed
      have voted := ballot.cast _ (Certificate.mem_voters.2 ⟨_, stored⟩)
      rw [ballot.exact _ _ stored]
      exact ⟨writable_of_seated small voted.1, voted.2⟩
    · rw [Certificate.length_attestations]
      omega

theorem ofWire_admits {envelope : Envelope} (fits : Frame.Fits envelope) :
    (ofWire replicas).Admits replicas envelope := by
  obtain ⟨⟨sender, message⟩, inRange, few⟩ := envelope, fits
  intro nonneg below
  cases message with
  | viewChange view => exact ⟨⟨nonneg, below⟩, (Frame.inRange_viewChange.1 inRange).2⟩
  | viewProof view attestations =>
      intro later quorum
      obtain ⟨-, writable, listed⟩ := Frame.inRange_viewProof.1 inRange
      refine ⟨later, writable, Certificate.ofList_view view attestations,
        Certificate.isValid_ofList quorum, ?_, ?_⟩
      · exact fun attestation merged => listed attestation (Certificate.mem_of_mem_ofList merged)
      · exact Nat.le_trans (Certificate.length_attestations_ofList view attestations) few

theorem Sanctions.fits (small : quorumSize replicas ≤ 8190) {sender : Int} {message : Message}
    (seated : 0 ≤ sender ∧ sender < replicas)
    (sanctioned : (ofWire replicas).Sanctions sender message) :
    Frame.Fits ⟨sender, message⟩ := by
  have senderWritable := writable_of_seated small seated
  cases message with
  | viewChange view =>
      exact ⟨Frame.inRange_viewChange.2 ⟨senderWritable, sanctioned.2⟩, Nat.zero_le _⟩
  | viewProof view attestations =>
      obtain ⟨certificate, carries, rfl⟩ := sanctioned
      exact ⟨Frame.inRange_viewProof.2 ⟨senderWritable, carries.writable, carries.inRange⟩,
        carries.few⟩

end Evidence

/-! ### Receivers -/

/-- No fault is found with the sender or with the certificate, and only the watcher halts. -/
def Outcome.Heeds (halts : Int → Bool) : Outcome → Prop
  | .settled verdict => verdict.code ≠ -2 ∧ verdict.code ≠ -3
  | .halted view => halts view = true

theorem Outcome.heeds_accepted (halts : Int → Bool) : Heeds halts (.settled .accepted) :=
  ⟨by decide, by decide⟩

theorem Outcome.heeds_staleView (halts : Int → Bool) : Heeds halts (.settled .staleView) :=
  ⟨by decide, by decide⟩

namespace Engine

variable {engine : Engine} {halts : Int → Bool} {now : Int}

theorem settle_heeds (view : Int) : (engine.settle halts now view).outcome.Heeds halts := by
  have accepted := Outcome.heeds_accepted halts
  unfold settle
  split
  · exact accepted
  · split
    · split
      · next halted => exact halted
      · exact accepted
    · exact accepted

/-- A message from the roster is heeded, a proof provided that it passes the check of lists. -/
theorem receive_heeds {sender : Int} {message : Message} (known : engine.knows sender = true)
    (backed : ∀ view attestations, message = .viewProof view attestations →
      Attestation.quorumFor view attestations engine.replicas = true) :
    (engine.receive halts now ⟨sender, message⟩).outcome.Heeds halts := by
  have accepted := Outcome.heeds_accepted halts
  have stale := Outcome.heeds_staleView halts
  cases message with
  | viewChange view =>
      change (engine.receiveViewChange halts now sender view).outcome.Heeds halts
      unfold receiveViewChange
      rw [if_neg (by simp [known])]
      split
      · exact stale
      · split
        · exact accepted
        · split
          · exact settle_heeds view
          · exact settle_heeds view
  | viewProof view attestations =>
      change (engine.receiveViewProof now sender view attestations).outcome.Heeds halts
      unfold receiveViewProof
      rw [if_neg (by simp [known]), if_neg (by simp [backed view attestations rfl])]
      split
      · exact stale
      · exact accepted

end Engine

theorem Evidence.Sanctions.heeded {sender now : Int} {message : Message} {receiver : Engine}
    {halts : Int → Bool} (seated : 0 ≤ sender ∧ sender < receiver.replicas)
    (sanctioned : (ofWire receiver.replicas).Sanctions sender message) :
    (receiver.receive halts now ⟨sender, message⟩).outcome.Heeds halts := by
  apply Engine.receive_heeds
  · simp [Engine.knows, seated]
  · rintro view attestations rfl
    obtain ⟨certificate, carries, rfl⟩ := sanctioned
    rw [← carries.candidate]
    apply Certificate.quorumFor_of_isValid carries.valid
    rw [carries.candidate]
    exact carries.writable.1

/-! ### Calls -/

namespace Engine

open Cluster (neverHalts neverHalts_calm)

variable {engine : Engine} {now : Int}

theorem answer_place (call : Call) :
    (engine.answer now call).engine.replicas = engine.replicas ∧
      (engine.answer now call).engine.self = engine.self := by
  have ofSeat : ∀ {after : Engine}, after.seat = engine.seat →
      after.replicas = engine.replicas ∧ after.self = engine.self :=
    fun same => ⟨seat_replicas same, seat_self same⟩
  cases call with
  | start => exact ⟨rfl, rfl⟩
  | adjust timers => exact ⟨rfl, rfl⟩
  | progressTimeout => exact ofSeat (progressTimeout_seat neverHalts_calm)
  | proofTimeout => exact ofSeat proofTimeout_seat
  | receive envelope => exact ofSeat (receive_seat neverHalts_calm envelope)

theorem WellKept.view_le (kept : engine.WellKept (.ofWire engine.replicas)) :
    engine.view ≤ maxView := by
  rcases kept.justified with ⟨first, -⟩ | ⟨-, carries⟩
  · rw [first]
    decide
  · exact carries.writable.2

/-- A replica that hears what fits into frames stays well kept, and all it says is sanctioned. -/
theorem WellKept.answer (kept : engine.WellKept (.ofWire engine.replicas))
    (small : quorumSize engine.replicas ≤ 8190) (call : Call)
    (fits : ∀ envelope ∈ call.heard, Frame.Fits envelope) :
    (engine.answer now call).engine.WellKept (.ofWire engine.replicas) ∧
      ∀ message, .broadcast message ∈ (engine.answer now call).events →
        (Evidence.ofWire engine.replicas).Sanctions engine.self message := by
  have electoral := Evidence.ofWire_electoral engine.roster_positive small
  cases call with
  | start => exact ⟨kept.timers _, fun _ broadcast => absurd broadcast List.not_mem_nil⟩
  | adjust timers => exact ⟨kept.timers _, fun _ broadcast => absurd broadcast List.not_mem_nil⟩
  | progressTimeout =>
      refine kept.progressTimeout electoral neverHalts_calm ?_
      intro proposed broadcast
      have next : proposed = engine.view + 1 :=
        view_of_broadcast_progressTimeout neverHalts_calm broadcast
      have started := kept.started
      have bounded := kept.view_le
      refine ⟨engine.seated, ?_, ?_⟩
      · omega
      · by_cases last : engine.view = maxView
        · rw [(progressTimeout_of_last last).2] at broadcast
          exact absurd broadcast List.not_mem_nil
        · change proposed ≤ maxView
          omega
  | proofTimeout => exact kept.proofTimeout
  | receive envelope =>
      have fitting := fits envelope List.mem_cons_self
      refine kept.receive electoral neverHalts_calm (Evidence.ofWire_admits fitting) ?_
      intro joined broadcast
      have same : joined = envelope.message.view :=
        view_of_broadcast_receive neverHalts_calm broadcast
      rw [same]
      exact ⟨engine.seated, fitting.inRange.view_writable⟩

/-- A proof is announced by the leader of its view, which is the installed view by then. -/
theorem tally_announces {view attempted proved : Int} {certificate : Certificate}
    {attestations : List Attestation}
    (announced : .broadcast (.viewProof proved attestations) ∈
      (engine.tally now view certificate attempted).2) :
    proved = (engine.tally now view certificate attempted).1.view ∧
      leaderOf proved engine.replicas = engine.self := by
  obtain ⟨valid, leads, same⟩ := (broadcast_mem_tally _).1 announced
  cases same
  rw [tally_view, if_pos valid]
  exact ⟨rfl, leads⟩

theorem receive_announces {envelope : Envelope} {proved : Int} {attestations : List Attestation}
    (announced : .broadcast (.viewProof proved attestations) ∈
      (engine.receive neverHalts now envelope).events) :
    proved = (engine.receive neverHalts now envelope).engine.view ∧
      leaderOf proved engine.replicas = engine.self := by
  obtain ⟨sender, message⟩ := envelope
  cases message with
  | viewChange view =>
      simp only [receive] at announced ⊢
      rcases @receiveViewChange_cases engine neverHalts now sender view neverHalts_calm with
        ⟨⟨-, events⟩, -⟩ | ⟨⟨after, events⟩, -⟩
      · rw [events] at announced
        exact absurd announced List.not_mem_nil
      · rw [events, List.mem_append, broadcast_mem_joining] at announced
        rw [after]
        rcases announced with ⟨-, impossible⟩ | announced
        · cases impossible
        · exact tally_announces announced
  | viewProof view heard =>
      simp only [receive] at announced ⊢
      rcases @receiveViewProof_cases engine now sender view heard with
        ⟨⟨-, events⟩, -⟩ | ⟨⟨-, events⟩, -⟩ | ⟨⟨after, events⟩, -⟩
      · rw [events] at announced
        exact absurd announced List.not_mem_nil
      · rw [events] at announced
        exact absurd announced List.not_mem_nil
      · rw [events, broadcast_mem_install] at announced
        obtain ⟨leads, same⟩ := announced
        cases same
        rw [after, install_view]
        exact ⟨rfl, leads⟩

theorem answer_announces {call : Call} {proved : Int} {attestations : List Attestation}
    (announced : .broadcast (.viewProof proved attestations) ∈ (engine.answer now call).events) :
    proved = (engine.answer now call).engine.view ∧
      leaderOf proved engine.replicas = engine.self := by
  cases call with
  | start => exact absurd announced List.not_mem_nil
  | adjust timers => exact absurd announced List.not_mem_nil
  | progressTimeout =>
      simp only [answer] at announced ⊢
      by_cases last : engine.view = maxView
      · rw [(progressTimeout_of_last last).2] at announced
        exact absurd announced List.not_mem_nil
      · obtain ⟨after, events⟩ := @progressTimeout_of_next engine neverHalts now
          (neverHalts_calm _) last
        rw [events] at announced
        rw [after]
        rcases List.mem_cons.1 announced with impossible | announced
        · cases impossible
        · exact @tally_announces (engine.rearm now) _ _ _ _ _ _ announced
  | proofTimeout =>
      simp only [answer] at announced ⊢
      by_cases leads : leaderOf engine.view engine.replicas = engine.self
      · obtain ⟨timers, after⟩ := engine.proofTimeout_retimes now
        cases eq_of_mem_proofTimeout announced
        rw [after]
        exact ⟨rfl, leads⟩
      · rw [(proofTimeout_of_silent (.inl leads)).2] at announced
        exact absurd announced List.not_mem_nil
  | receive envelope => exact receive_announces announced

end Engine

/-! ### Runs -/

namespace Diary

theorem wellKept_after (calls : List (Int × Call)) (diary : Diary)
    (small : quorumSize diary.engine.replicas ≤ 8190)
    (fits : ∀ envelope ∈ calls.flatMap (fun entry => entry.2.heard), Frame.Fits envelope)
    (kept : diary.engine.WellKept (.ofWire diary.engine.replicas)) :
    (diary.after calls).engine.WellKept (.ofWire diary.engine.replicas) ∧
      (diary.after calls).engine.replicas = diary.engine.replicas ∧
        (diary.after calls).engine.self = diary.engine.self := by
  induction calls generalizing diary with
  | nil => exact ⟨kept, rfl, rfl⟩
  | cons entry rest ih =>
      rw [List.flatMap_cons, List.forall_mem_append] at fits
      obtain ⟨replicas, self⟩ := @Engine.answer_place diary.engine entry.1 entry.2
      have next := (@Engine.WellKept.answer diary.engine entry.1 kept small entry.2 fits.1).1
      rw [← replicas] at small next ⊢
      rw [← self]
      exact ih (diary.call entry.1 entry.2) small fits.2 next

/-- Whatever a replica has heard from frames, its next answer broadcasts only what survives the
wire and what no replica of the roster finds fault with, and as a proof only that of its view. -/
theorem broadcasts_survive_the_wire {replicas : Nat} (position : Fin replicas)
    (timers : TimerPair) (calls : List (Int × Call)) (now : Int) (call : Call)
    (small : replicas / 2 + 1 ≤ 8190)
    (decoded : ∀ envelope ∈ (calls ++ [(now, call)]).flatMap (fun entry => entry.2.heard),
      ∃ bytes size, Frame.decode? bytes = some ⟨envelope, size⟩) :
    let step := ((opening position timers).after calls).engine.answer now call
    ∀ message, .broadcast message ∈ step.events →
      (∃ frame, Frame.encode ⟨position.val, message⟩ = .ok frame ∧
        Frame.decode? frame = some ⟨⟨position.val, message⟩, frame.length⟩) ∧
      (∀ (receiver : Engine) (halts : Int → Bool) (instant : Int),
        receiver.replicas = replicas →
          (receiver.receive halts instant ⟨position.val, message⟩).outcome.Heeds halts) ∧
      ∀ view attestations, message = .viewProof view attestations →
        view = step.engine.view ∧ 0 < view ∧ view % replicas = position.val := by
  intro step message broadcast
  have fits : ∀ envelope ∈ (calls ++ [(now, call)]).flatMap (fun entry => entry.2.heard),
      Frame.Fits envelope := by
    intro envelope heard
    obtain ⟨bytes, size, read⟩ := decoded envelope heard
    exact .of_decode? read
  rw [List.flatMap_append, List.forall_mem_append, List.flatMap_singleton] at fits
  have few : quorumSize (replicas : Int) ≤ 8190 := by
    rw [quorumSize_natCast]
    exact Int.ofNat_le.2 small
  have fresh : (Engine.ofPosition position timers).WellKept (.ofWire replicas) :=
    Engine.WellKept.fresh (Engine.ofPosition position timers) timers
  obtain ⟨kept, sameRoster, sameSelf⟩ :=
    wellKept_after calls (opening position timers) few fits.1 fresh
  change _ = (replicas : Int) at sameRoster
  change _ = (position.val : Int) at sameSelf
  have seated := ((opening position timers).after calls).engine.seated
  have answered := @Engine.WellKept.answer ((opening position timers).after calls).engine now
  have announces := @Engine.answer_announces ((opening position timers).after calls).engine now call
  rw [sameRoster] at answered
  rw [sameRoster, sameSelf] at seated announces
  have sanctioned := (answered kept few call fits.2).2 message broadcast
  rw [sameSelf] at sanctioned
  refine ⟨(sanctioned.fits few seated).survives, ?_, ?_⟩
  · intro receiver halts instant same
    rw [← same] at seated sanctioned
    exact sanctioned.heeded seated
  · rintro view attestations rfl
    obtain ⟨current, leads⟩ := announces broadcast
    obtain ⟨certificate, carries, -⟩ := sanctioned
    refine ⟨current, carries.later, ?_⟩
    rwa [leaderOf, Int.tmod_eq_emod_of_nonneg carries.writable.1] at leads

/-- Replica 1 of 4 is shown a proof of view 5 in which a sender is named twice and strangers are
named besides. It leads that view and announces it again when the proof timer fires. -/
theorem broadcasts_survive_the_wire_of_padded_proof :
    let proof : Message := .viewProof 5 [⟨3, 5⟩, ⟨0, 5⟩, ⟨70, 8⟩, ⟨0, 9⟩, ⟨1, 3⟩, ⟨2, 6⟩]
    let merged : Message := .viewProof 5 [⟨0, 9⟩, ⟨1, 3⟩, ⟨2, 6⟩, ⟨3, 5⟩, ⟨70, 8⟩]
    let calls : List (Int × Call) := [(0, .start), (7, .receive ⟨2, proof⟩)]
    let step := ((opening (1 : Fin 4) ⟨100, 30, by decide, by decide, {}, {}⟩).after
      calls).engine.answer 37 .proofTimeout
    (4 / 2 + 1 ≤ 8190 ∧
      ∀ envelope ∈
          (calls ++ [((37 : Int), Call.proofTimeout)]).flatMap (fun entry => entry.2.heard),
        ∃ bytes size, Frame.decode? bytes = some ⟨envelope, size⟩) ∧
      .broadcast merged ∈ step.events ∧
      (∃ frame, Frame.encode ⟨1, merged⟩ = .ok frame ∧
        Frame.decode? frame = some ⟨⟨1, merged⟩, frame.length⟩) ∧
      (∀ (receiver : Engine) (halts : Int → Bool) (instant : Int), receiver.replicas = 4 →
        (receiver.receive halts instant ⟨1, merged⟩).outcome.Heeds halts) ∧
      5 = step.engine.view := by
  intro proof merged calls step
  have small : 4 / 2 + 1 ≤ 8190 := by decide
  have decoded : ∀ envelope ∈
      (calls ++ [((37 : Int), Call.proofTimeout)]).flatMap (fun entry => entry.2.heard),
      ∃ bytes size, Frame.decode? bytes = some ⟨envelope, size⟩ := by
    intro envelope heard
    rw [List.mem_singleton.1 heard]
    exact ⟨(Frame.encode ⟨2, proof⟩).toOption.getD [], 68, by decide +kernel⟩
  have broadcast : .broadcast merged ∈ step.events := by decide +kernel
  obtain ⟨survives, heeded, current⟩ :=
    broadcasts_survive_the_wire 1 _ calls 37 .proofTimeout small decoded merged broadcast
  exact ⟨⟨small, decoded⟩, broadcast, survives, heeded, (current 5 _ rfl).1⟩

end Diary

end ViewSync
