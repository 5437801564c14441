import Mathlib.Data.List.Forall2
import ViewSync.Transport

/-!
How peers are found.

A transport binds its sockets and then looks its peers up one after the other, each of them until it
is found or the attempts are used up. The machine counts the lookups of every host for itself, so
that the attempts at one host are not used up by another. On two machines that differ in the lookups
of one host only, all peers with other hosts are found or not found alike.
-/

namespace ViewSync

def Address.named (peer : Address) : Address :=
  { peer with host := peer.host.terminated }

/-! ### Lookups -/

namespace Machine

def answers (machine : Machine) (host : Bytes) (more : Nat) : Bool :=
  !lookupFails machine.conditions host (machine.lookups.getD host 0 + more)

theorem count_lookUp (machine : Machine) (host other : Bytes) :
    (machine.lookUp host).2.lookups.getD other 0 =
      if host = other then machine.lookups.getD host 0 + 1 else machine.lookups.getD other 0 := by
  change (machine.lookups.insert host _).getD other 0 = _
  rw [Std.ExtTreeMap.getD_insert]
  simp only [Std.compare_eq_iff_eq]

/-- No time has passed, and nothing has been laid down anew or looked up. -/
structure AtOnce (before after : Machine) : Prop where
  conditions : after.conditions = before.conditions
  clock : after.now = before.now
  lookups : after.lookups = before.lookups

theorem AtOnce.refl (machine : Machine) : machine.AtOnce machine :=
  ⟨rfl, rfl, rfl⟩

theorem AtOnce.trans {first second third : Machine} (earlier : first.AtOnce second)
    (later : second.AtOnce third) : first.AtOnce third where
  conditions := later.conditions.trans earlier.conditions
  clock := later.clock.trans earlier.clock
  lookups := later.lookups.trans earlier.lookups

theorem atOnce_bind (machine : Machine) (port : Nat) :
    machine.AtOnce (machine.bind port).2 := by
  unfold bind
  dsimp only
  split
  · exact ⟨rfl, rfl, rfl⟩
  · split
    · exact ⟨rfl, rfl, rfl⟩
    · split
      · exact ⟨rfl, rfl, rfl⟩
      · exact ⟨rfl, rfl, rfl⟩

structure AsksOnly (host : Bytes) (before after : Machine) : Prop where
  conditions : after.conditions = before.conditions
  others : ∀ other, other ≠ host →
    after.lookups.getD other 0 = before.lookups.getD other 0

structure Alike (apart : Bytes) (first second : Machine) : Prop where
  fails : ∀ host, host ≠ apart → ∀ earlier,
    lookupFails second.conditions host earlier = lookupFails first.conditions host earlier
  counts : ∀ host, host ≠ apart →
    second.lookups.getD host 0 = first.lookups.getD host 0

section Lookups

variable {apart host : Bytes} {first second machine : Machine}

theorem AsksOnly.trans {third : Machine} (earlier : first.AsksOnly host second)
    (later : second.AsksOnly host third) : first.AsksOnly host third where
  conditions := later.conditions.trans earlier.conditions
  others other different := (later.others other different).trans (earlier.others other different)

theorem asksOnly_lookUp (machine : Machine) (host : Bytes) :
    machine.AsksOnly host (machine.lookUp host).2 where
  conditions := rfl
  others other different := by
    rw [count_lookUp, if_neg different.symm]

theorem answers_lookUp (machine : Machine) (host : Bytes) (more : Nat) :
    (machine.lookUp host).2.answers host more = machine.answers host (more + 1) := by
  rw [answers, answers, count_lookUp, if_pos rfl, Nat.add_assoc, Nat.add_comm 1 more]
  rfl

theorem Alike.answers (alike : first.Alike apart second) (different : host ≠ apart)
    (more : Nat) : second.answers host more = first.answers host more := by
  rw [Machine.answers, Machine.answers, alike.counts host different,
    alike.fails host different]

theorem Alike.lookUp (alike : first.Alike apart second) (different : host ≠ apart) :
    (first.lookUp host).2.Alike apart (second.lookUp host).2 where
  fails := alike.fails
  counts other apartFrom := by
    rw [count_lookUp, count_lookUp, alike.counts host different, alike.counts other apartFrom]

theorem Alike.aside {firstAfter secondAfter : Machine} (alike : first.Alike apart second)
    (one : first.AsksOnly apart firstAfter) (other : second.AsksOnly apart secondAfter) :
    firstAfter.Alike apart secondAfter where
  fails := by
    rw [one.conditions, other.conditions]
    exact alike.fails
  counts host different := by
    rw [one.others host different, other.others host different]
    exact alike.counts host different

end Lookups

end Machine

namespace Transport

section Resolution

variable {apart host : Bytes} {retry : Int} {attempts : Nat} {machine : Machine}

theorem lookUp_succ (host : Bytes) (retry : Int) (attempts : Nat) (machine : Machine) :
    lookUp host retry (attempts + 1) machine =
      if machine.answers host 0 = true then (true, (machine.lookUp host).2)
      else if attempts = 0 then (false, (machine.lookUp host).2)
      else lookUp host retry attempts ((machine.lookUp host).2.sleep retry) :=
  rfl

/-- A host is found if one of the attempts succeeds. -/
theorem lookUp_found (host : Bytes) (retry : Int) (attempts : Nat) (machine : Machine) :
    (lookUp host retry attempts machine).1 = true ↔
      ∃ attempt < attempts, machine.answers host attempt = true := by
  induction attempts generalizing machine with
  | zero => simp [lookUp]
  | succ attempts ih =>
      rw [lookUp_succ]
      by_cases found : machine.answers host 0 = true
      · rw [if_pos found]
        exact iff_of_true rfl ⟨0, Nat.succ_pos attempts, found⟩
      · rw [if_neg found]
        have later : (∃ attempt < attempts + 1, machine.answers host attempt = true) ↔
            ∃ attempt < attempts, machine.answers host (attempt + 1) = true := by
          constructor
          · rintro ⟨attempt, within, succeeds⟩
            cases attempt with
            | zero => exact absurd succeeds found
            | succ attempt => exact ⟨attempt, Nat.lt_of_succ_lt_succ within, succeeds⟩
          · rintro ⟨attempt, within, succeeds⟩
            exact ⟨attempt + 1, Nat.succ_lt_succ within, succeeds⟩
        rw [later]
        split
        · next last => simp [last]
        · rw [ih]
          refine exists_congr fun attempt => and_congr_right fun _ => ?_
          rw [← machine.answers_lookUp]
          rfl

theorem lookUp_asksOnly (host : Bytes) (retry : Int) (attempts : Nat) (machine : Machine) :
    machine.AsksOnly host (lookUp host retry attempts machine).2 := by
  induction attempts generalizing machine with
  | zero => exact ⟨rfl, fun _ _ => rfl⟩
  | succ attempts ih =>
      have asked := machine.asksOnly_lookUp host
      rw [lookUp_succ]
      split
      · exact asked
      · split
        · exact asked
        · have slept : (machine.lookUp host).2.AsksOnly host
              ((machine.lookUp host).2.sleep retry) := ⟨rfl, fun _ _ => rfl⟩
          exact (asked.trans slept).trans (ih _)

theorem lookUp_alike {first second : Machine} (alike : first.Alike apart second)
    (different : host ≠ apart) (retry : Int) (attempts : Nat) :
    (lookUp host retry attempts second).1 = (lookUp host retry attempts first).1 ∧
      (lookUp host retry attempts first).2.Alike apart (lookUp host retry attempts second).2 := by
  induction attempts generalizing first second with
  | zero => exact ⟨rfl, alike⟩
  | succ attempts ih =>
      have asked := alike.lookUp different
      rw [lookUp_succ, lookUp_succ, alike.answers different]
      split
      · exact ⟨rfl, asked⟩
      · split
        · exact ⟨rfl, asked⟩
        · exact ih ⟨asked.fails, asked.counts⟩

theorem resolve_cons (persistence : Persistence) (peer : Address) (rest : List Address)
    (machine : Machine) :
    resolve persistence (peer :: rest) machine =
      ((if (lookUp peer.host persistence.retry persistence.attempts machine).1 then some peer
          else none) ::
          (resolve persistence rest
            (lookUp peer.host persistence.retry persistence.attempts machine).2).1,
        (resolve persistence rest
          (lookUp peer.host persistence.retry persistence.attempts machine).2).2) :=
  rfl

theorem resolve_append (persistence : Persistence) (earlier later : List Address)
    (machine : Machine) :
    resolve persistence (earlier ++ later) machine =
      ((resolve persistence earlier machine).1 ++
          (resolve persistence later (resolve persistence earlier machine).2).1,
        (resolve persistence later (resolve persistence earlier machine).2).2) := by
  induction earlier generalizing machine with
  | nil => rfl
  | cons peer rest ih =>
      rw [List.cons_append, resolve_cons, ih]
      rfl

theorem length_resolve (persistence : Persistence) (peers : List Address) (machine : Machine) :
    (resolve persistence peers machine).1.length = peers.length := by
  induction peers generalizing machine with
  | nil => rfl
  | cons peer rest ih => exact congrArg (· + 1) (ih _)

theorem resolve_conditions (persistence : Persistence) (peers : List Address)
    (machine : Machine) :
    (resolve persistence peers machine).2.conditions = machine.conditions := by
  induction peers generalizing machine with
  | nil => rfl
  | cons peer rest ih => exact (ih _).trans (lookUp_asksOnly _ _ _ machine).conditions

/-- Looking up some hosts does not use up attempts at another. -/
theorem resolve_answers (persistence : Persistence) {peers : List Address}
    (others : ∀ peer ∈ peers, peer.host ≠ host) (machine : Machine) (attempt : Nat) :
    (resolve persistence peers machine).2.answers host attempt = machine.answers host attempt := by
  have count : (resolve persistence peers machine).2.lookups.getD host 0 =
      machine.lookups.getD host 0 := by
    induction peers generalizing machine with
    | nil => rfl
    | cons peer rest ih =>
        have asked := lookUp_asksOnly peer.host persistence.retry persistence.attempts machine
        have later := ih (fun other later => others other (List.mem_cons_of_mem peer later))
          (lookUp peer.host persistence.retry persistence.attempts machine).2
        exact later.trans (asked.others host (others peer List.mem_cons_self).symm)
  rw [Machine.answers, Machine.answers, count, resolve_conditions]

/-- Each peer is found or not by the attempts that begin when its turn comes. -/
theorem getElem?_resolve (persistence : Persistence) (earlier : List Address) (peer : Address)
    (later : List Address) (machine : Machine) :
    (resolve persistence (earlier ++ peer :: later) machine).1[earlier.length]? =
      some (if ∃ attempt < persistence.attempts,
          (resolve persistence earlier machine).2.answers peer.host attempt = true
        then some peer else none) := by
  have place := length_resolve persistence earlier machine
  rw [resolve_append, List.getElem?_append_right (Nat.le_of_eq place), place, Nat.sub_self]
  rw [resolve_cons, List.getElem?_cons_zero]
  simp only [lookUp_found]

/-- What two machines with unlike lookups of one host make of a peer: the same, or if its target
is the one set apart, whatever it may be. -/
def AlikeBut (target : Bytes) (one other : Option Address) : Prop :=
  one = other ∨ ∀ address, some address = one ∨ some address = other → address.toBytes = target

theorem resolve_alike (persistence : Persistence) {target : Bytes} {peers : List Address}
    {first second : Machine} (alike : first.Alike apart second)
    (own : ∀ peer ∈ peers, peer.host = apart → peer.toBytes = target) :
    List.Forall₂ (AlikeBut target) (resolve persistence peers first).1
      (resolve persistence peers second).1 := by
  induction peers generalizing first second with
  | nil => exact .nil
  | cons peer rest ih =>
      have ownRest := fun other later => own other (List.mem_cons_of_mem peer later)
      by_cases mine : peer.host = apart
      · have one := lookUp_asksOnly peer.host persistence.retry persistence.attempts first
        have other := lookUp_asksOnly peer.host persistence.retry persistence.attempts second
        refine .cons (.inr ?_) (ih (alike.aside (mine ▸ one) (mine ▸ other)) ownRest)
        have target := own peer List.mem_cons_self mine
        rintro address (found | found)
        · split at found
          · cases found
            exact target
          · cases found
        · split at found
          · cases found
            exact target
          · cases found
      · obtain ⟨found, after⟩ :=
          lookUp_alike alike mine persistence.retry persistence.attempts
        refine .cons (.inl ?_) (ih after ownRest)
        rw [found]

end Resolution

/-! ### Setting up -/

theorem atOnce_bindBoth (machine : Machine) (port : Nat) :
    machine.AtOnce (bindBoth machine port).2 := by
  have first := machine.atOnce_bind port
  unfold bindBoth
  cases inbound : machine.bind port with
  | mk binding after =>
      rw [inbound] at first
      cases binding with
      | noSocket => exact first
      | refused refusal => exact ⟨first.conditions, first.clock, first.lookups⟩
      | bound socket =>
          have both := first.trans (after.atOnce_bind (portAfter port))
          dsimp only
          cases outbound : after.bind (portAfter port) with
          | mk other last =>
              rw [outbound] at both
              cases other with
              | noSocket => exact ⟨both.conditions, both.clock, both.lookups⟩
              | refused refusal => exact ⟨both.conditions, both.clock, both.lookups⟩
              | bound socket => exact both

theorem setUp_eq_ok_iff {machine after : Machine} {self : Int} {peers : List Address} {port : Nat}
    {persistence : Persistence} {transport : Transport} :
    setUp machine self peers port persistence = (.ok transport, after) ↔
      (0 ≤ self ∧ self < peers.length) ∧
      ∃ inboundSocket outboundSocket bound,
        bindBoth machine port = (.ok (inboundSocket, outboundSocket), bound) ∧
        transport =
          { self, inboundSocket, outboundSocket
            peers := (resolve persistence (peers.map Address.named) bound).1 } ∧
        after = (resolve persistence (peers.map Address.named) bound).2 := by
  unfold setUp
  by_cases outside : self < 0 ∨ (peers.length : Int) ≤ self
  · rw [if_pos outside]
    refine iff_of_false (fun made => by cases made) ?_
    rintro ⟨seated, -⟩
    omega
  · rw [if_neg outside]
    have seated : 0 ≤ self ∧ self < peers.length := by omega
    rw [and_iff_right seated]
    cases bindBoth machine port with
    | mk result bound =>
        cases result with
        | error error =>
            refine iff_of_false (fun made => by cases made) ?_
            rintro ⟨_, _, _, failed, -⟩
            cases failed
        | ok sockets =>
            constructor
            · intro made
              cases made
              exact ⟨_, _, _, rfl, rfl, rfl⟩
            · rintro ⟨inboundSocket, outboundSocket, other, same, rfl, rfl⟩
              cases same
              rfl

theorem getElem?_setUp {machine after : Machine} {self : Int} {earlier later : List Address}
    {peer : Address} {port : Nat} {persistence : Persistence} {transport : Transport}
    (made : setUp machine self (earlier ++ peer :: later) port persistence =
      (.ok transport, after)) :
    transport.peers[earlier.length]? =
      some (if ∃ attempt < persistence.attempts,
          (resolve persistence (earlier.map Address.named) (bindBoth machine port).2).2.answers
            peer.named.host attempt = true
        then some peer.named else none) := by
  obtain ⟨-, _, _, bound, sockets, found, -⟩ := setUp_eq_ok_iff.1 made
  have entry := getElem?_resolve persistence (earlier.map Address.named) peer.named
    (later.map Address.named) bound
  rw [List.length_map] at entry
  rw [found, sockets, List.map_append, List.map_cons]
  exact entry

/-- Neither binding nor the lookups of other hosts use up attempts at a host. -/
theorem answers_of_turn (persistence : Persistence) {earlier : List Address} {host : Bytes}
    (others : ∀ other ∈ earlier, other.named.host ≠ host) (machine : Machine) (port attempt : Nat) :
    (resolve persistence (earlier.map Address.named) (bindBoth machine port).2).2.answers host
      attempt = machine.answers host attempt := by
  have bound := atOnce_bindBoth machine port
  have apart : ∀ other ∈ earlier.map Address.named, other.host ≠ host := by
    intro other listed
    obtain ⟨before, present, rfl⟩ := List.mem_map.1 listed
    exact others before present
  rw [resolve_answers persistence apart, Machine.answers, Machine.answers, bound.conditions,
    bound.lookups]

end Transport

end ViewSync
