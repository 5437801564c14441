import ViewSync.Proofs.Reception
import ViewSync.Proofs.Resolution

/-!
How time passes on a machine.

Whatever a transport asks of its machine, nothing is laid down anew and time does not go back. It
stands still while sockets are bound and messages are sent. Lookups that fail take time, and so does
waiting, though never more than was asked for.
-/

namespace ViewSync

namespace Machine

structure Precedes (before after : Machine) : Prop where
  conditions : after.conditions = before.conditions
  forward : before.now ≤ after.now

theorem Precedes.refl (machine : Machine) : machine.Precedes machine where
  conditions := rfl
  forward := Int.le_refl _

theorem Precedes.trans {first second third : Machine} (earlier : first.Precedes second)
    (later : second.Precedes third) : first.Precedes third where
  conditions := later.conditions.trans earlier.conditions
  forward := Int.le_trans earlier.forward later.forward

theorem AtOnce.precedes {before after : Machine} (same : before.AtOnce after) :
    before.Precedes after where
  conditions := same.conditions
  forward := Int.le_of_eq same.clock.symm

theorem atOnce_send (machine : Machine) (address : Address) (payload : Bytes) :
    machine.AtOnce (machine.send address payload).2 := by
  unfold send
  dsimp only
  split
  · exact ⟨rfl, rfl, rfl⟩
  · exact .refl machine

theorem precedes_sleep (machine : Machine) (millis : Int) :
    machine.Precedes (machine.sleep millis) where
  conditions := rfl
  forward := Int.le_add_of_nonneg_right (Int.le_max_right _ _)

theorem precedes_await (machine : Machine) (timeout : Int) :
    machine.Precedes (machine.await timeout).2 := by
  rcases machine.await_cases timeout with stopped | ⟨waited, patient⟩ | ⟨arrival, rest, -, taken, -⟩
  · rw [stopped]
    exact .refl machine
  · rw [waited]
    exact ⟨rfl, Int.le_add_of_nonneg_right patient⟩
  · rw [taken]
    exact ⟨rfl, Int.le_max_left _ _⟩

theorem await_le (machine : Machine) {timeout : Int} (patient : 0 ≤ timeout) :
    (machine.await timeout).2.now ≤ machine.now + timeout := by
  rcases machine.await_cases timeout with stopped | ⟨waited, -⟩ | ⟨arrival, rest, -, taken, near⟩
  · rw [stopped]
    exact Int.le_add_of_nonneg_right patient
  · exact Int.le_of_eq (congrArg (·.2.now) waited)
  · rw [taken]
    exact Int.max_le.2 ⟨Int.le_add_of_nonneg_right patient, near patient⟩

end Machine

namespace Transport

theorem pollTimeout_eq_iff {millis : Int} (patient : 0 ≤ millis) :
    pollTimeout millis = millis ↔ millis ≤ 2147483647 := by
  rw [pollTimeout, Int.bmod_eq_iff (by decide)]
  omega

theorem atOnce_sendEach (frame : Bytes) (peers : List (Option Address)) (machine : Machine) :
    machine.AtOnce (sendEach frame peers machine).2 := by
  induction peers generalizing machine with
  | nil => exact .refl machine
  | cons peer rest ih =>
      cases peer with
      | none => exact ih machine
      | some address => exact (machine.atOnce_send address frame).trans (ih _)

theorem atOnce_sendTo (transport : Transport) (machine : Machine)
    (peers : List (Option Address)) (message : Message) :
    machine.AtOnce (transport.sendTo machine peers message).2 := by
  unfold sendTo
  split
  · exact .refl machine
  · exact atOnce_sendEach _ peers machine

theorem precedes_lookUp (host : Bytes) (retry : Int) (attempts : Nat) (machine : Machine) :
    machine.Precedes (lookUp host retry attempts machine).2 := by
  induction attempts generalizing machine with
  | zero => exact .refl machine
  | succ attempts ih =>
      have asked : machine.Precedes (machine.lookUp host).2 := ⟨rfl, Int.le_refl _⟩
      unfold lookUp
      dsimp only
      split
      · exact asked
      · split
        · exact asked
        · exact (asked.trans (Machine.precedes_sleep _ retry)).trans (ih _)

theorem precedes_resolve (persistence : Persistence) (peers : List Address) (machine : Machine) :
    machine.Precedes (resolve persistence peers machine).2 := by
  induction peers generalizing machine with
  | nil => exact .refl machine
  | cons peer rest ih => exact (precedes_lookUp _ _ _ machine).trans (ih _)

theorem precedes_setUp {machine after : Machine} {self : Int} {peers : List Address} {port : Nat}
    {persistence : Persistence} {transport : Transport}
    (made : setUp machine self peers port persistence = (.ok transport, after)) :
    machine.Precedes after := by
  obtain ⟨-, _, _, bound, sockets, -, last⟩ := setUp_eq_ok_iff.1 made
  have first := (atOnce_bindBoth machine port).precedes
  rw [sockets] at first
  rw [last]
  exact first.trans (precedes_resolve _ _ _)

theorem precedes_receive (transport : Transport) (machine : Machine) (millis : Int) :
    machine.Precedes (transport.receive machine millis).2.2 := by
  rw [receive_eq]
  split
  · exact .refl machine
  · exact machine.precedes_await _

theorem receive_le {transport : Transport} {millis limit : Int} (machine : Machine)
    (positive : 0 ≤ limit)
    (patient : ∀ timeout, transport.request millis = some timeout →
      0 ≤ timeout ∧ timeout ≤ limit) :
    (transport.receive machine millis).2.2.now ≤ machine.now + limit := by
  rw [receive_eq]
  cases asked : transport.request millis with
  | none => exact Int.le_add_of_nonneg_right positive
  | some timeout =>
      obtain ⟨forward, short⟩ := patient timeout asked
      exact Int.le_trans (machine.await_le forward) (Int.add_le_add_left short machine.now)

end Transport

end ViewSync
