import ViewSync.Proofs.Cutting
import ViewSync.Roster

/-!
A roster that is written down is read back.

A roster can be written in many ways. Every entry has a line of its own with its name and its
address, blanks may stand around and between the two, and lines that say nothing may stand anywhere.
All replicas have to read the same roster from the same text, whatever their usual port is, since
the position of an entry is the identifier of its replica. So reading is shown to give back the
very roster that was written, for every way to write it.
-/

namespace ViewSync

open Bytes (Gap Solid)

structure RosterEntry.Writable (entry : RosterEntry) : Prop where
  name : Solid entry.name
  noRemark : entry.name.head? ≠ some 35
  host : Solid entry.address.host
  port_positive : 1 ≤ entry.address.port
  port_le : entry.address.port ≤ 65534

instance (entry : RosterEntry) : Decidable entry.Writable :=
  decidable_of_iff
    (Solid entry.name ∧ entry.name.head? ≠ some 35 ∧ Solid entry.address.host ∧
      1 ≤ entry.address.port ∧ entry.address.port ≤ 65534)
    ⟨fun ⟨name, noRemark, host, positive, small⟩ => ⟨name, noRemark, host, positive, small⟩,
      fun ⟨name, noRemark, host, positive, small⟩ => ⟨name, noRemark, host, positive, small⟩⟩

namespace Roster

/-! ### How a roster is written -/

inductive Idle : Bytes → Prop
  | blank (gap : Bytes) (blank : Gap gap) : Idle gap
  | remark (gap words : Bytes) (blank : Gap gap) (whole : 10 ∉ words) : Idle (gap ++ 35 :: words)

inductive Carries (entry : RosterEntry) : Bytes → Prop
  | line (before between after : Bytes) (blankBefore : Gap before) (blankBetween : Gap between)
      (apart : between ≠ []) (blankAfter : Gap after) :
      Carries entry (before ++ (entry.name ++ (between ++ (entry.address.toBytes ++ after))))

/-- Lines that tell the entries, one after the other, and lines that say nothing. -/
inductive Lists : List RosterEntry → List Bytes → Prop
  | done : Lists [] []
  | idle {entries : List RosterEntry} {line : Bytes} {lines : List Bytes} (idle : Idle line)
      (rest : Lists entries lines) : Lists entries (line :: lines)
  | entry {entry : RosterEntry} {entries : List RosterEntry} {line : Bytes} {lines : List Bytes}
      (carries : Carries entry line) (rest : Lists entries lines) :
      Lists (entry :: entries) (line :: lines)

/-- The text is made of lines that list the entries of the roster. The last line is ended like the
others or stops with the text. -/
def WrittenAs (roster : Roster) (text : Bytes) : Prop :=
  ∃ lines, Lists roster.entries lines ∧
    (text = (lines.map (· ++ [10])).flatten ∨ text = [10].intercalate lines)

/-! ### What a line is made of -/

theorem not_mem_gap {gap : Bytes} (blank : Gap gap) : 10 ∉ gap :=
  fun listed => (blank 10 listed).2 rfl

theorem not_mem_solid {text : Bytes} (solid : Solid text) : 10 ∉ text :=
  fun listed => solid.full 10 listed rfl

theorem solid_toBytes {address : Address} (host : Solid address.host) : Solid address.toBytes where
  present := by
    rw [Address.toBytes_eq]
    exact List.append_ne_nil_of_left_ne_nil host.present _
  full byte listed := by
    rw [Address.toBytes_eq, List.mem_append, List.mem_cons] at listed
    rcases listed with named | rfl | written
    · exact host.full byte named
    · decide
    · exact Decimal.not_isBlank_of_isDigit (Decimal.isDigit_of_mem_digits written)

theorem Idle.whole {line : Bytes} (idle : Idle line) : 10 ∉ line := by
  cases idle with
  | blank gap blank => exact not_mem_gap blank
  | remark gap words blank whole =>
      rw [List.mem_append, List.mem_cons, not_or, not_or]
      exact ⟨not_mem_gap blank, by decide, whole⟩

theorem Carries.whole {entry : RosterEntry} {line : Bytes} (writable : entry.Writable)
    (carries : Carries entry line) : 10 ∉ line := by
  cases carries with
  | line before between after blankBefore blankBetween apart blankAfter =>
      simp only [List.mem_append, not_or]
      exact ⟨not_mem_gap blankBefore, not_mem_solid writable.name, not_mem_gap blankBetween,
        not_mem_solid (solid_toBytes writable.host), not_mem_gap blankAfter⟩

theorem Lists.whole {entries : List RosterEntry} {lines : List Bytes}
    (lists : Lists entries lines) (writable : ∀ entry ∈ entries, entry.Writable) :
    ∀ line ∈ lines, 10 ∉ line := by
  induction lists with
  | done => exact fun _ listed => absurd listed List.not_mem_nil
  | idle idle _ ih => exact List.forall_mem_cons.2 ⟨idle.whole, ih writable⟩
  | entry carries _ ih =>
      obtain ⟨first, rest⟩ := List.forall_mem_cons.1 writable
      exact List.forall_mem_cons.2 ⟨carries.whole first, ih rest⟩

theorem Lists.append_blank {entries : List RosterEntry} {lines : List Bytes}
    (lists : Lists entries lines) : Lists entries (lines ++ [[]]) := by
  induction lists with
  | done => exact .idle (.blank [] fun _ listed => absurd listed List.not_mem_nil) .done
  | idle idle _ ih => exact .idle idle ih
  | entry carries _ ih => exact .entry carries ih

/-! ### Reading it -/

theorem port?_digits {port : Nat} (positive : 1 ≤ port) (small : port ≤ 65534) :
    port? (Decimal.digits port) = some port := by
  have read : Decimal.unsigned? (Decimal.digits port) = some port :=
    Decimal.unsigned?_digits (Nat.le_trans small (by decide))
  rw [port?, read]
  exact if_pos ⟨positive, small⟩

/-- An address is read back, though its host may hold colons. -/
theorem readAddress_toBytes {entry : RosterEntry} (writable : entry.Writable)
    (line defaultPort : Nat) :
    readAddress line defaultPort entry.address.toBytes = .ok entry.address := by
  have noColon : 58 ∉ Decimal.digits entry.address.port := by
    intro written
    cases Decimal.isDigit_of_mem_digits written
  have port := port?_digits writable.port_positive writable.port_le
  rw [readAddress, Address.toBytes_eq, Bytes.atLastColon?_append_cons _ noColon]
  simp only [port, if_neg writable.host.present]

theorem readLine_of_idle {text : Bytes} (idle : Idle text) (line defaultPort : Nat) :
    readLine line defaultPort text = .ok none := by
  cases idle with
  | blank gap blank =>
      have nothing : text.words = [] :=
        (congrArg Bytes.words (List.append_nil text)).symm.trans (Bytes.words_gap_append blank [])
      rw [readLine, nothing]
  | remark gap words blank whole =>
      have sign : ¬ isBlank 35 = true := by decide
      obtain ⟨word, others, begins⟩ := Bytes.words_cons_of_not_blank sign _
      rw [readLine, Bytes.words_gap_append blank, begins]
      exact if_pos rfl

theorem words_of_carries {entry : RosterEntry} {text : Bytes} (writable : entry.Writable)
    (carries : Carries entry text) : text.words = [entry.name, entry.address.toBytes] := by
  cases carries with
  | line before between after blankBefore blankBetween apart blankAfter =>
      rw [Bytes.words_gap_append blankBefore, Bytes.words_append_gap_append blankBetween apart,
        Bytes.words_append_gap blankAfter, Bytes.words_of_solid writable.name,
        Bytes.words_of_solid (solid_toBytes writable.host)]
      rfl

theorem readLine_of_carries {entry : RosterEntry} {text : Bytes} (writable : entry.Writable)
    (carries : Carries entry text) (line defaultPort : Nat) :
    readLine line defaultPort text = .ok (some entry) := by
  rw [readLine, words_of_carries writable carries]
  simp only [if_neg writable.noRemark, readAddress_toBytes writable]
  rfl

theorem readLines_of_lists {entries : List RosterEntry} {lines : List Bytes}
    (lists : Lists entries lines) (writable : ∀ entry ∈ entries, entry.Writable)
    (defaultPort line : Nat) : readLines defaultPort line lines = .ok entries := by
  induction lists generalizing line with
  | done => rfl
  | idle idle _ ih =>
      rw [readLines, readLine_of_idle idle, ih writable]
      rfl
  | entry carries _ ih =>
      obtain ⟨first, rest⟩ := List.forall_mem_cons.1 writable
      rw [readLines, readLine_of_carries first carries, ih rest]
      rfl

theorem WrittenAs.lists {roster : Roster} {text : Bytes} (written : roster.WrittenAs text)
    (writable : ∀ entry ∈ roster.entries, entry.Writable) :
    Lists roster.entries text.lines := by
  obtain ⟨lines, lists, rfl | rfl⟩ := written
  · rw [Bytes.lines_flatten (lists.whole writable)]
    exact lists.append_blank
  · have present : lines ≠ [] := by
      rintro rfl
      cases entries : roster.entries with
      | nil => exact roster.entries_ne_nil entries
      | cons first rest =>
          rw [entries] at lists
          cases lists
    rw [Bytes.lines_intercalate present (lists.whole writable)]
    exact lists

/-! ### The roster as a whole -/

theorem firstRepeated?_eq_none {seen names : List Bytes} (apart : ∀ name ∈ names, name ∉ seen)
    (distinct : names.Nodup) : firstRepeated? seen names = none := by
  induction names generalizing seen with
  | nil => rfl
  | cons name rest ih =>
      obtain ⟨fresh, later⟩ := List.nodup_cons.1 distinct
      have unseen : ¬ seen.contains name = true := by
        rw [List.contains_iff_mem]
        exact apart name List.mem_cons_self
      rw [firstRepeated?, if_neg unseen]
      refine ih (fun other listed => ?_) later
      rw [List.mem_cons, not_or]
      refine ⟨?_, apart other (List.mem_cons_of_mem name listed)⟩
      rintro rfl
      exact fresh listed

theorem ofEntries_entries (roster : Roster) : ofEntries roster.entries = .ok roster := by
  have distinct : firstRepeated? [] (roster.entries.map (·.name)) = none :=
    firstRepeated?_eq_none (fun _ _ => List.not_mem_nil) roster.names_nodup
  rw [ofEntries, dif_neg roster.entries_ne_nil]
  split
  · next name repetition => cases distinct.symm.trans repetition
  · rfl

/-- A roster, written in whatever way, is read back as it is, and each of its names is found at its
own position and no other name is found. -/
theorem written_roster_is_read (roster : Roster)
    (writable : ∀ entry ∈ roster.entries, entry.Writable) {text : Bytes}
    (written : roster.WrittenAs text) (defaultPort : Nat) :
    read text defaultPort = .ok roster ∧
      (∀ position : Fin roster.size,
        roster.indexOf? (roster.entries.get position).name = some position) ∧
      ∀ name, (∀ entry ∈ roster.entries, entry.name ≠ name) → roster.indexOf? name = none := by
  refine ⟨?_, roster.indexOf?_name, fun name => roster.indexOf?_eq_none⟩
  rw [read, readLines_of_lists (written.lists writable) writable]
  exact roster.ofEntries_entries

/-- A remark behind a tab, a name with a number sign in it, a host with colons, a blank line, a
carriage return, and a last line that is not ended. -/
theorem written_roster_is_read_of_remarks_and_colons :
    let roster : Roster :=
      ⟨[⟨[97, 35], [58, 58, 49], 65534⟩, ⟨[98, 58], [104], 1⟩], by decide, by decide⟩
    let text : Bytes :=
      [9, 35, 32, 120, 10, 97, 35, 9, 32, 58, 58, 49, 58, 54, 53, 53, 51, 52, 32, 13, 10, 10,
        98, 58, 32, 104, 58, 49]
    (∀ entry ∈ roster.entries, entry.Writable) ∧ roster.WrittenAs text ∧
      read text 42069 = .ok roster ∧ roster.indexOf? [98, 58] = some ⟨1, by decide⟩ ∧
        roster.indexOf? [97] = none := by
  intro roster text
  have writable : ∀ entry ∈ roster.entries, entry.Writable := by decide +kernel
  have written : roster.WrittenAs text := by
    have remark : Idle _ := .remark [9] [32, 120] (by decide +kernel) (by decide +kernel)
    have blank : Idle _ := .blank [] (by decide +kernel)
    have first : Carries ⟨[97, 35], [58, 58, 49], 65534⟩ _ :=
      .line [] [9, 32] [32, 13] (by decide +kernel) (by decide +kernel) (by decide +kernel)
        (by decide +kernel)
    have second : Carries ⟨[98, 58], [104], 1⟩ _ :=
      .line [] [32] [] (by decide +kernel) (by decide +kernel) (by decide +kernel)
        (by decide +kernel)
    refine ⟨_, .idle remark (.entry first (.idle blank (.entry second .done))), .inr ?_⟩
    decide +kernel
  have absent : ∀ entry ∈ roster.entries, entry.name ≠ [97] := by decide +kernel
  obtain ⟨same, found, missed⟩ := roster.written_roster_is_read writable written 42069
  exact ⟨writable, written, same, found ⟨1, by decide⟩, missed [97] absent⟩

end Roster

end ViewSync
