import ViewSync.Quorum
import ViewSync.Text.Segments

/-!
The roster: the replicas of a cluster in order. The position of an entry is the identifier of its
replica, so every replica must read the same roster.

A roster file has one entry on a line, "name", "name host" or "name host:port". A name alone is
its own host, and a missing port is the default. Blank lines and lines that begin with a number
sign say nothing. The host may hold colons itself: the port follows the last one.
-/

namespace ViewSync

structure Address where
  host : Bytes
  port : Nat
deriving DecidableEq, Repr

structure RosterEntry where
  name : Bytes
  address : Address
deriving DecidableEq, Repr

/-- What is wrong with a roster or its file. Lines are counted from 1. -/
inductive RosterError
  | empty
  | repeated (name : Bytes)
  | trailingWord (line : Nat) (word : Bytes)
  | badPort (line : Nat) (text : Bytes)
  | emptyHost (line : Nat)
deriving DecidableEq, Repr

namespace RosterError

def onLine (line : Nat) (complaint : Bytes) : Bytes :=
  Bytes.ofString "roster line " ++ Decimal.write line ++ Bytes.ofString ": " ++ complaint

def message : RosterError → Bytes
  | .empty => Bytes.ofString "roster is empty"
  | .repeated name => Bytes.ofString "roster lists " ++ name.quoted ++ Bytes.ofString " twice"
  | .trailingWord line word => onLine line (Bytes.ofString "trailing " ++ word.quoted)
  | .badPort line text => onLine line (Bytes.ofString "bad port " ++ text.quoted)
  | .emptyHost line => onLine line (Bytes.ofString "empty host")

end RosterError

/-- The entries of a roster. There is at least one, and no two have the same name. -/
structure Roster where
  entries : List RosterEntry
  entries_ne_nil : entries ≠ []
  names_nodup : (entries.map (·.name)).Nodup
deriving DecidableEq

namespace Roster

def defaultPort : Nat := 42069

/-- The first name that stands in `seen` or earlier in the list. -/
def firstRepeated? (seen : List Bytes) : List Bytes → Option Bytes
  | [] => none
  | name :: rest =>
      if seen.contains name then some name else firstRepeated? (name :: seen) rest

theorem nodup_of_firstRepeated?_eq_none {seen names : List Bytes}
    (none : firstRepeated? seen names = none) : (∀ name ∈ names, name ∉ seen) ∧ names.Nodup := by
  induction names generalizing seen with
  | nil => simp
  | cons name rest ih =>
      unfold firstRepeated? at none
      split at none
      · contradiction
      · rename_i absent
        obtain ⟨apart, nodup⟩ := ih none
        have fresh : name ∉ rest := fun later => apart name later List.mem_cons_self
        refine ⟨fun other member => ?_, List.nodup_cons.2 ⟨fresh, nodup⟩⟩
        rcases List.mem_cons.1 member with rfl | later
        · simpa using absent
        · exact fun old => apart other later (List.mem_cons_of_mem name old)

def ofEntries (entries : List RosterEntry) : Except RosterError Roster :=
  if present : entries = [] then
    .error .empty
  else
    match repetition : firstRepeated? [] (entries.map (·.name)) with
    | some name => .error (.repeated name)
    | none => .ok ⟨entries, present, (nodup_of_firstRepeated?_eq_none repetition).2⟩

def size (roster : Roster) : Nat :=
  roster.entries.length

def entry? (roster : Roster) (replica : Int) : Option RosterEntry :=
  if 0 ≤ replica then roster.entries[replica.toNat]? else none

def indexOf? (roster : Roster) (name : Bytes) : Option (Fin roster.size) :=
  roster.entries.findFinIdx? (·.name = name)

/-- An entry is found under its own name, since no other has it. -/
theorem indexOf?_name (roster : Roster) (position : Fin roster.size) :
    roster.indexOf? (roster.entries.get position).name = some position := by
  apply List.findFinIdx?_eq_some_iff.2
  refine ⟨decide_eq_true rfl, ?_⟩
  intro earlier before same
  have names := roster.names_nodup
  rw [List.Nodup, List.pairwise_map, List.pairwise_iff_getElem] at names
  exact names earlier.val position.val earlier.isLt position.isLt before (of_decide_eq_true same)

theorem indexOf?_eq_none (roster : Roster) {name : Bytes}
    (absent : ∀ entry ∈ roster.entries, entry.name ≠ name) : roster.indexOf? name = none := by
  apply List.findFinIdx?_eq_none_iff.2
  intro entry listed same
  exact absent entry listed (of_decide_eq_true same)

def leader (roster : Roster) (view : Int) : Int :=
  leaderOf view roster.size

def addresses (roster : Roster) : List Address :=
  roster.entries.map (·.address)

/-! ### Reading a roster file -/

/-- The highest port of a replica. The next port must exist too, since replicas send from it. -/
def maxPort : Nat := 65534

def port? (text : Bytes) : Option Nat := do
  let port ← Decimal.unsigned? text
  if 1 ≤ port ∧ port ≤ maxPort then some port else none

def readAddress (line defaultPort : Nat) (text : Bytes) : Except RosterError Address :=
  match text.atLastColon? with
  | none => .ok ⟨text, defaultPort⟩
  | some (host, suffix) =>
      match port? suffix with
      | none => .error (.badPort line suffix)
      | some port => if host = [] then .error (.emptyHost line) else .ok ⟨host, port⟩

def readLine (line defaultPort : Nat) (text : Bytes) : Except RosterError (Option RosterEntry) :=
  match text.words with
  | [] => .ok none
  | name :: rest =>
      if name.head? = some 35 then
        .ok none
      else
        match rest with
        | [] => .ok (some ⟨name, name, defaultPort⟩)
        | [address] => do
            let address ← readAddress line defaultPort address
            .ok (some ⟨name, address⟩)
        | _ :: extra :: _ => .error (.trailingWord line extra)

def readLines (defaultPort : Nat) : Nat → List Bytes → Except RosterError (List RosterEntry)
  | _, [] => .ok []
  | line, text :: rest => do
      let entry ← readLine line defaultPort text
      let entries ← readLines defaultPort (line + 1) rest
      .ok (entry.toList ++ entries)

/-- Reads a roster file. The first line at fault decides the error, and lines come before the
roster as a whole. -/
def read (text : Bytes) (defaultPort : Nat) : Except RosterError Roster := do
  ofEntries (← readLines defaultPort 1 text.lines)

end Roster

end ViewSync
