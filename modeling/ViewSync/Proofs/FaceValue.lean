import ViewSync.Proofs.Denotation
import ViewSync.Proofs.Listing

/-!
The ports of a roster that is read.

What a line of a roster tells is said here for every line, and with it which texts are rosters. The
port of an entry is the number that stands after the last colon, if there is no minus sign before
it. A negative number should not be a port at all, but it is read modulo 2^64 before its size is
looked at: so the few that are as far below 2^64 as a port is above nothing are taken for that port.
-/

namespace ViewSync

namespace Roster

open Decimal (Denotes)

/-! ### What lines tell -/

/-- The texts that a port can be read from: they denote the port, or else the negative number that
is 2^64 below it. -/
def PortIn (text : Bytes) (port : Nat) : Prop :=
  1 ≤ port ∧ port ≤ 65534 ∧
    (Denotes text port ∨ Denotes text (port - 18446744073709551616))

inductive Locates (defaultPort : Nat) : Bytes → Address → Prop
  | host {host : Bytes} (noColon : 58 ∉ host) : Locates defaultPort host ⟨host, defaultPort⟩
  | port {host suffix : Bytes} {port : Nat} (present : host ≠ []) (last : 58 ∉ suffix)
      (read : PortIn suffix port) : Locates defaultPort (host ++ 58 :: suffix) ⟨host, port⟩

inductive Tells (defaultPort : Nat) (line : Bytes) : RosterEntry → Prop
  | name {name : Bytes} (words : line.words = [name]) (noRemark : name.head? ≠ some 35) :
      Tells defaultPort line ⟨name, name, defaultPort⟩
  | address {name text : Bytes} {address : Address} (words : line.words = [name, text])
      (noRemark : name.head? ≠ some 35) (locates : Locates defaultPort text address) :
      Tells defaultPort line ⟨name, address⟩

def isSilent (line : Bytes) : Bool :=
  line.words.head?.all (·.head? = some 35)

variable {text line name host suffix : Bytes} {defaultPort number port : Nat}
  {entry : RosterEntry} {roster : Roster}

theorem port?_eq_some_iff : port? text = some port ↔ PortIn text port := by
  unfold port?
  constructor
  · intro accepted
    obtain ⟨number, read, rest⟩ := Option.bind_eq_some_iff.1 accepted
    split at rest
    · next range =>
        cases rest
        obtain ⟨value, denotes, small, same⟩ := Decimal.unsigned?_eq_some_iff.1 read
        have sign : value = port ∨ value = port - 18446744073709551616 := by omega
        refine ⟨range.1, range.2, ?_⟩
        rcases sign with rfl | rfl
        · exact .inl denotes
        · exact .inr denotes
    · cases rest
  · intro read
    obtain ⟨positive, small, denotes⟩ := read
    have unsigned : Decimal.unsigned? text = some port := by
      apply Decimal.unsigned?_eq_some_iff.2
      rcases denotes with face | complement
      · exact ⟨_, face, by omega, by omega⟩
      · exact ⟨_, complement, by omega, by omega⟩
    refine Option.bind_eq_some_iff.2 ⟨port, unsigned, ?_⟩
    exact if_pos ⟨positive, small⟩

theorem readAddress_eq_ok_iff {address : Address} :
    readAddress number defaultPort text = .ok address ↔ Locates defaultPort text address := by
  constructor
  · intro read
    unfold readAddress at read
    by_cases colon : 58 ∈ text
    · obtain ⟨host, suffix, rfl, last⟩ := Bytes.exists_last_colon colon
      rw [Bytes.atLastColon?_append_cons host last] at read
      dsimp only at read
      split at read
      · cases read
      · next port found =>
          split at read
          · cases read
          · next present =>
              cases read
              exact .port present last (port?_eq_some_iff.1 found)
    · rw [Bytes.atLastColon?_eq_none colon] at read
      cases read
      exact .host colon
  · intro locates
    cases locates with
    | host noColon => rw [readAddress, Bytes.atLastColon?_eq_none noColon]
    | @port host suffix port present last read =>
        rw [readAddress, Bytes.atLastColon?_append_cons host last]
        simp only [port?_eq_some_iff.2 read, if_neg present]

theorem readLine_of_tells (tells : Tells defaultPort line entry) (number : Nat) :
    readLine number defaultPort line = .ok (some entry) := by
  cases tells with
  | name words noRemark =>
      rw [readLine, words]
      exact if_neg noRemark
  | @address name text address words noRemark locates =>
      have read : readAddress number defaultPort text = .ok address :=
        readAddress_eq_ok_iff.2 locates
      rw [readLine, words]
      simp only [if_neg noRemark, read]
      rfl

theorem readLine_of_isSilent (silent : isSilent line = true) (number defaultPort : Nat) :
    readLine number defaultPort line = .ok none := by
  unfold isSilent at silent
  unfold readLine
  cases words : line.words with
  | nil => rfl
  | cons name rest =>
      rw [words] at silent
      exact if_pos (of_decide_eq_true silent)

theorem readLine_cases {told : Option RosterEntry}
    (read : readLine number defaultPort line = .ok told) :
    (told = none ∧ isSilent line = true) ∨
      ∃ entry, told = some entry ∧ isSilent line = false ∧ Tells defaultPort line entry := by
  unfold readLine at read
  unfold isSilent
  cases words : line.words with
  | nil =>
      rw [words] at read
      cases read
      exact .inl ⟨rfl, rfl⟩
  | cons name rest =>
      rw [words] at read
      dsimp only at read
      by_cases remark : name.head? = some 35
      · rw [if_pos remark] at read
        cases read
        exact .inl ⟨rfl, decide_eq_true remark⟩
      · rw [if_neg remark] at read
        have spoken : (some name).all (fun name => decide (name.head? = some 35)) = false :=
          decide_eq_false remark
        cases rest with
        | nil =>
            cases read
            exact .inr ⟨_, rfl, spoken, .name words remark⟩
        | cons text others =>
            cases others with
            | cons extra more => cases read
            | nil =>
                dsimp only at read
                cases located : readAddress number defaultPort text with
                | error error =>
                    rw [located] at read
                    cases read
                | ok address =>
                    rw [located] at read
                    cases read
                    exact .inr ⟨_, rfl, spoken,
                      .address words remark (readAddress_eq_ok_iff.1 located)⟩

/-! ### What texts tell -/

theorem tells_of_readLines {lines : List Bytes} {entries : List RosterEntry}
    (read : readLines defaultPort number lines = .ok entries) :
    List.Forall₂ (Tells defaultPort) (lines.filter (!isSilent ·)) entries := by
  induction lines generalizing number entries with
  | nil =>
      cases read
      exact .nil
  | cons line rest ih =>
      rw [readLines] at read
      cases told : readLine number defaultPort line with
      | error error =>
          rw [told] at read
          cases read
      | ok entry =>
          cases others : readLines defaultPort (number + 1) rest with
          | error error =>
              rw [told, others] at read
              cases read
          | ok later =>
              rw [told, others] at read
              cases read
              rcases readLine_cases told with ⟨rfl, silent⟩ | ⟨entry, rfl, spoken, tells⟩
              · rw [List.filter_cons_of_neg (by rw [silent]; decide)]
                exact ih others
              · rw [List.filter_cons_of_pos (by rw [spoken]; rfl)]
                exact .cons tells (ih others)

theorem readLines_of_tells {lines : List Bytes} {entries : List RosterEntry}
    (told : List.Forall₂ (Tells defaultPort) (lines.filter (!isSilent ·)) entries)
    (number : Nat) : readLines defaultPort number lines = .ok entries := by
  induction lines generalizing number entries with
  | nil =>
      cases told
      rfl
  | cons line rest ih =>
      rw [readLines]
      cases silent : isSilent line with
      | true =>
          rw [List.filter_cons_of_neg (by rw [silent]; decide)] at told
          rw [readLine_of_isSilent silent, ih told]
          rfl
      | false =>
          rw [List.filter_cons_of_pos (by rw [silent]; rfl)] at told
          cases told with
          | cons tells later =>
              rw [readLine_of_tells tells, ih later]
              rfl

theorem entries_of_ofEntries {entries : List RosterEntry} (made : ofEntries entries = .ok roster) :
    entries = roster.entries := by
  unfold ofEntries at made
  split at made
  · cases made
  · split at made
    · cases made
    · cases made
      rfl

/-- A text is read as a roster exactly when its lines, but for the silent ones, tell the entries. -/
theorem read_eq_ok_iff : read text defaultPort = .ok roster ↔
    List.Forall₂ (Tells defaultPort) (text.lines.filter (!isSilent ·)) roster.entries := by
  unfold read
  constructor
  · intro accepted
    cases entries : readLines defaultPort 1 text.lines with
    | error error =>
        rw [entries] at accepted
        cases accepted
    | ok told =>
        rw [entries] at accepted
        rw [← entries_of_ofEntries accepted]
        exact tells_of_readLines entries
  · intro told
    rw [readLines_of_tells told]
    exact roster.ofEntries_entries

/-! ### The ports -/

structure Suffixed (line name host suffix : Bytes) : Prop where
  words : line.words = [name, host ++ 58 :: suffix]
  noRemark : name.head? ≠ some 35
  last : 58 ∉ suffix

theorem Suffixed.spoken (suffixed : Suffixed line name host suffix) : isSilent line = false := by
  rw [isSilent, suffixed.words]
  exact decide_eq_false suffixed.noRemark

theorem Locates.port_of_suffix {address : Address} (locates : Locates defaultPort text address)
    (last : 58 ∉ suffix) (whole : text = host ++ 58 :: suffix) :
    ∃ port, address = ⟨host, port⟩ ∧ PortIn suffix port := by
  cases locates with
  | host noColon =>
      rw [whole] at noColon
      exact absurd (List.mem_append_right host List.mem_cons_self) noColon
  | port _ lastToo read =>
      obtain ⟨rfl, rfl⟩ := Bytes.eq_of_last_colon lastToo last whole
      exact ⟨_, rfl, read⟩

/-- A line with a suffix tells an entry only with a port that is read from the suffix. -/
theorem Suffixed.portIn_of_tells (suffixed : Suffixed line name host suffix)
    (tells : Tells defaultPort line entry) :
    ∃ port, entry = ⟨name, host, port⟩ ∧ PortIn suffix port := by
  cases tells with
  | name words => cases words.symm.trans suffixed.words
  | address words _ locates =>
      obtain ⟨rfl, whole⟩ := List.cons.inj (words.symm.trans suffixed.words)
      obtain ⟨port, rfl, read⟩ := locates.port_of_suffix suffixed.last (List.cons.inj whole).1
      exact ⟨port, rfl, read⟩

theorem exists_told {lines : List Bytes} {entries : List RosterEntry}
    (told : List.Forall₂ (Tells defaultPort) lines entries) (listed : line ∈ lines) :
    ∃ entry ∈ entries, Tells defaultPort line entry := by
  induction told with
  | nil => exact absurd listed List.not_mem_nil
  | cons tells _ ih =>
      rcases List.mem_cons.1 listed with rfl | later
      · exact ⟨_, List.mem_cons_self, tells⟩
      · obtain ⟨entry, among, tellsIt⟩ := ih later
        exact ⟨entry, List.mem_cons_of_mem _ among, tellsIt⟩

theorem Suffixed.full (suffixed : Suffixed line name host suffix) :
    ∀ byte ∈ suffix, ¬ isBlank byte = true := by
  have listed : host ++ 58 :: suffix ∈ line.words := by
    rw [suffixed.words]
    exact List.mem_cons_of_mem name List.mem_cons_self
  have whole := Bytes.solid_of_mem_words listed
  intro byte within
  apply whole.full byte
  exact List.mem_append_right host (List.mem_cons_of_mem 58 within)

/-- The port of a suffix is the number that the suffix denotes, unless that is negative. Then it is
that number and 2^64. -/
theorem Suffixed.value_of_port (suffixed : Suffixed line name host suffix)
    (read : PortIn suffix port) : ∃ value : Int, Denotes suffix value ∧
      if suffix.head? = some 45 then value = port - 18446744073709551616 else value = port := by
  obtain ⟨positive, small, face | complement⟩ := read
  · refine ⟨_, face, ?_⟩
    rw [if_neg]
    intro minus
    have := face.not_positive minus
    omega
  · refine ⟨_, complement, ?_⟩
    rw [if_pos (complement.minus_first suffixed.full (by omega))]

/-- Which texts are rosters, line by line, and what their ports are: every suffix of a text that is
read denotes the port of its entry, or else it begins with a minus sign and denotes the negative
number that is 2^64 below that port. -/
theorem ports_are_face_values_or_complements (text : Bytes) (defaultPort : Nat)
    (roster : Roster) :
    (read text defaultPort = .ok roster ↔
      List.Forall₂ (Tells defaultPort) (text.lines.filter (!isSilent ·)) roster.entries) ∧
    (read text defaultPort = .ok roster → ∀ line ∈ text.lines, ∀ name host suffix,
      Suffixed line name host suffix → ∃ (port : Nat) (value : Int),
        ⟨name, host, port⟩ ∈ roster.entries ∧ 1 ≤ port ∧ port ≤ 65534 ∧ Denotes suffix value ∧
          if suffix.head? = some 45 then value = port - 18446744073709551616
          else value = port) := by
  refine ⟨read_eq_ok_iff, ?_⟩
  intro accepted line listed name host suffix suffixed
  have spoken : line ∈ text.lines.filter (!isSilent ·) :=
    List.mem_filter.2 ⟨listed, congrArg (!·) suffixed.spoken⟩
  obtain ⟨entry, among, tells⟩ := exists_told (read_eq_ok_iff.1 accepted) spoken
  obtain ⟨port, rfl, portIn⟩ := suffixed.portIn_of_tells tells
  obtain ⟨value, denotes, sign⟩ := suffixed.value_of_port portIn
  exact ⟨port, value, among, portIn.1, portIn.2.1, denotes, sign⟩

/-- A host with colons and a port with a plus sign and zeros, which is taken at face value. -/
theorem ports_are_face_values_or_complements_of_padded_port :
    let text := Bytes.ofString "# hosts\na ::1:+0080\n"
    ∃ roster, read text 42069 = .ok roster ∧
      ∃ (port : Nat) (value : Int), ⟨[97], [58, 58, 49], port⟩ ∈ roster.entries ∧
        Denotes (Bytes.ofString "+0080") value ∧ value = port := by
  intro text
  let roster : Roster := ⟨[⟨[97], [58, 58, 49], 80⟩], by decide, by decide⟩
  have accepted : read text 42069 = .ok roster := by decide +kernel
  have suffixed : Suffixed (Bytes.ofString "a ::1:+0080") [97] [58, 58, 49]
      (Bytes.ofString "+0080") :=
    ⟨by decide +kernel, by decide, by decide +kernel⟩
  have listed : Bytes.ofString "a ::1:+0080" ∈ text.lines := by decide +kernel
  obtain ⟨port, value, among, -, -, denotes, sign⟩ :=
    (ports_are_face_values_or_complements text 42069 roster).2 accepted _ listed _ _ _ suffixed
  rw [if_neg (by decide +kernel)] at sign
  exact ⟨roster, accepted, port, value, among, denotes, sign⟩

/-- The suffix denotes a number below zero, which is no port, and is taken for port 80. -/
theorem negative_suffix_is_taken_for_port :
    let suffix := Bytes.ofString "-18446744073709551536"
    let line := Bytes.ofString "a h:-18446744073709551536"
    ∃ roster, read line 42069 = .ok roster ∧ line ∈ line.lines ∧ Suffixed line [97] [104] suffix ∧
      roster.entries = [⟨[97], [104], 80⟩] ∧ Denotes suffix (-18446744073709551536) ∧
        ∀ value, Denotes suffix value → ¬ (1 ≤ value ∧ value ≤ 65534) := by
  intro suffix line
  let roster : Roster := ⟨[⟨[97], [104], 80⟩], by decide, by decide⟩
  have accepted : read line 42069 = .ok roster := by decide +kernel
  have suffixed : Suffixed line [97] [104] suffix :=
    ⟨by decide +kernel, by decide, by decide +kernel⟩
  have numeral : Decimal.Numeral (suffix.drop 1) 18446744073709551536 :=
    ⟨by decide +kernel, by decide +kernel, by decide +kernel⟩
  have denotes : Denotes suffix (-18446744073709551536) :=
    .minus (fun _ listed => absurd listed List.not_mem_nil) numeral
  refine ⟨roster, accepted, by decide +kernel, suffixed, rfl, denotes, ?_⟩
  intro value denotesToo range
  have same := denotes.unique denotesToo
  omega

end Roster

end ViewSync
