import Mathlib.Logic.Function.Basic
import ViewSync.Proofs.Arrangement
import ViewSync.Proofs.Durations

/-!
The settings of a command line are the last values given on it.

The options are read one after the other, and each replaces what one setting contains. So a setting
contains what the last text for it says, or else what it usually does. The texts that are replaced
later must be good all the same. Nothing else counts: neither how the options are written nor in
which order different ones stand.
-/

namespace ViewSync

theorem TestCase.ofNumber?_eq_some_iff {number : Int} {testCase : TestCase} :
    TestCase.ofNumber? number = some testCase ↔ number = testCase.number := by
  constructor
  · intro found
    unfold TestCase.ofNumber? at found
    split at found <;> cases found <;> rfl
  · intro same
    rw [same]
    cases testCase <;> rfl

namespace CommandLine

open Decimal (Denotes)

/-! ### What settings contain -/

inductive Content
  | text (text : Bytes)
  | testCase (testCase : TestCase)
  | millis (millis : Int)
  | port (port : Nat)
deriving DecidableEq, Repr

def Setting.usual : Setting → Content
  | .name => .text []
  | .roster => .text (Bytes.ofString "hosts")
  | .test => .testCase .normal
  | .progress => .millis 3000
  | .proof => .millis 1000
  | .log => .text []
  | .port => .port 42069

def Settings.content (settings : Settings) : Setting → Content
  | .name => .text settings.name
  | .roster => .text settings.rosterPath
  | .test => .testCase settings.testCase
  | .progress => .millis settings.progressInterval
  | .proof => .millis settings.proofInterval
  | .log => .text settings.logDirectory
  | .port => .port settings.port

/-- The content that a text gives to a setting. Names, paths and directories are taken as they
stand, and a port must leave room for the next one. -/
inductive Gives : Setting → Bytes → Content → Prop
  | name (text : Bytes) : Gives .name text (.text text)
  | roster (text : Bytes) : Gives .roster text (.text text)
  | log (text : Bytes) : Gives .log text (.text text)
  | test {text : Bytes} {testCase : TestCase}
      (denotes : Denotes text testCase.number) : Gives .test text (.testCase testCase)
  | progress {text : Bytes} {length : Int} (means : Means text length) :
      Gives .progress text (.millis (wrap64 length))
  | proof {text : Bytes} {length : Int} (means : Means text length) :
      Gives .proof text (.millis (wrap64 length))
  | port {text : Bytes} {port : Nat} (denotes : Denotes text port) (positive : 1 ≤ port)
      (small : port ≤ 65534) : Gives .port text (.port port)

def Acceptable (pair : Setting × Bytes) : Prop :=
  ∃ content, Gives pair.1 pair.2 content

/-- What a setting contains after all options: the content that the last text for it gives, or else
the usual one. -/
inductive Decides (given : List (Setting × Bytes)) (setting : Setting) : Content → Prop
  | usual (absent : given.reverse.lookup setting = none) : Decides given setting setting.usual
  | last {text : Bytes} {content : Content} (last : given.reverse.lookup setting = some text)
      (gives : Gives setting text content) : Decides given setting content

structure Grants (given : List (Setting × Bytes)) (settings : Settings) : Prop where
  acceptable : ∀ pair ∈ given, Acceptable pair
  decided : ∀ setting, Decides given setting (settings.content setting)
  named : settings.name ≠ []
  positive : 0 < settings.proofInterval
  shorter : settings.proofInterval < settings.progressInterval

/-- Two sequences of options that differ only in the order between different options. -/
def Alike (given others : List (Setting × Bytes)) : Prop :=
  ∀ setting, given.filter (·.1 = setting) = others.filter (·.1 = setting)

/-! ### What values are read -/

theorem denotes_of_readNumber {quantity : Quantity} {text : Bytes} {number : Int}
    (read : readNumber quantity text = .ok number) : Denotes text number := by
  have signed := (readNumber_eq_ok_iff.1 read).1
  exact (Decimal.signed?_eq_some_iff.1 signed).1

/-- A port and the number of a test are far below what does not fit into 64 bits. -/
theorem readNumber_of_denotes {text : Bytes} {number : Nat} (denotes : Denotes text number)
    (small : number ≤ 65534) (quantity : Quantity) : readNumber quantity text = .ok ↑number := by
  have fits : Showable number := by
    unfold Showable
    omega
  have signed := Decimal.signed?_eq_some_iff.2 ⟨denotes, fits⟩
  exact readNumber_eq_ok_iff.2 ⟨signed, Int.natCast_nonneg number⟩

theorem readTestCase_eq_ok_iff {text : Bytes} {testCase : TestCase} :
    readTestCase text = .ok testCase ↔ Denotes text testCase.number := by
  unfold readTestCase
  constructor
  · intro read
    obtain ⟨number, isNumber, rest⟩ := eq_ok_of_bind read
    split at rest
    · next other found =>
        cases rest
        rw [← TestCase.ofNumber?_eq_some_iff.1 found]
        exact denotes_of_readNumber isNumber
    · cases rest
  · intro denotes
    have small : testCase.number ≤ 65534 := by
      cases testCase <;> decide
    have found : TestCase.ofNumber? (testCase.number : Int) = some testCase :=
      TestCase.ofNumber?_eq_some_iff.2 rfl
    rw [readNumber_of_denotes denotes small]
    simp only [bind, Except.bind, found]

theorem readPort_eq_ok_iff {text : Bytes} {port : Nat} :
    readPort text = .ok port ↔ Denotes text port ∧ 1 ≤ port ∧ port ≤ 65534 := by
  unfold readPort
  constructor
  · intro read
    obtain ⟨number, isNumber, rest⟩ := eq_ok_of_bind read
    have denotes := denotes_of_readNumber isNumber
    split at rest
    · next range =>
        cases rest
        obtain ⟨positive, small⟩ := range
        have natural : (number.toNat : Int) = number := Int.toNat_of_nonneg (by omega)
        rw [natural]
        unfold Roster.maxPort at small
        exact ⟨denotes, by omega, by omega⟩
    · cases rest
  · intro both
    obtain ⟨denotes, positive, small⟩ := both
    have range : 1 ≤ (port : Int) ∧ (port : Int) ≤ Roster.maxPort := by
      unfold Roster.maxPort
      omega
    rw [readNumber_of_denotes denotes small]
    exact if_pos range

/-! ### One option -/

namespace Settings

variable {settings after : Settings} {setting : Setting} {text : Bytes} {content : Content}
  {given : List (Setting × Bytes)}

theorem content_usual (setting : Setting) : ({} : Settings).content setting = setting.usual := by
  cases setting <;> rfl

/-- Settings are told apart by what they contain. -/
theorem eq_of_content (same : settings.content = after.content) : settings = after := by
  have each (setting : Setting) : settings.content setting = after.content setting :=
    congrFun same setting
  cases settings
  cases after
  cases each .name
  cases each .roster
  cases each .test
  cases each .progress
  cases each .proof
  cases each .log
  cases each .port
  rfl

theorem content_of_apply (applied : settings.apply (setting, text) = .ok after) :
    ∃ content, Gives setting text content ∧
      after.content = Function.update settings.content setting content := by
  cases setting with
  | name =>
      cases applied
      refine ⟨_, .name text, ?_⟩
      funext other
      cases other <;> rfl
  | roster =>
      cases applied
      refine ⟨_, .roster text, ?_⟩
      funext other
      cases other <;> rfl
  | log =>
      cases applied
      refine ⟨_, .log text, ?_⟩
      funext other
      cases other <;> rfl
  | test =>
      obtain ⟨testCase, read, made⟩ := eq_ok_of_bind applied
      cases made
      refine ⟨_, .test (readTestCase_eq_ok_iff.1 read), ?_⟩
      funext other
      cases other <;> rfl
  | progress =>
      obtain ⟨millis, read, made⟩ := eq_ok_of_bind applied
      obtain ⟨length, means, rfl⟩ := readDuration_eq_ok_iff.1 read
      cases made
      refine ⟨_, .progress means, ?_⟩
      funext other
      cases other <;> rfl
  | proof =>
      obtain ⟨millis, read, made⟩ := eq_ok_of_bind applied
      obtain ⟨length, means, rfl⟩ := readDuration_eq_ok_iff.1 read
      cases made
      refine ⟨_, .proof means, ?_⟩
      funext other
      cases other <;> rfl
  | port =>
      obtain ⟨port, read, made⟩ := eq_ok_of_bind applied
      obtain ⟨denotes, positive, small⟩ := readPort_eq_ok_iff.1 read
      cases made
      refine ⟨_, .port denotes positive small, ?_⟩
      funext other
      cases other <;> rfl

theorem apply_of_gives (settings : Settings) (gives : Gives setting text content) :
    ∃ after, settings.apply (setting, text) = .ok after := by
  cases gives with
  | name | roster | log => exact ⟨_, rfl⟩
  | test denotes =>
      rw [apply, readTestCase_eq_ok_iff.2 denotes]
      exact ⟨_, rfl⟩
  | progress means =>
      rw [apply, readDuration_eq_ok_iff.2 ⟨_, means, rfl⟩]
      exact ⟨_, rfl⟩
  | proof means =>
      rw [apply, readDuration_eq_ok_iff.2 ⟨_, means, rfl⟩]
      exact ⟨_, rfl⟩
  | port denotes positive small =>
      rw [apply, readPort_eq_ok_iff.2 ⟨denotes, positive, small⟩]
      exact ⟨_, rfl⟩

end Settings

variable {setting : Setting} {text : Bytes} {content other : Content}
  {given : List (Setting × Bytes)} {settings : Settings}

theorem wrap64_eq_of_means {length longer : Int} (means : Means text length)
    (meansOther : Means text longer) : wrap64 length = wrap64 longer := by
  have read := readDuration_eq_ok_iff.2 ⟨length, means, rfl⟩
  have readOther := readDuration_eq_ok_iff.2 ⟨longer, meansOther, rfl⟩
  exact Except.ok.inj (read.symm.trans readOther)

theorem Gives.unique (gives : Gives setting text content) (givesOther : Gives setting text other) :
    content = other := by
  cases gives with
  | name | roster | log =>
      cases givesOther
      rfl
  | test denotes =>
      cases givesOther with
      | test denotesOther =>
          have taken := readTestCase_eq_ok_iff.2 denotes
          have takenOther := readTestCase_eq_ok_iff.2 denotesOther
          exact congrArg Content.testCase (Except.ok.inj (taken.symm.trans takenOther))
  | progress means =>
      cases givesOther with
      | progress meansOther => exact congrArg Content.millis (wrap64_eq_of_means means meansOther)
  | proof means =>
      cases givesOther with
      | proof meansOther => exact congrArg Content.millis (wrap64_eq_of_means means meansOther)
  | port denotes =>
      cases givesOther with
      | port denotesOther =>
          have same := denotes.unique denotesOther
          exact congrArg Content.port (Int.ofNat_inj.1 same)

theorem Decides.unique (decides : Decides given setting content)
    (decidesOther : Decides given setting other) : content = other := by
  cases decides with
  | usual absent =>
      cases decidesOther with
      | usual => rfl
      | last found => cases absent.symm.trans found
  | last found gives =>
      cases decidesOther with
      | usual absent => cases absent.symm.trans found
      | last foundOther givesOther =>
          cases found.symm.trans foundOther
          exact gives.unique givesOther

/-! ### The options one after the other -/

theorem decides_nil (setting : Setting) : Decides [] setting setting.usual :=
  .usual rfl

theorem Decides.concat_same (gives : Gives setting text content) :
    Decides (given ++ [(setting, text)]) setting content := by
  refine .last ?_ gives
  rw [Settings.lookup_concat, if_pos rfl]

theorem Decides.concat_of_ne {wanted : Setting} (different : setting ≠ wanted)
    (decides : Decides given wanted content) :
    Decides (given ++ [(setting, text)]) wanted content := by
  have found := Settings.lookup_concat given setting wanted text
  rw [if_neg different] at found
  cases decides with
  | usual absent => exact .usual (found.trans absent)
  | last last gives => exact .last (found.trans last) gives

namespace Settings

theorem decides_of_foldlM (taken : given.foldlM apply {} = .ok settings) :
    (∀ pair ∈ given, Acceptable pair) ∧
      ∀ setting, Decides given setting (settings.content setting) := by
  induction given using List.reverseRecOn generalizing settings with
  | nil =>
      cases taken
      refine ⟨fun _ listed => absurd listed List.not_mem_nil, fun setting => ?_⟩
      rw [content_usual]
      exact decides_nil setting
  | append_singleton earlier last ih =>
      obtain ⟨setting, text⟩ := last
      rw [List.foldlM_append] at taken
      obtain ⟨before, made, rest⟩ := eq_ok_of_bind taken
      obtain ⟨after, applied, same⟩ := eq_ok_of_bind rest
      cases same
      obtain ⟨acceptable, decided⟩ := ih made
      obtain ⟨content, gives, updated⟩ := content_of_apply applied
      refine ⟨?_, fun wanted => ?_⟩
      · intro pair listed
        rcases List.mem_append.1 listed with old | new
        · exact acceptable pair old
        · rw [List.mem_singleton.1 new]
          exact ⟨content, gives⟩
      · rw [updated]
        by_cases same : setting = wanted
        · rw [← same, Function.update_self]
          exact .concat_same gives
        · rw [Function.update_of_ne (Ne.symm same)]
          exact .concat_of_ne same (decided wanted)

theorem exists_foldlM (acceptable : ∀ pair ∈ given, Acceptable pair) (settings : Settings) :
    ∃ after, given.foldlM apply settings = .ok after := by
  induction given generalizing settings with
  | nil => exact ⟨settings, rfl⟩
  | cons pair rest ih =>
      obtain ⟨good, others⟩ := List.forall_mem_cons.1 acceptable
      obtain ⟨content, gives⟩ := good
      obtain ⟨next, applied⟩ := apply_of_gives settings gives
      obtain ⟨after, taken⟩ := ih others next
      refine ⟨after, ?_⟩
      rw [List.foldlM_cons, applied]
      exact taken

theorem foldlM_eq_ok_iff : given.foldlM apply {} = .ok settings ↔
    (∀ pair ∈ given, Acceptable pair) ∧
      ∀ setting, Decides given setting (settings.content setting) := by
  constructor
  · exact decides_of_foldlM
  · intro both
    obtain ⟨acceptable, decided⟩ := both
    obtain ⟨after, taken⟩ := exists_foldlM acceptable {}
    obtain ⟨-, decidedAfter⟩ := decides_of_foldlM taken
    have same : settings = after := by
      apply eq_of_content
      funext setting
      exact (decided setting).unique (decidedAfter setting)
    rw [same]
    exact taken

theorem finished_of_checkEnding {ending : Ending} {checked : Unit}
    (complete : checkEnding ending = .ok checked) : ending = .finished [] := by
  cases ending with
  | finished operands =>
      cases operands with
      | nil => rfl
      | cons stray others => cases complete
  | unusable letter => cases complete
  | unknownWord word => cases complete

theorem ofWords_eq_ok_iff {operands words : List Bytes} (arranges : Arranges given operands words) :
    ofWords words = .ok settings ↔ operands = [] ∧ Grants given settings := by
  have scanned := Scan.ofWords_of_arranges arranges
  unfold ofWords
  rw [scanned]
  constructor
  · intro accepted
    obtain ⟨made, taken, rest⟩ := eq_ok_of_bind accepted
    obtain ⟨_, complete, checked⟩ := eq_ok_of_bind rest
    obtain ⟨same, named, positive, shorter⟩ := check_eq_ok_iff.1 checked
    obtain ⟨acceptable, decided⟩ := foldlM_eq_ok_iff.1 taken
    cases finished_of_checkEnding complete
    rw [same]
    exact ⟨rfl, acceptable, decided, named, positive, shorter⟩
  · intro both
    obtain ⟨none, grants⟩ := both
    have taken := foldlM_eq_ok_iff.2 ⟨grants.acceptable, grants.decided⟩
    have checked := check_eq_ok_iff.2 ⟨rfl, grants.named, grants.positive, grants.shorter⟩
    simp only [none, taken, checkEnding, checked, bind, Except.bind]

/-- The command lines that are accepted are those that are written in one of the ways, without
operands, and ask for some settings. -/
theorem ofCommandLine_eq_ok_iff {program : Bytes} {words : List Bytes} :
    ofCommandLine (program :: words) = .ok settings ↔
      ∃ given, Arranges given [] (words.map Bytes.terminated) ∧ Grants given settings := by
  constructor
  · intro accepted
    obtain ⟨made, -, rest⟩ := eq_ok_of_bind accepted
    obtain ⟨_, complete, -⟩ := eq_ok_of_bind rest
    have whole : (Scan.ofWords (words.map Bytes.terminated)).ending = .finished [] :=
      finished_of_checkEnding complete
    have arranges : Arranges (Scan.ofWords (words.map Bytes.terminated)).given []
        (words.map Bytes.terminated) := by
      apply Scan.arranges_of_ofWords
      rw [← whole]
    exact ⟨_, arranges, ((ofWords_eq_ok_iff arranges).1 accepted).2⟩
  · intro asked
    obtain ⟨given, arranges, grants⟩ := asked
    exact (ofWords_eq_ok_iff arranges).2 ⟨rfl, grants⟩

end Settings

/-! ### The order between different options -/

theorem lookup_filter (given : List (Setting × Bytes)) (setting : Setting) :
    (given.filter (·.1 = setting)).lookup setting = given.lookup setting := by
  induction given with
  | nil => rfl
  | cons pair rest ih =>
      obtain ⟨own, text⟩ := pair
      rw [List.filter_cons]
      by_cases same : own = setting
      · rw [if_pos (decide_eq_true same), same, List.lookup_cons_self, List.lookup_cons_self]
      · have different : (setting == own) = false := beq_false_of_ne (Ne.symm same)
        rw [if_neg (fun found => same (of_decide_eq_true found)), ih, List.lookup_cons, different]

namespace Alike

variable {others : List (Setting × Bytes)}

theorem lookup (alike : Alike given others) (setting : Setting) :
    given.reverse.lookup setting = others.reverse.lookup setting := by
  rw [← lookup_filter, ← lookup_filter others.reverse, List.filter_reverse, List.filter_reverse,
    alike setting]

theorem decides (alike : Alike given others) (decides : Decides given setting content) :
    Decides others setting content := by
  have found := alike.lookup setting
  cases decides with
  | usual absent => exact .usual (found.symm.trans absent)
  | last last gives => exact .last (found.symm.trans last) gives

theorem symm (alike : Alike given others) : Alike others given :=
  fun setting => (alike setting).symm

theorem grants (alike : Alike given others) (grants : Grants given settings) :
    Grants others settings where
  acceptable pair listed := by
    have kept : pair ∈ others.filter (·.1 = pair.1) :=
      List.mem_filter.2 ⟨listed, decide_eq_true rfl⟩
    rw [← alike pair.1] at kept
    exact grants.acceptable pair (List.mem_filter.1 kept).1
  decided setting := alike.decides (grants.decided setting)
  named := grants.named
  positive := grants.positive
  shorter := grants.shorter

end Alike

/-! ### The command line as a whole -/

theorem exists_decided (acceptable : ∀ pair ∈ given, Acceptable pair) :
    ∃! settings : Settings, ∀ setting, Decides given setting (settings.content setting) := by
  obtain ⟨settings, taken⟩ := Settings.exists_foldlM acceptable {}
  have decided := (Settings.decides_of_foldlM taken).2
  refine ⟨settings, decided, fun other decidedOther => ?_⟩
  apply Settings.eq_of_content
  funext setting
  exact (decidedOther setting).unique (decided setting)

/-- A command line is accepted exactly when it has no operands, all its values are good, also those
that are replaced, and the last ones make a name and two intervals of which that of the proofs is
the shorter. The settings are then the last values, and every other command line is refused. So it
makes no difference how the options are written, and the order between different options makes none
to what is accepted. -/
theorem settings_are_last_values (program : Bytes) {operands words : List Bytes}
    (arranges : Arranges given operands (words.map Bytes.terminated)) :
    (∀ settings, Settings.ofCommandLine (program :: words) = .ok settings ↔
      operands = [] ∧ Grants given settings) ∧
    ((∀ pair ∈ given, Acceptable pair) →
      ∃! settings : Settings, ∀ setting, Decides given setting (settings.content setting)) ∧
    (operands ≠ [] ∨ (¬ ∃ settings, Grants given settings) →
      ∃ error, Settings.ofCommandLine (program :: words) = .error error) ∧
    (∀ rewritten, Arranges given operands (rewritten.map Bytes.terminated) →
      Settings.ofCommandLine (program :: rewritten) = Settings.ofCommandLine (program :: words)) ∧
    ∀ shuffled rewritten, Alike given shuffled →
      Arranges shuffled operands (rewritten.map Bytes.terminated) →
        ∀ settings, Settings.ofCommandLine (program :: rewritten) = .ok settings ↔
          Settings.ofCommandLine (program :: words) = .ok settings := by
  have accepted (settings : Settings) :
      Settings.ofCommandLine (program :: words) = .ok settings ↔
        operands = [] ∧ Grants given settings :=
    Settings.ofWords_eq_ok_iff arranges
  refine ⟨accepted, exists_decided, ?_, ?_, ?_⟩
  · intro refused
    cases outcome : Settings.ofCommandLine (program :: words) with
    | error error => exact ⟨error, rfl⟩
    | ok settings =>
        obtain ⟨none, grants⟩ := (accepted settings).1 outcome
        rcases refused with stray | unsound
        · exact absurd none stray
        · exact absurd ⟨settings, grants⟩ unsound
  · intro rewritten arrangesToo
    have scanned := Scan.ofWords_of_arranges arranges
    have scannedToo := Scan.ofWords_of_arranges arrangesToo
    change Settings.ofWords (rewritten.map Bytes.terminated) =
      Settings.ofWords (words.map Bytes.terminated)
    rw [Settings.ofWords, Settings.ofWords, scanned, scannedToo]
  · intro shuffled rewritten alike arrangesToo settings
    have acceptedToo : Settings.ofCommandLine (program :: rewritten) = .ok settings ↔
        operands = [] ∧ Grants shuffled settings :=
      Settings.ofWords_eq_ok_iff arrangesToo
    refine acceptedToo.trans (Iff.trans ?_ (accepted settings).symm)
    exact and_congr_right fun _ => ⟨alike.symm.grants, alike.grants⟩

/-- A name that is replaced, names cut short, a value that looks like an option, and the same with
the options of different settings in another order and all long names in full. -/
theorem settings_are_last_values_of_shuffled_options :
    let word := Bytes.ofString
    let given : List (Setting × Bytes) :=
      [(.name, word "b"), (.proof, word "500ms"), (.log, word "-t"), (.name, word "a"),
        (.port, word "5000")]
    let words := [word "-nb", word "--v", word "500ms", word "-l", word "-t", word "--name=a",
      word "--po=5000"]
    let rewritten := [word "--port", word "5000", word "--log=-t", word "-n", word "b",
      word "-na", word "--vcproof=500ms"]
    ∃ settings : Settings, Grants given settings ∧ settings.name = word "a" ∧
      Settings.ofCommandLine (word "p" :: words) = .ok settings ∧
      Settings.ofCommandLine (word "p" :: rewritten) = .ok settings ∧
      ∃ error, Settings.ofCommandLine (word "p" :: (word "x" :: words)) = .error error := by
  intro word given words rewritten
  let shuffled : List (Setting × Bytes) :=
    [(.port, word "5000"), (.log, word "-t"), (.name, word "b"), (.name, word "a"),
      (.proof, word "500ms")]
  have arranges : Arranges given [] (words.map Bytes.terminated) := by decide +kernel
  have arrangesShuffled : Arranges shuffled [] (rewritten.map Bytes.terminated) := by
    decide +kernel
  have arrangesStray : Arranges given [word "x"] ((word "x" :: words).map Bytes.terminated) := by
    decide +kernel
  have alike : Alike given shuffled := by
    intro setting
    cases setting <;> decide +kernel
  have taken : Settings.ofCommandLine (word "p" :: words) = .ok _ := rfl
  obtain ⟨accepted, -, -, -, reordered⟩ := settings_are_last_values (word "p") arranges
  obtain ⟨-, -, refused, -, -⟩ := settings_are_last_values (word "p") arrangesStray
  refine ⟨_, ((accepted _).1 taken).2, rfl, taken, ?_, ?_⟩
  · exact (reordered shuffled rewritten alike arrangesShuffled _).2 taken
  · exact refused (.inl (List.cons_ne_nil _ _))

end CommandLine

end ViewSync
