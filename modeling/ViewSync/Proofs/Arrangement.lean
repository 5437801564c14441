import Mathlib.Data.List.TakeWhile
import ViewSync.CommandLine.Scan

/-!
The ways to write a command line.

An option can be written in many ways: with its letter or with its long name or a shorter one, and
with the value in the same word or in the next. The options of a command line stand in any order,
and operands stand between them or at the end. Reading takes back what was written, and a command
line that is read to its end was written in one of these ways.
-/

namespace ViewSync.CommandLine

/-! ### What is written -/

structure Abbreviates (setting : Setting) (name : Bytes) : Prop where
  begins : name <+: setting.longName
  alone : ∀ other : Setting, name <+: other.longName → other = setting

/-- The words that give a value to a setting. A value may be in the word of a letter only if there
is something of it. -/
inductive Spells (setting : Setting) (value : Bytes) : List Bytes → Prop
  | letterAttached (present : value ≠ []) : Spells setting value [45 :: setting.letter :: value]
  | letter : Spells setting value [[45, setting.letter], value]
  | nameAttached {name : Bytes} (abbreviates : Abbreviates setting name) :
      Spells setting value [45 :: 45 :: (name ++ 61 :: value)]
  | name {name : Bytes} (abbreviates : Abbreviates setting name) :
      Spells setting value [45 :: 45 :: name, value]

def IsOperand (word : Bytes) : Prop :=
  word.head? ≠ some 45 ∨ word = [45]

instance (word : Bytes) : Decidable (IsOperand word) :=
  inferInstanceAs (Decidable (_ ∨ _))

/-- The words of a command line that gives these values, one after the other, and has these
operands. Whatever follows two hyphens is an operand. -/
inductive Arranges : List (Setting × Bytes) → List Bytes → List Bytes → Prop
  | done : Arranges [] [] []
  | closed (operands : List Bytes) : Arranges [] operands ([45, 45] :: operands)
  | option {setting : Setting} {value : Bytes} {spelling : List Bytes}
      {given : List (Setting × Bytes)} {operands words : List Bytes}
      (spells : Spells setting value spelling) (rest : Arranges given operands words) :
      Arranges ((setting, value) :: given) operands (spelling ++ words)
  | operand {word : Bytes} {given : List (Setting × Bytes)} {operands words : List Bytes}
      (plain : IsOperand word) (rest : Arranges given operands words) :
      Arranges given (word :: operands) (word :: words)

/-! ### Names -/

namespace Setting

variable {setting : Setting} {name : Bytes}

theorem mem_all (setting : Setting) : setting ∈ all := by
  cases setting <;> decide

theorem nodup_all : all.Nodup := by
  decide

theorem eq_of_longName_begins {setting other : Setting}
    (begins : setting.longName <+: other.longName) : other = setting := by
  revert begins
  cases setting <;> cases other <;> decide +kernel

theorem abbreviates_longName (setting : Setting) : Abbreviates setting setting.longName where
  begins := List.prefix_refl _
  alone _ := eq_of_longName_begins

theorem mem_filter_begins {other : Setting} :
    other ∈ all.filter (name.isPrefixOf ·.longName) ↔ name <+: other.longName := by
  rw [List.mem_filter, List.isPrefixOf_iff_prefix]
  exact and_iff_right (mem_all other)

theorem filter_begins_eq_singleton_iff :
    all.filter (name.isPrefixOf ·.longName) = [setting] ↔ Abbreviates setting name := by
  constructor
  · intro filtered
    constructor
    · exact mem_filter_begins.1 (filtered ▸ List.mem_singleton_self setting)
    · intro other begins
      have listed := mem_filter_begins.2 begins
      rw [filtered] at listed
      exact List.mem_singleton.1 listed
  · intro abbreviates
    apply List.perm_singleton.1
    have distinct := nodup_all.filter (name.isPrefixOf ·.longName)
    apply (List.perm_ext_iff_of_nodup distinct (List.pairwise_singleton _ setting)).2
    intro other
    rw [mem_filter_begins, List.mem_singleton]
    constructor
    · exact abbreviates.alone other
    · intro same
      exact same ▸ abbreviates.begins

theorem ofLongName?_eq_some_iff : ofLongName? name = some setting ↔ Abbreviates setting name := by
  rw [← filter_begins_eq_singleton_iff]
  unfold ofLongName?
  cases exact : all.find? (·.longName = name) with
  | some other =>
      -- a name in full begins no other name, so the order of the two searches does not matter
      have matched := List.find?_some exact
      have whole : other.longName = name := of_decide_eq_true matched
      have alone := filter_begins_eq_singleton_iff.2 (abbreviates_longName other)
      rw [whole] at alone
      rw [alone]
      simp only [Option.some.injEq, List.cons.injEq, and_true]
  | none =>
      dsimp only
      constructor
      · intro found
        split at found
        · next only filtered =>
            cases found
            exact filtered
        · cases found
      · intro alone
        rw [alone]

end Setting

/-! ### Words -/

variable {setting : Setting} {name value text word : Bytes}

namespace Abbreviates

/-- There is something of the name, since nothing at all begins every name. -/
theorem present (abbreviates : Abbreviates setting name) : name ≠ [] := by
  intro empty
  have port := abbreviates.alone .port (empty ▸ List.nil_prefix)
  have log := abbreviates.alone .log (empty ▸ List.nil_prefix)
  cases port.trans log.symm

theorem noEquals (abbreviates : Abbreviates setting name) :
    ∀ byte ∈ name, decide (byte ≠ 61) = true := by
  intro byte listed
  have whole : ∀ byte ∈ setting.longName, byte ≠ 61 := by
    cases setting <;> decide +kernel
  exact decide_eq_true (whole byte (abbreviates.begins.subset listed))

end Abbreviates

theorem longShape_name (abbreviates : Abbreviates setting name) :
    longShape name = .needsValue setting := by
  have kept := abbreviates.noEquals
  rw [longShape, List.takeWhile_eq_self_iff.2 kept, List.dropWhile_eq_nil_iff.2 kept,
    Setting.ofLongName?_eq_some_iff.2 abbreviates]

theorem longShape_append (abbreviates : Abbreviates setting name) (value : Bytes) :
    longShape (name ++ 61 :: value) = .option setting value := by
  have kept := abbreviates.noEquals
  rw [longShape, List.takeWhile_append_of_pos kept, List.dropWhile_append_of_pos kept]
  simp [Setting.ofLongName?_eq_some_iff.2 abbreviates]

theorem shape_hyphens (present : text ≠ []) : shape (45 :: 45 :: text) = longShape text := by
  cases text with
  | nil => exact absurd rfl present
  | cons byte rest => rfl

theorem shape_letterAttached (setting : Setting) (present : value ≠ []) :
    shape (45 :: setting.letter :: value) = .option setting value := by
  have read : shape (45 :: setting.letter :: value) = shortShape setting.letter value := by
    cases setting <;> rfl
  have found : Setting.ofLetter? setting.letter = some setting := by
    cases setting <;> rfl
  rw [read, shortShape, found]
  exact if_neg present

theorem shape_letter (setting : Setting) :
    shape [45, setting.letter] = .needsValue setting := by
  cases setting <;> rfl

theorem shape_of_isOperand (plain : IsOperand word) : shape word = .operand := by
  rcases plain with other | alone
  · unfold shape
    split
    · exact absurd rfl other
    · exact absurd rfl other
    · exact absurd rfl other
    · rfl
  · rw [alone]
    rfl

/-! ### What a word tells -/

def Shape.Tells (word : Bytes) : Shape → Prop
  | .operand => IsOperand word
  | .terminator => word = [45, 45]
  | .option setting value => Spells setting value [word]
  | .needsValue setting => ∀ value, Spells setting value [word, value]
  | .unknownLetter _ => True
  | .unknownName => True

theorem longShape_tells (text : Bytes) : (longShape text).Tells (45 :: 45 :: text) := by
  have whole : text.takeWhile (· ≠ 61) ++ text.dropWhile (· ≠ 61) = text :=
    List.takeWhile_append_dropWhile
  unfold longShape
  cases found : Setting.ofLongName? (text.takeWhile (· ≠ 61)) with
  | none => exact trivial
  | some setting =>
      have abbreviates := Setting.ofLongName?_eq_some_iff.1 found
      cases rest : text.dropWhile (· ≠ 61) with
      | nil =>
          rw [rest, List.append_nil] at whole
          rw [whole] at abbreviates
          exact fun value => .name abbreviates
      | cons byte value =>
          have equals : byte = 61 := by
            have stopped := List.head?_dropWhile_not (· ≠ 61) text
            rw [rest] at stopped
            exact Decidable.not_not.1 (of_decide_eq_false stopped)
          rw [rest, equals] at whole
          rw [← whole]
          exact .nameAttached abbreviates

theorem shortShape_tells (letter : UInt8) (value : Bytes) :
    (shortShape letter value).Tells (45 :: letter :: value) := by
  unfold shortShape
  cases found : Setting.ofLetter? letter with
  | none => exact trivial
  | some setting =>
      have matched := List.find?_some found
      have same : setting.letter = letter := of_decide_eq_true matched
      rw [← same]
      dsimp only
      split
      · next empty =>
          rw [empty]
          exact fun value => .letter
      · next present => exact .letterAttached present

theorem shape_tells (word : Bytes) : (shape word).Tells word := by
  unfold shape
  split
  · exact rfl
  · exact longShape_tells _
  · exact shortShape_tells _ _
  · next noHyphens noLong noShort =>
      cases word with
      | nil => exact .inl nofun
      | cons byte rest =>
          by_cases hyphen : byte = 45
          · cases rest with
            | nil => exact .inr (hyphen ▸ rfl)
            | cons letter value => exact absurd (hyphen ▸ rfl) (noShort letter value)
          · exact .inl fun first => hyphen (Option.some.inj first)

namespace Scan

variable {given : List (Setting × Bytes)} {operands words : List Bytes}

theorem ofWords_spelling {spelling : List Bytes} (spells : Spells setting value spelling)
    (words : List Bytes) :
    ofWords (spelling ++ words) = (ofWords words).withOption setting value := by
  cases spells with
  | letterAttached present =>
      rw [List.singleton_append, ofWords, shape_letterAttached setting present]
  | letter => rw [List.cons_append, List.singleton_append, ofWords, shape_letter]
  | nameAttached abbreviates =>
      rw [List.singleton_append, ofWords, shape_hyphens (by simp), longShape_append abbreviates]
  | name abbreviates =>
      rw [List.cons_append, List.singleton_append, ofWords, shape_hyphens abbreviates.present,
        longShape_name abbreviates]

theorem ofWords_of_arranges (arranges : Arranges given operands words) :
    ofWords words = ⟨given, .finished operands⟩ := by
  induction arranges with
  | done => rfl
  | closed operands => rfl
  | option spells _ ih => rw [ofWords_spelling spells, ih, withOption]
  | operand plain _ ih => rw [ofWords, shape_of_isOperand plain, ih, withOperand]

theorem eq_of_withOperand {later : Scan}
    (read : later.withOperand word = ⟨given, .finished operands⟩) :
    ∃ others, operands = word :: others ∧ later = ⟨given, .finished others⟩ := by
  obtain ⟨values, ending⟩ := later
  cases ending with
  | finished others =>
      cases read
      exact ⟨others, rfl, rfl⟩
  | unusable letter => cases read
  | unknownWord word => cases read

theorem eq_of_withOption {later : Scan} {ending : Ending}
    (read : later.withOption setting value = ⟨given, ending⟩) :
    ∃ values, given = (setting, value) :: values ∧ later = ⟨values, ending⟩ := by
  obtain ⟨values, laterEnding⟩ := later
  cases read
  exact ⟨values, rfl, rfl⟩

/-- A command line that is read to its end was written in one of the ways. -/
theorem arranges_of_ofWords (read : ofWords words = ⟨given, .finished operands⟩) :
    Arranges given operands words := by
  fun_induction ofWords words generalizing given operands with
  | case1 =>
      cases read
      exact .done
  | case2 word rest found ih =>
      obtain ⟨others, rfl, later⟩ := eq_of_withOperand read
      have tells := shape_tells word
      rw [found] at tells
      exact .operand tells (ih later)
  | case3 word rest found =>
      cases read
      have tells := shape_tells word
      rw [found] at tells
      rw [tells]
      exact .closed rest
  | case4 word rest setting value found ih =>
      obtain ⟨values, rfl, later⟩ := eq_of_withOption read
      have tells := shape_tells word
      rw [found] at tells
      exact .option tells (ih later)
  | case5 word setting found => cases read
  | case6 word setting found value rest ih =>
      obtain ⟨values, rfl, later⟩ := eq_of_withOption read
      have tells := shape_tells word
      rw [found] at tells
      exact .option (tells value) (ih later)
  | case7 => cases read
  | case8 => cases read

theorem ofWords_eq_iff :
    ofWords words = ⟨given, .finished operands⟩ ↔ Arranges given operands words :=
  ⟨arranges_of_ofWords, ofWords_of_arranges⟩

end Scan

instance (given : List (Setting × Bytes)) (operands words : List Bytes) :
    Decidable (Arranges given operands words) :=
  decidable_of_iff _ Scan.ofWords_eq_iff

end ViewSync.CommandLine
