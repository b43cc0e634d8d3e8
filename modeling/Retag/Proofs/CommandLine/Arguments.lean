import Retag.CommandLine.Arguments
import Retag.Proofs.Results

/-! Arguments on the command line. The long name of an option with a value behind an equals sign gives the option this
    value, whatever the value looks like; and what stands behind the word of a command is the command's. -/

namespace Retag.CommandLine

variable {c : Command} {f : Flag} {words : List String} {a : Arguments}

/-! ### Words -/

/-- A word is cut at its first equals sign. --/
theorem splitValue_append {name : List Char} (h : '=' ∉ name) (value : List Char) :
    splitValue (name ++ '=' :: value) = (name, some value) := by
  have hp : ∀ c ∈ name, decide (c ≠ '=') = true := fun c hc => by
    have : c ≠ '=' := fun he => h (he ▸ hc)
    simpa using this
  simp only [splitValue, List.dropWhile_append_of_pos hp, List.takeWhile_append_of_pos hp]
  simp

/-- No long name of an option starts with the one of another. --/
theorem candidates_long (h : f ∈ c.flags) : candidates c.flags f.long.toList = [f] := by
  revert h
  cases c <;> cases f <;> decide

theorem toList_long (f : Flag) : ∃ cs, f.long.toList = '-' :: '-' :: cs ∧ '=' ∉ f.long.toList := by
  cases f <;> exact ⟨_, rfl, by decide⟩

theorem toList_valued (f : Flag) (value : String) :
    (f.long ++ "=" ++ value).toList = f.long.toList ++ '=' :: value.toList := by
  simp

/-- The long name of an option with a value behind an equals sign is the option with this value. --/
theorem read_valued (h : f ∈ c.flags) (value : String) :
    read c.flags (f.long ++ "=" ++ value) = .ok (.flag f (some value)) := by
  obtain ⟨cs, hlong, hequals⟩ := toList_long f
  have hword := toList_valued f value
  have hsplit := splitValue_append hequals value.toList
  have hcandidates := candidates_long h
  rw [hlong] at hword hsplit hcandidates
  simp only [List.cons_append] at hword hsplit
  simp only [read, hword, hsplit, hcandidates, Option.map_some, String.ofList_toList]

theorem valued_ne_separator (f : Flag) (value : String) : f.long ++ "=" ++ value ≠ "--" := by
  intro h
  have hmem : '=' ∈ (f.long ++ "=" ++ value).toList := by
    rw [toList_valued]
    exact List.mem_append_right _ List.mem_cons_self
  rw [h] at hmem
  exact absurd hmem (by decide)

theorem readAll_valued (h : f ∈ c.flags) (value : String) (rest : List String) :
    readAll c.flags ((f.long ++ "=" ++ value) :: rest) =
      (readAll c.flags rest).map (.flag f (some value) :: ·) := by
  rw [readAll, if_neg (valued_ne_separator f value), read_valued h]
  cases readAll c.flags rest <;> rfl

/-! ### Commands -/

/-- Words that a command takes up in full, behind its own word, are its arguments. --/
theorem arguments_of_command (h : ofCommand c words = .ok (a, [])) : arguments (c.word :: words) = .ok a := by
  have hword : c.word ≠ "--" := by cases c <;> decide
  have hread : read [.help] c.word = .ok (.operand c.word) := by cases c <;> rfl
  simp only [arguments, argumentsFrom, if_neg hword, hread, ofOperand, Command.ofWord?_word, h, ok_bind]
  rfl

/-- A patch whose version stands behind an equals sign, whatever it is. --/
theorem arguments_versionWord (version : String) :
    arguments ["pre-commit", "--version=" ++ version] = .ok { command := .patch, version := .ofValue version } := by
  have hword : "--version=" = Flag.version.long ++ "=" := by decide
  have hgiven : Operand.ofValue version ≠ .absent := by
    unfold Operand.ofValue
    split
    · simp
    · simp
  change arguments [Command.patch.word, _] = _
  refine arguments_of_command ?_
  rw [hword, ofCommand, readAll_valued (by decide)]
  simp [readAll, collect, Flag.takesValue, Arguments.set, hgiven]

end Retag.CommandLine
