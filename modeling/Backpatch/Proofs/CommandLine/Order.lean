import Backpatch.CommandLine.Shell
import Backpatch.Proofs.CommandLine.Arguments
import Mathlib.Data.List.Basic

/-!
# The order of the arguments

What is chosen on a command line can be spelled in many ways: the groups of arguments stand in any
order, flags among them any number of times, and every option has two names. None of this makes a
difference.

* `Choice`, `Choice.Arranged`: what is chosen, and the rows of groups that choose it.
* `Choice.Arranged.withGroups_eq`: all these rows set the same options, since an option with a value
  stands once in each, and to set a flag twice is to set it.
* `run_of_spelled`: so what a run does is told by the choice.
-/

namespace Backpatch.CommandLine

/-- Whether a group is a flag, without a value. -/
def Group.isFlag : Group → Bool
  | .listing | .verbose => true
  | .output _ | .config _ | .input _ => false

/-- What is chosen on a command line that names one input, and each other file at most once. The
names are any texts, but an input that starts with `-` cannot be spelled. -/
structure Choice where
  input : String
  output : Option String := none
  config : Option String := none
  listing : Bool := false
  verbose : Bool := false
  input_ne : input ≠ ""

namespace Choice

/-- The options that are chosen. -/
def options (choice : Choice) : Options where
  input := choice.input
  output := choice.output.getD ""
  config := choice.config.getD ""
  listing := choice.listing
  verbose := choice.verbose

/-- The groups that name the chosen files. -/
def named (choice : Choice) : List Group :=
  .input choice.input :: ((choice.output.map .output).toList ++ (choice.config.map .config).toList)

/-- The groups on one of the command lines that make a choice. -/
structure Arranged (choice : Choice) (groups : List Group) : Prop where
  /-- The groups that name files stand in any order. -/
  named : (groups.filter fun group => !group.isFlag).Perm choice.named
  /-- A flag stands anywhere and any number of times, if it is chosen. -/
  listing : .listing ∈ groups ↔ choice.listing = true
  verbose : .verbose ∈ groups ↔ choice.verbose = true

/-- The arguments of one of the command lines that make a choice, with either name for an option. -/
def Spelled (choice : Choice) (arguments : List String) : Prop :=
  ∃ groups, choice.Arranged groups ∧ Spells arguments groups

variable (choice : Choice)

theorem filterMap_input?_named : choice.named.filterMap Group.input? = [choice.input] := by
  obtain ⟨input, _ | output, _ | config, listing, verbose, hinput⟩ := choice <;> rfl

theorem filterMap_output?_named :
    choice.named.filterMap Group.output? = choice.output.toList := by
  obtain ⟨input, _ | output, _ | config, listing, verbose, hinput⟩ := choice <;> rfl

theorem filterMap_config?_named :
    choice.named.filterMap Group.config? = choice.config.toList := by
  obtain ⟨input, _ | output, _ | config, listing, verbose, hinput⟩ := choice <;> rfl

namespace Arranged

variable {choice} {groups : List Group} (h : choice.Arranged groups)

include h

/-- The names that the groups give are those of the choice, in some order. -/
theorem perm_filterMap {name? : Group → Option String} (hlisting : name? .listing = none)
    (hverbose : name? .verbose = none) :
    (groups.filterMap name?).Perm (choice.named.filterMap name?) := by
  have hskip : (groups.filter fun group => !group.isFlag).filterMap name? =
      groups.filterMap name? := by
    rw [List.filterMap_filter]
    apply List.filterMap_congr
    intro group _
    cases group with
    | output | config | input => rfl
    | listing => exact hlisting.symm
    | verbose => exact hverbose.symm
  rw [← hskip]
  exact h.named.filterMap name?

/-- Where at most one name is chosen, it is the only one that the groups give. -/
theorem filterMap_eq {name? : Group → Option String} (hlisting : name? .listing = none)
    (hverbose : name? .verbose = none) (chosen : Option String)
    (hchosen : choice.named.filterMap name? = chosen.toList) :
    groups.filterMap name? = chosen.toList := by
  have hperm := h.perm_filterMap hlisting hverbose
  rw [hchosen] at hperm
  cases chosen with
  | none => exact hperm.eq_nil
  | some name => exact List.perm_singleton.mp hperm

theorem filterMap_input? : groups.filterMap Group.input? = [choice.input] :=
  h.filterMap_eq rfl rfl (some choice.input) choice.filterMap_input?_named

theorem filterMap_output? : groups.filterMap Group.output? = choice.output.toList :=
  h.filterMap_eq rfl rfl choice.output choice.filterMap_output?_named

theorem filterMap_config? : groups.filterMap Group.config? = choice.config.toList :=
  h.filterMap_eq rfl rfl choice.config choice.filterMap_config?_named

/-- The order of the groups does not show in the options that they set. -/
theorem withGroups_eq : ({} : Options).withGroups groups = choice.options := by
  have hlast : ∀ chosen : Option String, chosen.toList.getLast? = chosen := by
    rintro (_ | name) <;> rfl
  have hlisting : groups.contains .listing = choice.listing := by
    rw [Bool.eq_iff_iff, List.contains_iff_mem]
    exact h.listing
  have hverbose : groups.contains .verbose = choice.verbose := by
    rw [Bool.eq_iff_iff, List.contains_iff_mem]
    exact h.verbose
  unfold Options.withGroups
  rw [h.filterMap_input?, h.filterMap_output?, h.filterMap_config?, hlast, hlast, hlisting,
    hverbose]
  rfl

theorem oneInput : ({} : Options).OneInput groups := by
  unfold Options.OneInput
  rw [h.filterMap_input?]
  apply List.pairwise_pair.mpr
  rfl

end Arranged

/-- The arguments that spell a choice ask for it. -/
theorem Spelled.asks {choice : Choice} {arguments : List String} (h : choice.Spelled arguments) :
    Asks {} arguments (.assemble choice.options) := by
  obtain ⟨groups, harranged, hspells⟩ := h
  rw [← harranged.withGroups_eq]
  apply Asks.assemble hspells harranged.oneInput
  rw [harranged.withGroups_eq]
  exact choice.input_ne

end Choice

/-! ## Runs -/

variable {choice : Choice} {arguments arguments' : List String}

/-- What a run does is told by the choice that its arguments spell. -/
theorem run_of_spelled {m : Type → Type} [Monad m] (host : Host m)
    (h : choice.Spelled arguments) : run host arguments = runOptions host choice.options := by
  have hread := readArguments_eq_ok_iff.mpr h.asks
  have hsome : arguments.isEmpty = false := by
    cases arguments with
    | nil => cases hread
    | cons => rfl
  rw [run, hsome, hread]
  rfl

/-- Command lines that spell one choice make the same run: in every directory they have the same
exit status, print the same and leave the same files. What the run does is told by the choice, in
any surroundings. -/
theorem run_order_irrelevant (h : choice.Spelled arguments) (h' : choice.Spelled arguments') :
    (∀ directory, runIn directory arguments = runIn directory arguments') ∧
      ∀ {m : Type → Type} [Monad m] (host : Host m),
        run host arguments = runOptions host choice.options ∧
          run host arguments' = runOptions host choice.options := by
  refine ⟨fun directory => ?_, fun host => ⟨run_of_spelled host h, run_of_spelled host h'⟩⟩
  rw [runIn, run_of_spelled Shell.host h, ← run_of_spelled Shell.host h']
  rfl

/-- An output with the name of a flag, before the input and behind it, with the flag that it is named
after once and twice. -/
theorem run_order_irrelevant_output_like_flag :
    let choice : Choice :=
      { input := "loop.s", output := some "-v", verbose := true, input_ne := by decide }
    let directory : Directory := { files := [("loop.s", "top: j top".toUTF8)] }
    let arguments := ["-o", "-v", "-v", "loop.s"]
    let arguments' := ["--verbose", "loop.s", "-v", "--output", "-v"]
    choice.Spelled arguments ∧ choice.Spelled arguments' ∧
      runIn directory arguments = runIn directory arguments' ∧
      (runIn directory arguments).1 = 0 ∧
      (runIn directory arguments).2.directory.find? "-v" =
        some (ByteArray.mk #[0, 0, 0, 0x08]) := by
  intro choice directory arguments arguments'
  have h : choice.Spelled arguments := by
    refine ⟨[.output "-v", .verbose, .input "loop.s"], ⟨?_, ?_, ?_⟩, ?_⟩
    · exact List.Perm.swap _ _ _
    · decide
    · decide
    · exact .cons (.output (.inl rfl)) (.cons (.verbose (.inl rfl))
        (.cons (.input (by decide)) .nil))
  have h' : choice.Spelled arguments' := by
    refine ⟨[.verbose, .input "loop.s", .verbose, .output "-v"], ⟨?_, ?_, ?_⟩, ?_⟩
    · exact List.Perm.refl _
    · decide
    · decide
    · exact .cons (.verbose (.inr rfl)) (.cons (.input (by decide)) (.cons (.verbose (.inl rfl))
        (.cons (.output (.inr rfl)) .nil)))
  exact ⟨h, h', (run_order_irrelevant h h').1 directory, by decide +kernel, by decide +kernel⟩

end Backpatch.CommandLine
