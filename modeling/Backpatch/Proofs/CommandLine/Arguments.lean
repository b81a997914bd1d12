import Backpatch.CommandLine.Options
import Mathlib.Tactic.SplitIfs

/-!
# The grammar of the arguments

Arguments come in groups: an option with the value behind it, a flag, or the name of the input.

* `Group.Spelled`: the arguments that make up one group. A value is any text, also one that looks
  like an option.
* `Options.withGroups`: what a row of groups sets. For each kind of option the last value counts.
* `Asks`: the arguments that ask for something, told without reading them from left to right.
  Reading arguments succeeds exactly on these (`readArguments_eq_ok_iff`).
-/

namespace Backpatch.CommandLine

/-- One setting, as it is made on the command line. -/
inductive Group where
  | output (name : String)
  | config (name : String)
  | listing
  | verbose
  | input (name : String)
  deriving DecidableEq, Repr

namespace Group

/-- The arguments that make up a group. -/
inductive Spelled : Group → List String → Prop
  | output {flag name : String} :
      flag = "-o" ∨ flag = "--output" → Spelled (.output name) [flag, name]
  | config {flag name : String} :
      flag = "-c" ∨ flag = "--config" → Spelled (.config name) [flag, name]
  | listing {flag : String} : flag = "-l" ∨ flag = "--listing" → Spelled .listing [flag]
  | verbose {flag : String} : flag = "-v" ∨ flag = "--verbose" → Spelled .verbose [flag]
  | input {name : String} : name.toList.head? ≠ some '-' → Spelled (.input name) [name]

/-- The name that a group gives to the output. -/
def output? : Group → Option String
  | .output name => some name
  | .config _ | .listing | .verbose | .input _ => none

/-- The configuration that a group names. -/
def config? : Group → Option String
  | .config name => some name
  | .output _ | .listing | .verbose | .input _ => none

/-- The input that a group names. -/
def input? : Group → Option String
  | .input name => some name
  | .output _ | .config _ | .listing | .verbose => none

end Group

/-- Arguments that consist of groups. -/
inductive Spells : List String → List Group → Prop
  | nil : Spells [] []
  | cons {piece arguments : List String} {group : Group} {groups : List Group} :
      group.Spelled piece → Spells arguments groups →
        Spells (piece ++ arguments) (group :: groups)

namespace Options

/-- The options with one more setting. -/
def set (options : Options) : Group → Options
  | .output name => { options with output := name }
  | .config name => { options with config := name }
  | .listing => { options with listing := true }
  | .verbose => { options with verbose := true }
  | .input name => { options with input := name }

/-- What groups make of options that are set already. The last value of an option counts. -/
def withGroups (options : Options) (groups : List Group) : Options where
  input := (groups.filterMap Group.input?).getLast?.getD options.input
  output := (groups.filterMap Group.output?).getLast?.getD options.output
  config := (groups.filterMap Group.config?).getLast?.getD options.config
  listing := options.listing || groups.contains .listing
  verbose := options.verbose || groups.contains .verbose

/-- No input is named behind one that is not empty. -/
def OneInput (options : Options) (groups : List Group) : Prop :=
  (options.input :: groups.filterMap Group.input?).Pairwise fun earlier _ => earlier = ""

variable {options : Options} {group : Group} {groups : List Group}

theorem withGroups_nil : options.withGroups [] = options := by
  simp [withGroups]

/-- Groups are set one after the other. -/
theorem withGroups_cons :
    options.withGroups (group :: groups) = (options.set group).withGroups groups := by
  cases group <;>
    simp [withGroups, set, Group.output?, Group.config?, Group.input?, List.getLast?_cons]

theorem oneInput_nil : options.OneInput [] :=
  List.pairwise_singleton _ _

/-- An input is named only while none is. -/
theorem oneInput_cons :
    options.OneInput (group :: groups) ↔
      (∀ name, group = .input name → options.input = "") ∧
        (options.set group).OneInput groups := by
  cases group with
  | output | config | listing | verbose => exact ⟨fun h => ⟨nofun, h⟩, And.right⟩
  | input name =>
      refine List.pairwise_cons.trans (and_congr_left fun _ => ?_)
      exact ⟨fun h _ _ => h name List.mem_cons_self, fun h _ _ => h name rfl⟩

end Options

/-- The arguments that ask for a task, where some options are set already. -/
inductive Asks (options : Options) : List String → Task → Prop
  /-- Help is asked for behind groups, whatever follows. -/
  | help {front rest : List String} {groups : List Group} {flag : String} :
      Spells front groups → options.OneInput groups → flag = "-h" ∨ flag = "--help" →
        Asks options (front ++ flag :: rest) .help
  /-- An input is named, and there are groups only. -/
  | assemble {arguments : List String} {groups : List Group} :
      Spells arguments groups → options.OneInput groups → (options.withGroups groups).input ≠ "" →
        Asks options arguments (.assemble (options.withGroups groups))

variable {options : Options} {group : Group} {groups : List Group} {arguments piece : List String}

/-- A group in front of what asks for a task. -/
theorem Asks.cons {task : Task} (hpiece : group.Spelled piece)
    (hinput : ∀ name, group = .input name → options.input = "")
    (h : Asks (options.set group) arguments task) : Asks options (piece ++ arguments) task := by
  cases h with
  | help hspells hone hflag =>
      rw [← List.append_assoc]
      exact .help (.cons hpiece hspells) (Options.oneInput_cons.mpr ⟨hinput, hone⟩) hflag
  | assemble hspells hone hnamed =>
      rw [← Options.withGroups_cons] at hnamed ⊢
      exact .assemble (.cons hpiece hspells) (Options.oneInput_cons.mpr ⟨hinput, hone⟩) hnamed

/-! ## Reading arguments -/

/-- What an argument in a role looks like. -/
inductive Argument.Fits (text : String) : Argument → Prop
  | output : text = "-o" ∨ text = "--output" → Fits text .output
  | config : text = "-c" ∨ text = "--config" → Fits text .config
  | listing : text = "-l" ∨ text = "--listing" → Fits text .listing
  | verbose : text = "-v" ∨ text = "--verbose" → Fits text .verbose
  | help : text = "-h" ∨ text = "--help" → Fits text .help
  | unknown : text.toList.head? = some '-' → Fits text .unknown
  | input : text.toList.head? ≠ some '-' → Fits text .input

theorem Argument.fits_ofText (text : String) : Fits text (ofText text) := by
  unfold ofText
  split_ifs with houtput hconfig hlisting hverbose hhelp hdash
  · exact .output houtput
  · exact .config hconfig
  · exact .listing hlisting
  · exact .verbose hverbose
  · exact .help hhelp
  · exact .unknown hdash
  · exact .input hdash

theorem Argument.fits_of_ofText {text : String} {role : Argument} (h : ofText text = role) :
    Fits text role :=
  h ▸ fits_ofText text

/-- Whatever does not look like an option names an input. -/
theorem Argument.ofText_of_head?_ne {text : String} (h : text.toList.head? ≠ some '-') :
    ofText text = .input := by
  have hfits := fits_ofText text
  generalize ofText text = role at hfits ⊢
  cases hfits with
  | output hflag | config hflag | listing hflag | verbose hflag | help hflag =>
      rcases hflag with rfl | rfl <;> exact absurd rfl h
  | unknown hdash => exact absurd hdash h
  | input => rfl

theorem Argument.ofText_help {flag : String} (h : flag = "-h" ∨ flag = "--help") :
    ofText flag = .help := by
  rcases h with rfl | rfl <;> rfl

/-- Reading the arguments of a group sets what the group sets. -/
theorem readArguments_piece (hpiece : group.Spelled piece)
    (hinput : ∀ name, group = .input name → options.input = "") (rest : List String) :
    readArguments options (piece ++ rest) = readArguments (options.set group) rest := by
  cases hpiece with
  | output hflag | config hflag | listing hflag | verbose hflag =>
      rcases hflag with rfl | rfl <;> simp [readArguments, Argument.ofText, Options.set]
  | @input name hname =>
      have hempty : options.input.isEmpty = true := by simp [hinput name rfl]
      simp [readArguments, Argument.ofText_of_head?_ne hname, hempty, Options.set]

/-- Reading groups sets what they set. -/
theorem readArguments_append (h : Spells arguments groups) (hone : options.OneInput groups)
    (rest : List String) :
    readArguments options (arguments ++ rest) =
      readArguments (options.withGroups groups) rest := by
  induction h generalizing options with
  | nil => rw [Options.withGroups_nil, List.nil_append]
  | cons hpiece _ ih =>
      obtain ⟨hinput, hone⟩ := Options.oneInput_cons.mp hone
      rw [List.append_assoc, readArguments_piece hpiece hinput, ih hone, Options.withGroups_cons]

/-- Arguments that are read ask for the task that they are read as. -/
theorem asks_of_readArguments {task : Task} (h : readArguments options arguments = .ok task) :
    Asks options arguments task := by
  fun_induction readArguments options arguments with
  | case1 | case3 | case5 | case10 | case12 => cases h
  | case2 options hnamed =>
      obtain rfl := Except.ok.inj h
      have hinput : (options.withGroups []).input ≠ "" := by
        rw [Options.withGroups_nil]
        simpa using hnamed
      have hasks := Asks.assemble .nil Options.oneInput_nil hinput
      rwa [Options.withGroups_nil] at hasks
  | case4 options text name rest hrole ih =>
      cases Argument.fits_of_ofText hrole with
      | output hflag => exact Asks.cons (.output hflag) nofun (ih h)
  | case6 options text name rest hrole ih =>
      cases Argument.fits_of_ofText hrole with
      | config hflag => exact Asks.cons (.config hflag) nofun (ih h)
  | case7 options text rest hrole ih =>
      cases Argument.fits_of_ofText hrole with
      | listing hflag => exact Asks.cons (.listing hflag) nofun (ih h)
  | case8 options text rest hrole ih =>
      cases Argument.fits_of_ofText hrole with
      | verbose hflag => exact Asks.cons (.verbose hflag) nofun (ih h)
  | case9 options text rest hrole =>
      obtain rfl := Except.ok.inj h
      cases Argument.fits_of_ofText hrole with
      | help hflag => exact .help .nil Options.oneInput_nil hflag
  | case11 options text rest hrole hempty ih =>
      have hinput : options.input = "" := by simpa using hempty
      cases Argument.fits_of_ofText hrole with
      | input hname => exact Asks.cons (.input hname) (fun _ _ => hinput) (ih h)

/-- Exactly the arguments that ask for a task are read. -/
theorem readArguments_eq_ok_iff {task : Task} :
    readArguments options arguments = .ok task ↔ Asks options arguments task := by
  refine ⟨asks_of_readArguments, fun h => ?_⟩
  cases h with
  | help hspells hone hflag =>
      rw [readArguments_append hspells hone]
      simp only [readArguments, Argument.ofText_help hflag]
  | assemble hspells hone hnamed =>
      rw [← List.append_nil arguments, readArguments_append hspells hone, readArguments]
      simp [hnamed]

/-- A value that looks like an option, and an option that is repeated. -/
example :
    readArguments {} ["-o", "-l", "-v", "loop.s", "--output", "loop.out"] =
      .ok (.assemble { input := "loop.s", output := "loop.out", verbose := true }) := by
  rfl

end Backpatch.CommandLine
