import SlotLang.Command

/-!
# Command line arguments

```text
tokens INPUT
ast INPUT
emit-c INPUT [-o FILE | --output FILE]
run INPUT [--capacity N] [--overwrite reject|replace] [--memory-limit N]
```

A long option takes its value from the same argument behind an equals sign or from the next one; a
short option also directly from the letters behind it. A value in an argument of its own does not
begin with a dash, unless it is just a dash. An option is given at most once, and `--` ends the
options. Anything else is misuse.
-/

namespace SlotLang

/-- What a command line asks for. -/
inductive Invocation where
  | perform (command : Command)
  | version
  | misuse
deriving DecidableEq, Repr

/-- An option that takes a value. -/
inductive OptionName where
  | output
  | capacity
  | overwrite
  | memoryLimit
deriving DecidableEq, Repr

namespace OptionName

/-- The option's long name. -/
def long : OptionName → String
  | output => "output"
  | capacity => "capacity"
  | overwrite => "overwrite"
  | memoryLimit => "memory-limit"

/-- The option's one-letter name, if it has one. -/
def short? : OptionName → Option Char
  | output => some 'o'
  | _ => none

end OptionName

/-- The arguments of a command, taken apart. -/
structure Arguments where
  /-- The arguments that are no options, in order. -/
  inputs : List String := []
  /-- The options with their values. -/
  values : List (OptionName × String) := []
deriving DecidableEq, Repr

namespace Arguments

/-- The value of an option. -/
def value? (x : Arguments) (name : OptionName) : Option String :=
  (x.values.find? (·.1 = name)).map (·.2)

/-- Give an option its value, unless it has one. -/
def set? (x : Arguments) (name : OptionName) (value : String) : Option Arguments :=
  if (x.value? name).isSome then none else some { x with values := x.values ++ [(name, value)] }

/-- Whether an argument of its own can be a value. -/
def standsAlone (arg : String) : Bool := arg = "-" || arg.toList.head? ≠ some '-'

/-- Take the arguments of a command apart, which knows the options `known`. -/
def parse? (known : List OptionName) (x : Arguments) : List String → Option Arguments
  | [] => some x
  | arg :: args =>
    -- An option without its value takes the next argument.
    let option (name? : Option OptionName) (attached : Option (List Char)) : Option Arguments :=
      match name?, attached, args with
      | some name, some value, args =>
        match x.set? name (String.ofList value) with
        | some x => parse? known x args
        | none => none
      | some name, none, value :: args =>
        match if standsAlone value then x.set? name value else none with
        | some x => parse? known x args
        | none => none
      | _, _, _ => none
    match arg.toList with
    | ['-', '-'] => some { x with inputs := x.inputs ++ args }
    | '-' :: '-' :: word =>
      let name := word.takeWhile (· ≠ '=')
      let attached := match word.dropWhile (· ≠ '=') with
        | [] => none
        | _ :: value => some value
      option (known.find? (·.long = String.ofList name)) attached
    | '-' :: letter :: word =>
      let attached := match word with
        | [] => none
        | '=' :: value => some value
        | value => some value
      option (known.find? (·.short? = some letter)) attached
    | _ => parse? known { x with inputs := x.inputs ++ [arg] } args

/-- The only input, which is a path and so not empty. -/
def input? (x : Arguments) : Option String :=
  match x.inputs with
  | [path] => if path = "" then none else some path
  | _ => none

/-- The number a text spells: digits, possibly behind a plus, with a value below 2⁶⁴. -/
def number? (text : String) : Option Nat :=
  let digits := match text.toList with
    | '+' :: ds => ds
    | ds => ds
  match Decimal.natural? digits with
  | some n => if n < UInt64.size then some n else none
  | none => none

/-- The value of an option read by `read`: none if it is not given, no answer if it is bad. -/
def reading? {α : Type} (x : Arguments) (name : OptionName) (read : String → Option α) :
    Option (Option α) :=
  match x.value? name with
  | none => some none
  | some text => (read text).map some

/-- A path, which is not empty. -/
def path? (text : String) : Option String := if text = "" then none else some text

end Arguments

namespace Invocation

/-- The command with a name, from the arguments behind it. -/
def command? (name : String) (args : List String) : Option Command :=
  match name with
  | "tokens" => do
    let x ← Arguments.parse? [] {} args
    return .tokens (← x.input?)
  | "ast" => do
    let x ← Arguments.parse? [] {} args
    return .ast (← x.input?)
  | "emit-c" => do
    let x ← Arguments.parse? [.output] {} args
    return .emitC (← x.input?) (← x.reading? .output Arguments.path?)
  | "run" => do
    let x ← Arguments.parse? [.capacity, .overwrite, .memoryLimit] {} args
    let capacity ← x.reading? .capacity Arguments.number?
    let overwrite ← x.reading? .overwrite OverwritePolicy.ofName?
    let memoryLimit ← x.reading? .memoryLimit Arguments.number?
    let config : TableConfig :=
      { capacity := capacity.getD TableConfig.defaultCapacity
        overwrite := overwrite.getD .reject
        memoryLimit := memoryLimit }
    return .run (← x.input?) config
  | _ => none

/-- What a command line asks for. -/
def ofArguments : List String → Invocation
  | [] => misuse
  | arg :: args =>
    if arg = "--version" || ['-', 'V'].isPrefixOf arg.toList then version
    else
      match command? arg args with
      | some command => perform command
      | none => misuse

end Invocation

/-- What a command line leaves behind. -/
structure Exit where
  /-- The exit code. -/
  code : Nat
  /-- What is written to standard output. -/
  output : String := ""
  /-- What is written to standard error by the command itself. -/
  complaint : String := ""
  /-- The error that is then reported there, in whatever form suits a reader. -/
  report : Option String := none
deriving DecidableEq, Repr

namespace Exit

/-- The version line. -/
def versionLine : String := "pysq 0.1.0\n"

/-- How the program is called. -/
def usage : String :=
  "usage: pysq tokens INPUT\n" ++
  "       pysq ast INPUT\n" ++
  "       pysq emit-c INPUT [--output FILE]\n" ++
  "       pysq run INPUT [--capacity N] [--overwrite reject|replace] [--memory-limit N]"

/-- The exit after a command. -/
def ofOutcome (o : Outcome) : Exit :=
  match o.result with
  | .ok code => ⟨code, o.output.text, o.complaint, none⟩
  | .error e => ⟨1, o.output.text, o.complaint, some e.message⟩

end Exit

/-- Do what a command line asks for. -/
def Invocation.run {m : Type → Type} [Monad m] [FileStore m] (a : Allocator) : Invocation → m Exit
  | .version => return ⟨0, Exit.versionLine, "", none⟩
  | .misuse => return ⟨2, "", "", some Exit.usage⟩
  | .perform command => do return .ofOutcome (← command.perform a .buffer)

end SlotLang
