import SlotLang.Directory
import SlotLang.Module.CText
import SlotLang.Module.Outline
import SlotLang.Module.Parse
import SlotLang.Program.Run

/-!
# Commands

What can be done to a source file from the command line: list its tokens, show its outline, compile
it to C, or run it. A command reads one source and offers its result to a writer.
-/

namespace SlotLang

/-- Something to do to a source file. -/
inductive Command where
  /-- List the tokens. -/
  | tokens (input : String)
  /-- Show the outline of the checked program. -/
  | ast (input : String)
  /-- Compile to C, into a file if one is named. -/
  | emitC (input : String) (output : Option String)
  /-- Run the program on a table with the given settings. -/
  | run (input : String) (config : TableConfig)
deriving DecidableEq, Repr

/-- Why a command fails. -/
inductive CommandError where
  | read (path reason : String)
  | write (path reason : String)
  /-- The source does not compile; the path and the text are kept to show the place. -/
  | compile (path source : String) (error : CompileError)
  | config (error : ConfigError)
deriving DecidableEq, Repr

namespace CommandError

/-- The wording of the error. -/
def message : CommandError → String
  | read path reason => "failed to read " ++ path ++ ": " ++ reason
  | write path reason => "failed to write " ++ path ++ ": " ++ reason
  | compile _ _ e => e.report
  | config e => "invalid table configuration: " ++ e.message

/-- The code under which the error is known. -/
def code : CommandError → String
  | read .. => "pysq::read"
  | write .. => "pysq::write"
  | compile .. => "pysq::compile"
  | config .. => "pysq::config"

/-- The places to point at in the source: a label, a byte offset and a byte length each. -/
def labels : CommandError → List (String × Nat × Nat)
  | compile _ _ e => [("here", e.span.offset, e.span.length)]
  | _ => []

/-- The source that the labels point into: its path and its text. -/
def source? : CommandError → Option (String × String)
  | compile path source _ => some (path, source)
  | _ => none

end CommandError

/-- What a command gives. -/
structure Outcome where
  /-- The exit code, or why the command failed. -/
  result : Except CommandError Nat
  /-- What the writer was given. -/
  output : Output := {}
  /-- What is said on standard error. -/
  complaint : String := ""
  /-- The log records made, in order. -/
  events : List Event := []

namespace Command

/-- Offer pieces of text to the writer; the command succeeds if all are accepted. -/
def offer (w : Writer) (pieces : List String) (events : List Event) : Outcome :=
  match w.writeAll {} pieces with
  | (.ok (), out) => ⟨.ok 0, out, "", events⟩
  | (.error reason, out) => ⟨.error (.write "<stdout>" reason), out, "", events⟩

/-- The lines of a token list, in the pieces in which they are written. -/
def tokenPieces (list : List Token) : List String := list.flatMap fun t ↦ t.pieces ++ ["\n"]

/-- List the tokens of a source. -/
def listTokens (w : Writer) (path source : String) : Outcome :=
  match tokenize source with
  | .error e => ⟨.error (.compile path source e), {}, "", []⟩
  | .ok list => offer w (tokenPieces list) []

/-- Show the outline of a source. -/
def showOutline (w : Writer) (path source : String) : Outcome :=
  let c := compilation source TableConfig.defaultCapacity
  match c.result with
  | .error e => ⟨.error (.compile path source e), {}, "", c.events⟩
  | .ok m => offer w [m.outline] c.events

/-- Run a source on a new table. The settings have been checked. -/
def runSource (a : Allocator) (w : Writer) (config : TableConfig) (path source : String) :
    Outcome :=
  let c := compilation source config.capacity
  match c.result with
  | .error e => ⟨.error (.compile path source e), {}, "", c.events⟩
  | .ok m =>
    let report := m.lower.execute a w (.fresh config)
    let complaint := match report.result with
      | .ok () => ""
      | .error e => "runtime error: " ++ e.message ++ "\n"
    { result := .ok report.exitCode
      output := report.output
      complaint := complaint
      events := c.events ++ report.events ++ [.exited path report.exitCode report.released] }

variable {m : Type → Type} [Monad m] [FileStore m]

/-- Read the source and go on with it. -/
def withSource (path : String) (next : String → m Outcome) : m Outcome := do
  match ← FileStore.readText path with
  | .error reason => return ⟨.error (.read path reason), {}, "", []⟩
  | .ok source => next source

/-- Compile a source to C, into a file if one is named. -/
def compileToC (w : Writer) (path source : String) (target : Option String) : m Outcome := do
  let c := compilation source TableConfig.defaultCapacity
  match c.result with
  | .error e => return ⟨.error (.compile path source e), {}, "", c.events⟩
  | .ok program =>
    let text := program.toC Template.standard
    match target with
    | none => return offer w [text] c.events
    | some file =>
      match ← FileStore.writeText file text with
      | .error reason => return ⟨.error (.write file reason), {}, "", c.events⟩
      | .ok () => return ⟨.ok 0, {}, "", c.events ++ [.emitted program.slotCount path file]⟩

/-- Carry out a command. -/
def perform (a : Allocator) (w : Writer) : Command → m Outcome
  | tokens path => withSource path fun source ↦ return listTokens w path source
  | ast path => withSource path fun source ↦ return showOutline w path source
  | emitC path target => withSource path fun source ↦ compileToC w path source target
  | run path config =>
    match config.validate with
    | .error e => return ⟨.error (.config e), {}, "", []⟩
    | .ok () => withSource path fun source ↦ return runSource a w config path source

end Command

end SlotLang
