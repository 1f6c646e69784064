import SlotLang.Text.Decimal

/-!
# Log records

Compiling and running a program leaves a log. An `Event` is one record of it: what happened, with
the numbers and names involved. `Event.line` gives the record's level and wording.
-/

namespace SlotLang

/-- How much attention a record asks for. -/
inductive Level where
  | error
  | warn
  | info
  | debug
  | trace
deriving DecidableEq, Repr

/-- The level's name in a record. -/
def Level.name : Level → String
  | .error => "ERROR"
  | .warn => "WARN"
  | .info => "INFO"
  | .debug => "DEBUG"
  | .trace => "TRACE"

/-- One record of the log. -/
inductive Event where
  /-- A declaration was given a slot. -/
  | declared (name : String) (slot : Nat)
  /-- A live buffer was released to make room for a new one in its slot. -/
  | replaced (slot size : Nat)
  /-- A buffer was put into a slot. -/
  | created (slot size : Nat) (generation : UInt32)
  /-- A buffer was released. -/
  | freed (slot size : Nat)
  /-- All live buffers were released at once. -/
  | cleaned (count : Nat)
  /-- A program stopped with an error. -/
  | bodyFailed (message : String)
  /-- The output could not be flushed at the end of a program. -/
  | flushFailed (message : String)
  /-- A program has ended and its slots are released. -/
  | finished (released : Nat)
  /-- A number could not be written to standard output. -/
  | printFailed (value : Int32) (message : String)
  /-- A C program was written to a file. -/
  | emitted (slots : Nat) (source target : String)
  /-- A program was run from the command line. -/
  | exited (source : String) (code released : Nat)
deriving DecidableEq, Repr

namespace Event

/-- The level of a record. -/
def level : Event → Level
  | declared .. => .trace
  | replaced .. | printFailed .. => .warn
  | created .. | freed .. | cleaned .. | finished .. => .debug
  | bodyFailed .. | flushFailed .. => .error
  | emitted .. | exited .. => .info

/-- The wording of a record. -/
def text : Event → String
  | declared name slot => "declared " ++ name ++ " as slot " ++ Decimal.ofNat slot
  | replaced slot size =>
    "create_variable: replacing live slot " ++ Decimal.ofNat slot ++ " (" ++ Decimal.ofNat size ++
      " bytes)"
  | created slot size generation =>
    "create_variable: slot " ++ Decimal.ofNat slot ++ ", " ++ Decimal.ofNat size ++
      " bytes, gen " ++ Decimal.ofNat generation.toNat
  | freed slot size =>
    "free_variable: slot " ++ Decimal.ofNat slot ++ ", " ++ Decimal.ofNat size ++ " bytes"
  | cleaned count => "cleanup: released " ++ Decimal.ofNat count ++ " slots"
  | bodyFailed message => "program body failed: " ++ message
  | flushFailed message => "failed to flush program output: " ++ message
  | finished released =>
    "program finished, cleanup released " ++ Decimal.ofNat released ++ " slots"
  | printFailed value message =>
    "print: failed to write " ++ Decimal.ofInt32 value ++ " to stdout: " ++ message
  | emitted slots source target =>
    "emitted " ++ Decimal.ofNat slots ++ " slots from " ++ source ++ " to " ++ target
  | exited source code released =>
    source ++ ": exit code " ++ Decimal.ofNat code ++ ", cleanup released " ++
      Decimal.ofNat released ++ " slots"

/-- A record as it stands in the log: level, then wording. -/
def line (e : Event) : String := e.level.name ++ " " ++ e.text

end Event

end SlotLang
