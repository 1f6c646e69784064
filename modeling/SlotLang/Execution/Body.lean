import SlotLang.Program.Run

/-!
# Program bodies

What `execute` can be given: an instruction list, a list of direct calls of the table, or one of two
bodies that only declare slots, one of which then fails on purpose.
-/

namespace SlotLang

/-- A direct call of the table or the output. -/
inductive DirectCall where
  | create (index size : Nat)
  | free (index : Nat)
  | write (index : Nat) (value : Int32)
  /-- Print the `int` in a slot. -/
  | print (index : Nat)
  /-- Fail with a message. -/
  | fail (message : String)
deriving DecidableEq, Repr

/-- Make one direct call; a failure is a message. -/
def DirectCall.run (a : Allocator) (w : Writer) (t : Table) (out : Output) : DirectCall → Ran String
  | .create index size => .ofStep (t.create a index size) out TableError.message
  | .free index => .ofStep (t.free index) out TableError.message
  | .write index value => .ofStep (t.writeInt index value) out TableError.message
  | .print index =>
    match t.readInt index with
    | .error e => ⟨.error e.message, t, out, []⟩
    | .ok value =>
      let (result, out) := w.write out (printedLine value)
      ⟨result, t, out, []⟩
  | .fail message => ⟨.error message, t, out, []⟩

/-- Make direct calls in order up to the first that fails. -/
def runCalls (a : Allocator) (w : Writer) : List DirectCall → Table → Output → Ran String
  | [], t, out => ⟨.ok (), t, out, []⟩
  | c :: cs, t, out => (c.run a w t out).andThen (runCalls a w cs)

/-- Declare `count` slots from `index` up, until one cannot be created. -/
def declareSlots (a : Allocator) (index count : Nat) (t : Table) : Step Unit :=
  match count with
  | 0 => ⟨.ok (), t, []⟩
  | count + 1 =>
    let made := t.create a index ValueType.int.slotSize
    match made.result with
    | .error e => ⟨.error e, made.table, made.log⟩
    | .ok _ =>
      let rest := declareSlots a (index + 1) count made.table
      ⟨rest.result, rest.table, made.log ++ rest.log⟩

/-- The body of a program. -/
inductive Body where
  /-- Declare slots from 0 up and leave them. -/
  | leaky (count : Nat)
  /-- Declare slots from 0 up, then fail whether or not all could be had. -/
  | failing (count : Nat)
  /-- Make direct calls. -/
  | calls (calls : List DirectCall)
  /-- Carry out instructions. -/
  | instrs (instrs : List Instr)
deriving DecidableEq, Repr

/-- Why a body fails. -/
inductive BodyError where
  | table (error : TableError)
  | deliberate (count : Nat)
  | call (message : String)
  | runtime (error : RuntimeError)
deriving DecidableEq, Repr

/-- The wording of a body's failure. -/
def BodyError.message : BodyError → String
  | .table e => e.message
  | .deliberate count => "deliberate failure after " ++ Decimal.ofNat count ++ " declarations"
  | .call message => message
  | .runtime e => e.message

/-- A run whose failure is seen as that of a body. -/
def Ran.mapError {ε δ : Type} (f : ε → δ) (r : Ran ε) : Ran δ :=
  ⟨r.result.mapError f, r.table, r.output, r.events⟩

namespace Body

/-- Run a body. -/
def run (a : Allocator) (w : Writer) : Body → Table → Output → Ran BodyError
  | .leaky count, t, out => .ofStep (declareSlots a 0 count t) out .table
  | .failing count, t, out =>
    let step := declareSlots a 0 count t
    ⟨.error (.deliberate count), step.table, out, step.events⟩
  | .calls cs, t, out => (runCalls a w cs t out).mapError .call
  | .instrs is, t, out => (runInstrs a w is t out).mapError .runtime

/-- Execute a body on a table. -/
def execute (a : Allocator) (w : Writer) (b : Body) (t : Table) : Report BodyError :=
  SlotLang.execute w BodyError.message (b.run a w) t

end Body

end SlotLang
