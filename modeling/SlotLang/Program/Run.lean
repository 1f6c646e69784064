import SlotLang.Execution
import SlotLang.Program

/-!
# Running instruction lists

Instructions are carried out in order on a table and an output; the first that fails ends the run.
A `print` with several arguments prints them one by one, and those before a failing one stay
printed.
-/

namespace SlotLang

/-- Why an instruction fails. -/
inductive RuntimeError where
  /-- The table refused an operation. -/
  | table (error : TableError)
  /-- The writer refused a line. -/
  | output (reason : String)
deriving DecidableEq, Repr

namespace RuntimeError

/-- The wording of the cause alone. -/
def cause : RuntimeError → String
  | .table e => e.message
  | .output reason => reason

/-- The wording of the error. -/
def message : RuntimeError → String
  | .table e => "variable table: " ++ e.message
  | .output reason => "output: " ++ reason

end RuntimeError

/-- The value of an operand. -/
def Operand.eval (t : Table) : Operand → Except TableError Int32
  | .const value => .ok value
  | .load slot => t.readInt slot

/-- Print operands in order up to the first that fails. -/
def printOperands (w : Writer) (t : Table) (out : Output) :
    List Operand → Except RuntimeError Unit × Output
  | [] => (.ok (), out)
  | arg :: args =>
    match arg.eval t with
    | .error e => (.error (.table e), out)
    | .ok value =>
      match w.write out (printedLine value) with
      | (.error reason, out) => (.error (.output reason), out)
      | (.ok (), out) => printOperands w t out args

/-- Carry out one instruction. -/
def Instr.run (a : Allocator) (w : Writer) (t : Table) (out : Output) : Instr → Ran RuntimeError
  | .alloc slot size => .ofStep (t.create a slot size) out .table
  | .store slot value =>
    match value.eval t with
    | .error e => ⟨.error (.table e), t, out, []⟩
    | .ok v => .ofStep (t.writeInt slot v) out .table
  | .call .print args =>
    let (result, out) := printOperands w t out args
    ⟨result, t, out, []⟩
  | .eval value =>
    match value.eval t with
    | .error e => ⟨.error (.table e), t, out, []⟩
    | .ok _ => ⟨.ok (), t, out, []⟩

/-- Carry out instructions in order up to the first that fails. -/
def runInstrs (a : Allocator) (w : Writer) : List Instr → Table → Output → Ran RuntimeError
  | [], t, out => ⟨.ok (), t, out, []⟩
  | i :: is, t, out => (i.run a w t out).andThen (runInstrs a w is)

/-- Instructions in two parts run as the first part, then the second. -/
theorem runInstrs_append (a : Allocator) (w : Writer) (is js : List Instr) (t : Table)
    (out : Output) :
    runInstrs a w (is ++ js) t out = (runInstrs a w is t out).andThen (runInstrs a w js) := by
  induction is generalizing t out with
  | nil => simp [runInstrs, Ran.andThen]
  | cons i is ih =>
    show (i.run a w t out).andThen (runInstrs a w (is ++ js)) = _
    rw [runInstrs, Ran.andThen_andThen]
    exact congrArg _ (funext fun t ↦ funext fun out ↦ ih t out)

/-- Execute an instruction list on a table. -/
def executeInstrs (a : Allocator) (w : Writer) (instrs : List Instr) (t : Table) :
    Report RuntimeError :=
  execute w RuntimeError.message (runInstrs a w instrs) t

/-- Execute a program on a table. -/
def Program.execute (a : Allocator) (w : Writer) (p : Program) (t : Table) : Report RuntimeError :=
  executeInstrs a w p.instrs t

end SlotLang
