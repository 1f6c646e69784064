import SlotLang.Proofs.InitialMemory
import SlotLang.Proofs.Reexecution

/-!
# Writers with a memory

A `Writer` takes each piece whole or not at all, and what it answers depends on the piece and on the
number of calls before it. A `Sink` is free of both limits: it has a state of any kind, which every
piece may change, and a piece that is refused may have been taken in part. A `Device`, which takes
bytes, as many at a time as it likes, is one.

Nothing that is proved for all writers is lost on sinks. A program meets a sink only through the
lines that it offers, and which lines those are does not depend on the sink: `Instr.runOn_eq` is the
step, in which an instruction offers its lines and then does its work, and `runInstrsOn_eq` the run.

* `lines_eq_of_results` recovers the lines from the results with all writers. The writer
  `Writer.echo k` takes `k` lines and refuses the next, with that line for a reason.
* `Sink.asWriter` is the other way: a writer that answers given lines as a sink does.
* `writers_stand_for_sinks` puts them together. Two executions that end alike with every writer do
  the same to every sink, and one writer stands for that sink in both of them. What was in a table
  before, and how often it has been used, is therefore not seen by any device either.
-/

namespace SlotLang

/-! ### Sinks -/

/-- Something that text can be written to, with a state of any kind. -/
structure Sink (σ : Type) where
  /-- Offer a piece. If it is refused, a part of it may have been taken. -/
  write (state : σ) (piece : String) : Except String Unit × σ
  /-- Flush; the answer is why that fails, if it does. -/
  flush (state : σ) : Option String × σ

/-- Something that bytes can be written to, as many at a time as it takes. -/
structure Device (σ : Type) where
  /-- Offer bytes. The answer is how many of them, from the first on, have been taken. -/
  take (state : σ) (bytes : List UInt8) : Except String Nat × σ
  /-- Flush; the answer is why that fails, if it does. -/
  flush (state : σ) : Option String × σ

/-- Offer bytes until all are taken; to take none at all is a failure. -/
def Device.writeAll {σ : Type} (d : Device σ) (x : σ) (bytes : List UInt8) :
    Except String Unit × σ :=
  if bytes = [] then (.ok (), x)
  else
    match d.take x bytes with
    | (.error reason, x) => (.error reason, x)
    | (.ok 0, x) => (.error "failed to write whole buffer", x)
    | (.ok (n + 1), x) => d.writeAll x (bytes.drop (n + 1))
termination_by bytes.length
decreasing_by
  have hpos := List.length_pos_iff.2 ‹bytes ≠ []›
  rw [List.length_drop]
  omega

/-- A device as a sink: a piece is offered byte by byte until all of it is taken. -/
def Device.sink {σ : Type} (d : Device σ) : Sink σ :=
  ⟨fun x piece ↦ d.writeAll x piece.toUTF8.toList, d.flush⟩

/-- A writer as a sink: its state is what it has been given. -/
def Writer.sink (w : Writer) : Sink Output := ⟨w.write, fun out ↦ (w.flush out, out)⟩

namespace Sink

variable {σ τ : Type}

/-- Offer pieces up to the first that is refused. -/
def writeAll (s : Sink σ) (x : σ) : List String → Except String Unit × σ
  | [] => (.ok (), x)
  | piece :: pieces =>
    match s.write x piece with
    | (.error reason, x) => (.error reason, x)
    | (.ok (), x) => s.writeAll x pieces

theorem writeAll_singleton (s : Sink σ) (x : σ) (piece : String) :
    s.writeAll x [piece] = s.write x piece := by
  rw [writeAll]
  rcases s.write x piece with ⟨_ | ⟨⟩, _⟩ <;> rfl

theorem writeAll_append_of_error {s : Sink σ} {x x' : σ} {first : List String} {reason : String}
    (h : s.writeAll x first = (.error reason, x')) (rest : List String) :
    s.writeAll x (first ++ rest) = (.error reason, x') := by
  fun_induction writeAll s x first with
  | case1 => cases h
  | case2 x piece pieces reason' y hwrite =>
    rw [List.cons_append, writeAll, hwrite]
    exact h
  | case3 x piece pieces y hwrite ih =>
    rw [List.cons_append, writeAll, hwrite]
    exact ih h

theorem writeAll_append_of_ok {s : Sink σ} {x x' : σ} {first : List String}
    (h : s.writeAll x first = (.ok (), x')) (rest : List String) :
    s.writeAll x (first ++ rest) = s.writeAll x' rest := by
  fun_induction writeAll s x first with
  | case1 => cases h; rfl
  | case2 => cases h
  | case3 x piece pieces y hwrite ih =>
    rw [List.cons_append, writeAll, hwrite]
    exact ih h

/-- Whether two sinks answer these lines alike, as far as they are offered. -/
def Alike (s : Sink σ) (x : σ) (s' : Sink τ) (x' : τ) (lines : List String) : Prop :=
  ∀ first, first <+: lines → (s.writeAll x first).1 = (s'.writeAll x' first).1

/-- They then answer the first of the lines alike and, once these are taken, the others. -/
theorem Alike.of_append {s : Sink σ} {x y : σ} {s' : Sink τ} {x' : τ} {first rest : List String}
    (h : s.Alike x s' x' (first ++ rest)) (hfirst : s.writeAll x first = (.ok (), y)) :
    ∃ y', s'.writeAll x' first = (.ok (), y') ∧ s.Alike y s' y' rest := by
  have hanswer := h first (List.prefix_append first rest)
  rcases hfirst' : s'.writeAll x' first with ⟨answer, y'⟩
  rw [hfirst, hfirst'] at hanswer
  obtain rfl : .ok () = answer := hanswer
  refine ⟨y', rfl, fun more hmore ↦ ?_⟩
  have hall := h (first ++ more) ((List.prefix_append_right_inj first).2 hmore)
  rwa [writeAll_append_of_ok hfirst, writeAll_append_of_ok hfirst'] at hall

end Sink

/-! ### Running on a sink -/

/-- What running instructions on a sink gives. -/
structure RanOn (σ : Type) where
  /-- Whether the run succeeded, and if not why. -/
  result : Except RuntimeError Unit
  /-- The table afterwards. -/
  table : Table
  /-- The sink afterwards. -/
  sink : σ
  /-- The log records made, in order. -/
  events : List Event

namespace RanOn

variable {σ : Type}

/-- A step on the table, seen as a run. -/
def ofStep {α : Type} (s : Step α) (x : σ) : RanOn σ :=
  ⟨(s.result.mapError RuntimeError.table).map fun _ ↦ (), s.table, x, s.events⟩

/-- Go on with `next` if the run so far succeeded. -/
def andThen (r : RanOn σ) (next : Table → σ → RanOn σ) : RanOn σ :=
  match r.result with
  | .ok () => { next r.table r.sink with events := r.events ++ (next r.table r.sink).events }
  | .error _ => r

/-- The run with a writer, seen as one on a sink. -/
def ofRan (r : Ran RuntimeError) : RanOn Output := ⟨r.result, r.table, r.output, r.events⟩

end RanOn

variable {σ τ : Type}

/-- Print operands in order up to the first that fails. -/
def printOperandsOn (s : Sink σ) (t : Table) (x : σ) :
    List Operand → Except RuntimeError Unit × σ
  | [] => (.ok (), x)
  | arg :: args =>
    match arg.eval t with
    | .error e => (.error (.table e), x)
    | .ok value =>
      match s.write x (printedLine value) with
      | (.error reason, x) => (.error (.output reason), x)
      | (.ok (), x) => printOperandsOn s t x args

/-- Carry out one instruction. -/
def Instr.runOn (a : Allocator) (s : Sink σ) (t : Table) (x : σ) : Instr → RanOn σ
  | .alloc slot size => .ofStep (t.create a slot size) x
  | .store slot value =>
    match value.eval t with
    | .error e => ⟨.error (.table e), t, x, []⟩
    | .ok v => .ofStep (t.writeInt slot v) x
  | .call .print args =>
    let (result, x) := printOperandsOn s t x args
    ⟨result, t, x, []⟩
  | .eval value =>
    match value.eval t with
    | .error e => ⟨.error (.table e), t, x, []⟩
    | .ok _ => ⟨.ok (), t, x, []⟩

/-- Carry out instructions in order up to the first that fails. -/
def runInstrsOn (a : Allocator) (s : Sink σ) : List Instr → Table → σ → RanOn σ
  | [], t, x => ⟨.ok (), t, x, []⟩
  | i :: is, t, x => (i.runOn a s t x).andThen (runInstrsOn a s is)

theorem printOperandsOn_sink (w : Writer) (t : Table) (out : Output) (args : List Operand) :
    printOperandsOn w.sink t out args = printOperands w t out args := by
  induction args generalizing out with
  | nil => rfl
  | cons arg args ih =>
    rcases hv : arg.eval t with e | v
    · simp only [printOperandsOn, printOperands, hv]
    · simp only [printOperandsOn, printOperands, hv]
      have hwrite : w.sink.write out (printedLine v) = w.write out (printedLine v) := rfl
      rw [hwrite]
      rcases w.write out (printedLine v) with ⟨_ | _, out'⟩
      · rfl
      · exact ih out'

theorem Instr.runOn_sink (a : Allocator) (w : Writer) (t : Table) (out : Output) (i : Instr) :
    i.runOn a w.sink t out = .ofRan (i.run a w t out) := by
  cases i with
  | alloc slot size => rfl
  | store slot value =>
    simp only [runOn, run]
    cases value.eval t <;> rfl
  | call builtin args =>
    cases builtin
    simp only [runOn, run, printOperandsOn_sink]
    rfl
  | eval value =>
    simp only [runOn, run]
    cases value.eval t <;> rfl

/-- **Running with a writer is running on it as a sink.** -/
theorem runInstrsOn_sink (a : Allocator) (w : Writer) (is : List Instr) (t : Table)
    (out : Output) : runInstrsOn a w.sink is t out = .ofRan (runInstrs a w is t out) := by
  induction is generalizing t out with
  | nil => rfl
  | cons i is ih =>
    rw [runInstrsOn, runInstrs, i.runOn_sink]
    rcases hr : (i.run a w t out).result with e | ⟨⟩
    · simp only [RanOn.andThen, Ran.andThen, RanOn.ofRan, hr]
    · simp only [RanOn.andThen, Ran.andThen, RanOn.ofRan, hr, ih]
      rfl

/-! ### Lines first, then the work -/

/-- The lines that printing these operands offers, if all are taken. -/
def Operand.lines (t : Table) : List Operand → List String
  | [] => []
  | arg :: args =>
    match arg.eval t with
    | .error _ => []
    | .ok value => printedLine value :: lines t args

/-- Whether all these operands can be read. -/
def Operand.readAll (t : Table) : List Operand → Except TableError Unit
  | [] => .ok ()
  | arg :: args =>
    match arg.eval t with
    | .error e => .error e
    | .ok _ => readAll t args

namespace Instr

/-- The lines that an instruction offers, if all are taken. -/
def lines (t : Table) : Instr → List String
  | .call .print args => Operand.lines t args
  | _ => []

/-- What an instruction does once its lines are taken. -/
def work (a : Allocator) (t : Table) : Instr → Step Unit
  | .alloc slot size => (t.create a slot size).map fun _ ↦ ()
  | .store slot value =>
    match value.eval t with
    | .error e => t.refuse e
    | .ok v => t.writeInt slot v
  | .call .print args => .look t (Operand.readAll t args)
  | .eval value => .look t ((value.eval t).map fun _ ↦ ())

end Instr

/-- The lines that a run offers, if all are taken. -/
def linesOf (a : Allocator) : List Instr → Table → List String
  | [], _ => []
  | i :: is, t =>
    i.lines t ++
      match (i.work a t).result with
      | .ok () => linesOf a is (i.work a t).table
      | .error _ => []

/-- How a run ends, if all its lines are taken. -/
def endingOf (a : Allocator) : List Instr → Table → Except TableError Unit
  | [], _ => .ok ()
  | i :: is, t =>
    match (i.work a t).result with
    | .ok () => endingOf a is (i.work a t).table
    | .error e => .error e

theorem Operand.ne_empty_of_mem_lines {t : Table} {args : List Operand} {line : String}
    (h : line ∈ Operand.lines t args) : line ≠ "" := by
  induction args with
  | nil => cases h
  | cons arg args ih =>
    rw [Operand.lines] at h
    split at h
    · cases h
    · rcases List.mem_cons.1 h with rfl | h
      · exact printedLine_ne_empty _
      · exact ih h

/-- A line is never empty. -/
theorem ne_empty_of_mem_linesOf {a : Allocator} {is : List Instr} {t : Table} {line : String}
    (h : line ∈ linesOf a is t) : line ≠ "" := by
  induction is generalizing t with
  | nil => cases h
  | cons i is ih =>
    rw [linesOf] at h
    rcases List.mem_append.1 h with h | h
    · cases i with
      | call builtin args => cases builtin; exact Operand.ne_empty_of_mem_lines h
      | alloc | store | eval => cases h
    · split at h
      · exact ih h
      · cases h

theorem printOperandsOn_eq (s : Sink σ) (t : Table) (x : σ) (args : List Operand) :
    printOperandsOn s t x args =
      match s.writeAll x (Operand.lines t args) with
      | (.error reason, x) => (.error (.output reason), x)
      | (.ok (), x) => ((Operand.readAll t args).mapError .table, x) := by
  induction args generalizing x with
  | nil => rfl
  | cons arg args ih =>
    rcases hv : arg.eval t with e | v
    · simp only [printOperandsOn, Operand.lines, Operand.readAll, hv]
      rfl
    · simp only [printOperandsOn, Operand.lines, Operand.readAll, hv, Sink.writeAll]
      rcases s.write x (printedLine v) with ⟨_ | _, y⟩
      · rfl
      · exact ih y

/-- **One instruction** offers its lines and then does its work. -/
theorem Instr.runOn_eq (a : Allocator) (s : Sink σ) (t : Table) (x : σ) (i : Instr) :
    i.runOn a s t x =
      match s.writeAll x (i.lines t) with
      | (.error reason, x) => ⟨.error (.output reason), t, x, []⟩
      | (.ok (), x) => .ofStep (i.work a t) x := by
  cases i with
  | alloc slot size =>
    show RanOn.ofStep (t.create a slot size) x = .ofStep ((t.create a slot size).map _) x
    simp only [RanOn.ofStep, Step.map, Step.events]
    cases (t.create a slot size).result <;> rfl
  | store slot value =>
    show (match value.eval t with | .error e => _ | .ok v => _) = _
    simp only [work]
    cases value.eval t <;> rfl
  | call builtin args =>
    cases builtin
    simp only [runOn, lines, work, printOperandsOn_eq]
    rcases s.writeAll x (Operand.lines t args) with ⟨_ | _, y⟩
    · rfl
    · simp only [RanOn.ofStep, Step.look, Step.events]
      cases Operand.readAll t args <;> rfl
  | eval value =>
    show (match value.eval t with | .error e => _ | .ok v => _) = _
    simp only [work]
    cases value.eval t <;> rfl

theorem runInstrsOn_of_refused {a : Allocator} {s : Sink σ} {i : Instr} {t : Table} {x y : σ}
    {reason : String} (h : s.writeAll x (i.lines t) = (.error reason, y)) (is : List Instr) :
    runInstrsOn a s (i :: is) t x = ⟨.error (.output reason), t, y, []⟩ := by
  rw [runInstrsOn, i.runOn_eq, h]
  rfl

theorem runInstrsOn_of_taken {a : Allocator} {s : Sink σ} {i : Instr} {t : Table} {x y : σ}
    (h : s.writeAll x (i.lines t) = (.ok (), y)) (is : List Instr) :
    runInstrsOn a s (i :: is) t x = (RanOn.ofStep (i.work a t) y).andThen (runInstrsOn a s is) := by
  rw [runInstrsOn, i.runOn_eq, h]

/-- **A run** offers its lines one after the other. It fails at the first that is refused, and if
none is it ends as it has to. -/
theorem runInstrsOn_eq (a : Allocator) (s : Sink σ) (is : List Instr) (t : Table) (x : σ) :
    ((runInstrsOn a s is t x).result, (runInstrsOn a s is t x).sink) =
      match s.writeAll x (linesOf a is t) with
      | (.error reason, x) => (.error (.output reason), x)
      | (.ok (), x) => ((endingOf a is t).mapError .table, x) := by
  induction is generalizing t x with
  | nil => rfl
  | cons i is ih =>
    rcases hfirst : s.writeAll x (i.lines t) with ⟨reason | ⟨⟩, y⟩
    · rw [runInstrsOn_of_refused hfirst, linesOf, Sink.writeAll_append_of_error hfirst]
    · rw [runInstrsOn_of_taken hfirst, linesOf, Sink.writeAll_append_of_ok hfirst, endingOf]
      rcases hwork : (i.work a t).result with e | ⟨⟩
      · simp only [RanOn.andThen, RanOn.ofStep, hwork]
        rfl
      · simp only [RanOn.andThen, RanOn.ofStep, hwork]
        exact ih (i.work a t).table y

/-- What it does to the sink is to offer the lines. -/
theorem sink_runInstrsOn (a : Allocator) (s : Sink σ) (is : List Instr) (t : Table) (x : σ) :
    (runInstrsOn a s is t x).sink = (s.writeAll x (linesOf a is t)).2 := by
  refine (congrArg Prod.snd (runInstrsOn_eq a s is t x)).trans ?_
  rcases s.writeAll x (linesOf a is t) with ⟨_ | _, _⟩ <;> rfl

/-- **Two sinks that answer the lines of a run alike** make the same of it. -/
theorem runInstrsOn_alike {a : Allocator} {s : Sink σ} {s' : Sink τ} {is : List Instr} {t : Table}
    {x : σ} {x' : τ} (h : s.Alike x s' x' (linesOf a is t)) :
    (runInstrsOn a s is t x).result = (runInstrsOn a s' is t x').result ∧
      (runInstrsOn a s is t x).table = (runInstrsOn a s' is t x').table ∧
      (runInstrsOn a s is t x).events = (runInstrsOn a s' is t x').events := by
  induction is generalizing t x x' with
  | nil => exact ⟨rfl, rfl, rfl⟩
  | cons i is ih =>
    rcases hfirst : s.writeAll x (i.lines t) with ⟨reason | ⟨⟩, y⟩
    · have hanswer := h (i.lines t) (List.prefix_append ..)
      rcases hfirst' : s'.writeAll x' (i.lines t) with ⟨answer, y'⟩
      rw [hfirst, hfirst'] at hanswer
      obtain rfl : .error reason = answer := hanswer
      rw [runInstrsOn_of_refused hfirst, runInstrsOn_of_refused hfirst']
      exact ⟨rfl, rfl, rfl⟩
    · obtain ⟨y', hfirst', hrest⟩ := h.of_append hfirst
      rw [runInstrsOn_of_taken hfirst, runInstrsOn_of_taken hfirst']
      rcases hwork : (i.work a t).result with e | ⟨⟩
      · simp only [RanOn.andThen, RanOn.ofStep, hwork]
        exact ⟨rfl, rfl, rfl⟩
      · simp only [hwork] at hrest
        obtain ⟨hresult, htable, hevents⟩ := ih hrest
        simp only [RanOn.andThen, RanOn.ofStep, hwork]
        exact ⟨hresult, htable, congrArg _ hevents⟩

/-! ### Writers that tell the lines of a run -/

/-- The writer that takes `k` pieces and refuses the next, with that piece for a reason. -/
def Writer.echo (k : Nat) : Writer where
  refusal calls piece := if calls = k then some piece else none
  flushRefusal _ := none

theorem writeAll_echo {lines : List String} (hne : ∀ line ∈ lines, line ≠ "") {k : Nat}
    {out : Output} (h : out.calls ≤ k) :
    ((Writer.echo k).sink.writeAll out lines).1 =
      match lines[k - out.calls]? with
      | some line => .error line
      | none => .ok () := by
  induction lines generalizing out with
  | nil => rfl
  | cons line lines ih =>
    obtain ⟨hline, hlines⟩ := List.forall_mem_cons.1 hne
    by_cases hk : out.calls = k
    · simp [Sink.writeAll, Writer.sink, Writer.write, Writer.echo, hline, hk]
    · have hlt : out.calls + 1 ≤ k := Nat.lt_of_le_of_ne h hk
      have hindex : k - out.calls = (k - (out.calls + 1)) + 1 := by omega
      have hwrite : (Writer.echo k).sink.write out line =
          (.ok (), ⟨out.text ++ line, out.calls + 1⟩) :=
        (Writer.echo k).write_of_accepts (if_neg hk) hline
      rw [Sink.writeAll, hwrite, hindex, List.getElem?_cons_succ]
      exact ih hlines hlt

/-- With the writer that refuses line `k`, a run has that line in its result, if there is one. -/
theorem result_echo (a : Allocator) (is : List Instr) (t : Table) (k : Nat) :
    (runInstrs a (.echo k) is t {}).result =
      match (linesOf a is t)[k]? with
      | some line => .error (.output line)
      | none => (endingOf a is t).mapError .table := by
  have hrun := congrArg Prod.fst (runInstrsOn_eq a (Writer.echo k).sink is t {})
  have hstart : ({} : Output).calls ≤ k := Nat.zero_le k
  have hanswer := writeAll_echo (@ne_empty_of_mem_linesOf a is t) hstart
  rw [runInstrsOn_sink] at hrun
  refine Eq.trans hrun ?_
  rcases hall : (Writer.echo k).sink.writeAll {} (linesOf a is t) with ⟨answer, out⟩
  rw [hall] at hanswer
  obtain rfl : answer = _ := hanswer
  rw [Nat.sub_zero]
  cases (linesOf a is t)[k]? <;> rfl

/-- **The results with all writers tell the lines that a run offers.** -/
theorem lines_eq_of_results {a a' : Allocator} {is is' : List Instr} {t t' : Table}
    (h : ∀ w, (runInstrs a w is t {}).result = (runInstrs a' w is' t' {}).result) :
    linesOf a is t = linesOf a' is' t' := by
  have hending : ∀ (e : Except TableError Unit) (line : String),
      e.mapError RuntimeError.table ≠ .error (.output line) := by
    rintro (e | ⟨⟩) line heq <;> cases heq
  refine List.ext_getElem? fun k ↦ ?_
  have hk := h (.echo k)
  rw [result_echo, result_echo] at hk
  rcases hline : (linesOf a is t)[k]? with - | line <;>
    rcases hline' : (linesOf a' is' t')[k]? with - | line' <;>
    simp only [hline, hline'] at hk
  · rfl
  · exact absurd hk (hending _ _)
  · exact absurd hk.symm (hending _ _)
  · cases hk
    rfl

/-! ### A writer in the place of a sink -/

namespace Sink

/-- The writer that answers these lines as the sink does. -/
def asWriter (s : Sink σ) (x : σ) (lines : List String) : Writer where
  refusal calls _ :=
    match lines[calls]? with
    | none => none
    | some line =>
      match (s.write (s.writeAll x (lines.take calls)).2 line).1 with
      | .ok () => none
      | .error reason => some reason
  flushRefusal _ := (s.flush (s.writeAll x lines).2).1

/-- After the first `n` lines, sink and writer have given the same answer; if it was that all are
taken, the writer has been called `n` times. -/
theorem answer_asWriter (s : Sink σ) (x : σ) {lines : List String}
    (hne : ∀ line ∈ lines, line ≠ "") {n : Nat} (hn : n ≤ lines.length) :
    (s.writeAll x (lines.take n)).1 = ((s.asWriter x lines).sink.writeAll {} (lines.take n)).1 ∧
      ((s.writeAll x (lines.take n)).1 = .ok () →
        ((s.asWriter x lines).sink.writeAll {} (lines.take n)).2.calls = n) := by
  induction n with
  | zero => exact ⟨rfl, fun _ ↦ rfl⟩
  | succ n ih =>
    obtain ⟨hanswer, hcalls⟩ := ih (Nat.le_of_succ_le hn)
    rw [List.take_succ_eq_append_getElem hn]
    rcases hfirst : s.writeAll x (lines.take n) with ⟨reason | ⟨⟩, y⟩ <;>
      rcases hfirst' : (s.asWriter x lines).sink.writeAll {} (lines.take n) with ⟨answer, out⟩ <;>
      rw [hfirst, hfirst'] at hanswer
    · obtain rfl : .error reason = answer := hanswer
      rw [writeAll_append_of_error hfirst, writeAll_append_of_error hfirst']
      exact ⟨rfl, fun h ↦ (nomatch h)⟩
    · obtain rfl : .ok () = answer := hanswer
      have hout : out.calls = n := by simpa [hfirst, hfirst'] using hcalls
      have hline : lines[n] ≠ "" := hne _ (List.getElem_mem hn)
      -- the writer looks up what the sink says to this line behind those before it
      have hrefusal : (s.asWriter x lines).refusal out.calls lines[n] =
          match (s.write y lines[n]).1 with
          | .ok () => none
          | .error reason => some reason := by
        simp only [asWriter, hout, List.getElem?_eq_getElem hn, hfirst]
      rw [writeAll_append_of_ok hfirst, writeAll_append_of_ok hfirst', writeAll_singleton,
        writeAll_singleton]
      show (s.write y lines[n]).1 = ((s.asWriter x lines).write out lines[n]).1 ∧ (_ →
        ((s.asWriter x lines).write out lines[n]).2.calls = n + 1)
      rw [Writer.write, if_neg hline, hrefusal, hout]
      rcases (s.write y lines[n]).1 with reason | ⟨⟩
      · exact ⟨rfl, fun _ ↦ rfl⟩
      · exact ⟨rfl, fun _ ↦ rfl⟩

theorem alike_asWriter (s : Sink σ) (x : σ) {lines : List String}
    (hne : ∀ line ∈ lines, line ≠ "") : s.Alike x (s.asWriter x lines).sink {} lines := by
  intro first hfirst
  rw [List.prefix_iff_eq_take.1 hfirst]
  exact (s.answer_asWriter x hne hfirst.length_le).1

end Sink

/-! ### Executing on a sink -/

/-- What executing instructions on a sink gives. -/
structure ReportOn (σ : Type) where
  /-- Whether the run succeeded, and if not why. -/
  result : Except RuntimeError Unit
  /-- The number of slots the final cleanup released. -/
  released : Nat
  /-- The sink afterwards. -/
  sink : σ
  /-- The table afterwards. -/
  table : Table
  /-- The log records made, in order. -/
  events : List Event

/-- Run instructions on a sink, then flush it and release every live slot. -/
def executeInstrsOn (a : Allocator) (s : Sink σ) (instrs : List Instr) (t : Table) (x : σ) :
    ReportOn σ :=
  let ran := runInstrsOn a s instrs t x
  let failed := match ran.result with
    | .ok () => []
    | .error e => [.bodyFailed e.message]
  let (flushed, sink) := s.flush ran.sink
  let unflushed := match flushed with
    | none => []
    | some reason => [.flushFailed reason]
  let released := ran.table.liveCount
  { result := ran.result
    released := released
    sink := sink
    table := ran.table.emptied
    events := ran.events ++ failed ++ unflushed ++ ran.table.cleanupEvents ++ [.finished released] }

/-- A report that says what another says of everything but the output. -/
structure ReportOn.Like (r : ReportOn σ) (r' : Report RuntimeError) : Prop where
  result : r.result = r'.result
  released : r.released = r'.released
  table : r.table = r'.table
  events : r.events = r'.events

/-- Executing on a sink is executing with the writer that answers the lines of the run as the sink
does. -/
theorem executeInstrsOn_like (a : Allocator) (s : Sink σ) (is : List Instr) (t : Table) (x : σ) :
    (executeInstrsOn a s is t x).Like
      (executeInstrs a (s.asWriter x (linesOf a is t)) is t) := by
  have halike := s.alike_asWriter x (@ne_empty_of_mem_linesOf a is t)
  obtain ⟨hresult, htable, hevents⟩ := runInstrsOn_alike halike
  rw [runInstrsOn_sink] at hresult htable hevents
  refine ⟨hresult, congrArg Table.liveCount htable, congrArg Table.emptied htable, ?_⟩
  have hflush : ∀ out, (s.asWriter x (linesOf a is t)).flush out =
      (s.flush (s.writeAll x (linesOf a is t)).2).1 := fun _ ↦ rfl
  simp only [executeInstrsOn, executeInstrs, execute, hresult, htable, hevents, sink_runInstrsOn,
    hflush, RanOn.ofRan]
  rcases runInstrs a (s.asWriter x (linesOf a is t)) is t {} with ⟨_ | _, _, _, _⟩ <;>
    cases (s.flush (s.writeAll x (linesOf a is t)).2).1 <;> rfl

/-- **Writers stand for sinks.**

If two executions, on tables and with allocators of their own, end alike with every writer, then
they do the same to every sink, whatever its state. Moreover one writer stands for the sink in both:
with it each execution ends as on the sink, releases as many slots, and leaves the same table and
the same log. So whatever is true of the two executions for all writers is true of them for all
sinks. -/
theorem writers_stand_for_sinks {a a' : Allocator} {is is' : List Instr} {t t' : Table}
    (h : ∀ w, (executeInstrs a w is t).result = (executeInstrs a' w is' t').result)
    (s : Sink σ) (x : σ) :
    (executeInstrsOn a s is t x).sink = (executeInstrsOn a' s is' t' x).sink ∧
      ∃ w, (executeInstrsOn a s is t x).Like (executeInstrs a w is t) ∧
        (executeInstrsOn a' s is' t' x).Like (executeInstrs a' w is' t') := by
  have hlines : linesOf a is t = linesOf a' is' t' := lines_eq_of_results h
  have hlike := executeInstrsOn_like a s is t x
  have hlike' := executeInstrsOn_like a' s is' t' x
  rw [← hlines] at hlike'
  refine ⟨?_, _, hlike, hlike'⟩
  show (s.flush (runInstrsOn a s is t x).sink).2 = (s.flush (runInstrsOn a' s is' t' x).sink).2
  rw [sink_runInstrsOn, sink_runInstrsOn, hlines]

/-- Tables that differ in generations only are the same to every sink. -/
theorem sink_of_alike {t t' : Table} (h : t.Alike t') (a : Allocator) (is : List Instr)
    (s : Sink σ) (x : σ) :
    (executeInstrsOn a s is t x).sink = (executeInstrsOn a s is t' x).sink :=
  (writers_stand_for_sinks (fun w ↦ (runInstrs_alike h a w is {}).result) s x).1

/-- A compiled program sends the same bytes to a device whatever the table held before. -/
theorem device_of_compiled {a : Allocator} {t t' : Table} {source : String} {capacity : Nat}
    {m : Module} (hm : compileFor source capacity = .ok m) (hcapacity : t.capacity = t'.capacity)
    (ht : t.Open) (ht' : t'.Open) (hgrants : ∀ inUse, a.grants inUse 8 = true) (d : Device σ)
    (x : σ) :
    (executeInstrsOn a d.sink m.lower.instrs t x).sink =
      (executeInstrsOn a d.sink m.lower.instrs t' x).sink := by
  have hsafe := safeAll_of_compileFor hm
  refine (writers_stand_for_sinks (fun w ↦ ?_) d.sink x).1
  exact (hsafe.agree (m.granted_lower hgrants) (Table.agree_zero hcapacity) ht ht' w {}).1

end SlotLang
