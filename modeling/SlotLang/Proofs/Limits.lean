import SlotLang.Proofs.Declarations
import SlotLang.Proofs.Meaning

/-!
# Running out

A running program can run out of three things: slots of the table, bytes under the table's limit,
and lines that the writer takes. Which of them it is, and where, can be read off the program.
`Limits.fault?` says of one statement whether it fails, from nothing but the number of declarations
and of prints before it, and `Limits.walk` goes down the statements to the first that does.

`first_fault_decides` is that executing a program on an empty table gives what the walk gives: the
error of the first failing statement, the lines of the prints before it, as many slots to release as
there are declarations before it, and one call of the writer for each print, with one more for a
line that is refused.

The step has two sides, and both start from the relation `Simulates` between environments and
tables. A statement that passes does what it means (`Simulates.step`, with the room that
`room_of_passing` finds), and one that fails does so at its first instruction and leaves table and
text as they were (`Simulates.fails`).
-/

namespace SlotLang

/-! ### The walk -/

namespace Stmt

/-- The number of declarations among statements. -/
def declarations (ss : List Stmt) : Nat := (ss.filterMap declared?).length

/-- The number of prints among statements. -/
def prints (ss : List Stmt) : Nat := ss.countP isPrint

theorem declarations_append (ss ss' : List Stmt) :
    declarations (ss ++ ss') = declarations ss + declarations ss' := by
  simp [declarations]

theorem prints_append (ss ss' : List Stmt) : prints (ss ++ ss') = prints ss + prints ss' :=
  List.countP_append

theorem prints_singleton (s : Stmt) : prints [s] = if s.isPrint then 1 else 0 :=
  List.countP_singleton

theorem Checked.slotCount_eq_add {r r' : Registry} {s : Stmt} (h : s.Checked r r') :
    r'.slotCount = r.slotCount + declarations [s] := by
  cases h with
  | declaration span hvalue hv =>
    obtain ⟨-, hcount, -⟩ := Registry.declare?_eq_some hv
    exact hcount
  | call => rfl
  | value => rfl

end Stmt

/-- What a run has at its disposal. -/
structure Limits where
  /-- The slots of the table. -/
  slots : Nat
  /-- The bytes they may take together, if there is a limit. -/
  bytes : Option Nat
  /-- The lines that the writer takes, if there is a limit. -/
  lines : Option Nat
deriving DecidableEq, Repr

/-- How a walk down some statements ends. -/
structure Walk where
  /-- The statements that pass, up to the first that fails. -/
  passed : List Stmt
  /-- Why that one fails, if there is one. -/
  error : Option RuntimeError
deriving DecidableEq, Repr

namespace Limits

/-- Why a statement fails behind others that have passed, if it does. -/
def fault? (l : Limits) (before : List Stmt) : Stmt → Option RuntimeError
  | .declaration .. =>
    let j := Stmt.declarations before
    if l.slots ≤ j then some (.table (.indexOutOfRange j l.slots))
    else
      match l.bytes with
      | some limit => if limit < 8 * (j + 1) then some (.table (.outOfMemory 8)) else none
      | none => none
  | .expr (.call .print _ _) =>
    match l.lines with
    | some n =>
      if n ≤ Stmt.prints before then some (.output "deliberate write failure") else none
    | none => none
  | .expr _ => none

/-- Go down statements, behind those of `before`, to the first that fails. -/
def walk (l : Limits) (before : List Stmt) : List Stmt → Walk
  | [] => ⟨[], none⟩
  | s :: ss =>
    match l.fault? before s with
    | some e => ⟨[], some e⟩
    | none =>
      let rest := l.walk (before ++ [s]) ss
      ⟨s :: rest.passed, rest.error⟩

variable {l : Limits} {before : List Stmt} {s : Stmt} {ss : List Stmt}

theorem walk_cons_of_none (h : l.fault? before s = none) :
    l.walk before (s :: ss) =
      ⟨s :: (l.walk (before ++ [s]) ss).passed, (l.walk (before ++ [s]) ss).error⟩ := by
  rw [walk, h]

theorem walk_cons_of_some {e : RuntimeError} (h : l.fault? before s = some e) :
    l.walk before (s :: ss) = ⟨[], some e⟩ := by
  rw [walk, h]

/-- Every statement passed by the walk passes. -/
theorem fault?_of_mem_passed (l : Limits) (before ss : List Stmt) {pre post : List Stmt} {s : Stmt}
    (h : (l.walk before ss).passed = pre ++ s :: post) : l.fault? (before ++ pre) s = none := by
  induction ss generalizing before pre with
  | nil => simp [walk] at h
  | cons s' ss ih =>
    rcases hf : l.fault? before s' with - | e
    · rw [walk_cons_of_none hf] at h
      rcases pre with - | ⟨p, pre⟩
      · obtain ⟨rfl, -⟩ := List.cons.inj h
        rw [List.append_nil, hf]
      · obtain ⟨rfl, hrest⟩ := List.cons.inj h
        have hnone := ih (before ++ [s']) hrest
        rwa [List.append_assoc] at hnone
    · simp [walk_cons_of_some hf] at h

/-- The walk ends behind the last statement, or before one that fails. -/
theorem walk_ends (l : Limits) (before ss : List Stmt) :
    (l.walk before ss).error = none ∧ (l.walk before ss).passed = ss ∨
      ∃ e s post, (l.walk before ss).error = some e ∧
        ss = (l.walk before ss).passed ++ s :: post ∧
        l.fault? (before ++ (l.walk before ss).passed) s = some e := by
  induction ss generalizing before with
  | nil => exact .inl ⟨rfl, rfl⟩
  | cons s ss ih =>
    rcases hf : l.fault? before s with - | e
    · rw [walk_cons_of_none hf]
      rcases ih (before ++ [s]) with ⟨hnone, hpassed⟩ | ⟨e, s', post, herror, hsplit, hfault⟩
      · exact .inl ⟨hnone, by rw [hpassed]⟩
      · refine .inr ⟨e, s', post, herror, by rw [List.cons_append, ← hsplit], ?_⟩
        rwa [List.append_assoc] at hfault
    · rw [walk_cons_of_some hf]
      exact .inr ⟨e, s, ss, rfl, rfl, by rwa [List.append_nil]⟩

end Limits

/-- What a program has at its disposal on an empty table and a writer with a budget. -/
def Table.limits (t : Table) (budget : Option Nat) : Limits :=
  ⟨t.capacity, t.config.memoryLimit, budget⟩

/-- The calls of the writer that a failure takes: a line that is refused was offered. -/
def RuntimeError.attempts : RuntimeError → Nat
  | .output _ => 1
  | .table _ => 0

/-! ### Refusals -/

namespace Table

variable {a : Allocator} {t : Table} {i n : Nat}

theorem create_of_capacity_le (a : Allocator) (h : t.capacity ≤ i) :
    t.create a i n = t.refuse (.indexOutOfRange i t.capacity) := by
  have hs : t.slots[i]? = none := List.getElem?_eq_none_iff.2 h
  simp only [create, slot, hs]

/-- An empty slot is refused when its bytes would break the limit, whatever the allocator says. -/
theorem create_of_not_admits (a : Allocator) (hi : i < t.capacity) (hdead : t.buffer? i = none)
    (hlimit : t.config.admits (t.allocatedBytes + n) = false) :
    t.create a i n = t.refuse (.outOfMemory n) := by
  have hs : t.slots[i]? = some (t.slots.get ⟨i, hi⟩) := List.getElem?_eq_getElem hi
  generalize t.slots.get ⟨i, hi⟩ = s at hs
  have hdata : s.data = none := by simpa [buffer?, hs] using hdead
  have hsize : s.size = 0 := by simp [Slot.size, Slot.size?, hdata]
  rw [create_of_getElem? hs]
  simp [Slot.isLive, hdata, hsize, hlimit]

end Table

section Refused

variable {a : Allocator} {w : Writer} {t : Table} {out : Output}

theorem run_alloc_of_refuse {i n : Nat} {e : TableError} (h : t.create a i n = t.refuse e) :
    (Instr.alloc i n).run a w t out = ⟨.error (.table e), t, out, []⟩ := by
  simp only [Instr.run, Ran.ofStep, h]
  rfl

theorem run_print_of_refusal {op : Operand} {v : Int32} {reason : String}
    (hv : op.eval t = .ok v) (hw : w.refusal out.calls (printedLine v) = some reason) :
    (Instr.call .print [op]).run a w t out =
      ⟨.error (.output reason), t, ⟨out.text, out.calls + 1⟩, []⟩ := by
  have hwrite : w.write out (printedLine v) = (.error reason, ⟨out.text, out.calls + 1⟩) := by
    rw [Writer.write, if_neg (printedLine_ne_empty v), hw]
  simp only [Instr.run, printOperands, hv, hwrite]

end Refused

/-- A writer with a budget refuses every line behind it. -/
theorem Writer.refusal_ofBudget (budget : Option Nat) (calls : Nat) (piece : String) :
    (Writer.ofBudget budget).refusal calls piece =
      match budget with
      | some n => if n ≤ calls then some "deliberate write failure" else none
      | none => none := by
  cases budget <;> rfl

/-! ### One statement -/

namespace Simulates

variable {r r' : Registry} {env : Env} {t : Table} {s : Stmt} {budget : Option Nat}
  {before : List Stmt} {out : Output}

/-- The slots given out are slots of the table. -/
theorem slotCount_le (h : Simulates r env t) : r.slotCount ≤ t.capacity := by
  refine Nat.le_of_not_lt fun hlt ↦ ?_
  have hsome := (h.live t.capacity).2 hlt
  have hnone : t.slots[t.capacity]? = none := List.getElem?_eq_none_iff.2 (Nat.le_refl _)
  rw [Table.buffer?, hnone] at hsome
  cases hsome

/-- **A statement that passes has all it needs**: a slot and its bytes if it is a declaration, and a
writer that takes its line if it is a print. -/
theorem room_of_passing (h : Simulates r env t) (hs : s.Checked r r')
    (hlimit : t.config.admits (8 * r.slotCount) = true)
    (hslots : r.slotCount = Stmt.declarations before) (hcalls : out.calls = Stmt.prints before)
    (hpass : (t.limits budget).fault? before s = none) :
    r'.slotCount ≤ t.capacity ∧ t.config.admits (8 * r'.slotCount) = true ∧
      (s.isPrint = true → ∀ piece, (Writer.ofBudget budget).refusal out.calls piece = none) := by
  cases hs with
  | declaration span hvalue hv =>
    obtain ⟨-, hcount, -⟩ := Registry.declare?_eq_some hv
    simp only [Limits.fault?, Table.limits, ← hslots] at hpass
    split at hpass
    · cases hpass
    · rename_i hroom
      refine ⟨by omega, ?_, fun hprint ↦ by cases hprint⟩
      unfold TableConfig.admits
      split
      · rfl
      · rename_i limit hlim
        simp only [hlim] at hpass
        split at hpass
        · cases hpass
        · exact decide_eq_true (by omega)
  | @call builtin args span harity hargs =>
    cases builtin
    refine ⟨h.slotCount_le, hlimit, fun _ piece ↦ ?_⟩
    simp only [Limits.fault?, Table.limits, ← hcalls] at hpass
    rw [Writer.refusal_ofBudget]
    cases budget with
    | none => rfl
    | some n =>
      by_cases hn : n ≤ out.calls
      · simp [hn] at hpass
      · exact if_neg hn
  | value he =>
    refine ⟨h.slotCount_le, hlimit, fun hprint ↦ ?_⟩
    cases he <;> cases hprint

/-- **A statement that fails** does so at its first instruction, with the fault foreseen, and leaves
the table and the text as they were. -/
theorem fails (h : Simulates r env t) (hs : s.Checked r r')
    (hslots : r.slotCount = Stmt.declarations before) (hcalls : out.calls = Stmt.prints before)
    {e : RuntimeError} (hfault : (t.limits budget).fault? before s = some e) (a : Allocator) :
    runInstrs a (.ofBudget budget) s.instrs t out =
      ⟨.error e, t, ⟨out.text, out.calls + e.attempts⟩, []⟩ := by
  cases hs with
  | @declaration name type v value r' span hvalue hv =>
    obtain ⟨rfl, -⟩ := Registry.declare?_eq_some hv
    cases type
    have hrefuse : ∃ e', e = .table e' ∧ t.create a r.slotCount 8 = t.refuse e' := by
      simp only [Limits.fault?, Table.limits, ← hslots] at hfault
      split at hfault
      · rename_i hfull
        exact ⟨_, (Option.some.inj hfault).symm, Table.create_of_capacity_le a hfull⟩
      · rename_i hroom
        split at hfault
        · rename_i limit hlim
          split at hfault
          · rename_i hlt
            refine ⟨_, (Option.some.inj hfault).symm,
              Table.create_of_not_admits a (by omega) h.buffer?_slotCount ?_⟩
            rw [TableConfig.admits, hlim]
            exact decide_eq_false (by rw [h.bytes]; omega)
          · cases hfault
        · cases hfault
    obtain ⟨e', rfl, hcreate⟩ := hrefuse
    have hrun : (Instr.alloc r.slotCount 8).run a (.ofBudget budget) t out = _ :=
      run_alloc_of_refuse hcreate
    exact (runInstrs_cons_of_error (congrArg Ran.result hrun)).trans hrun
  | @call builtin args span harity hargs =>
    cases builtin
    obtain ⟨arg, rfl⟩ := List.length_eq_one_iff.1 harity
    obtain ⟨x, -, heval⟩ := h.eval (hargs arg (by simp))
    have hrefusal : ∃ reason, e = .output reason ∧
        (Writer.ofBudget budget).refusal out.calls (printedLine x) = some reason := by
      simp only [Limits.fault?, Table.limits, ← hcalls] at hfault
      rw [Writer.refusal_ofBudget]
      cases budget with
      | none => cases hfault
      | some n =>
        by_cases hn : n ≤ out.calls
        · simp only [if_pos hn] at hfault ⊢
          exact ⟨_, (Option.some.inj hfault).symm, rfl⟩
        · simp [hn] at hfault
    obtain ⟨reason, rfl, hrefusal⟩ := hrefusal
    have hrun : (Instr.call .print [arg.operand]).run a (.ofBudget budget) t out = _ :=
      run_print_of_refusal heval hrefusal
    exact (runInstrs_cons_of_error (congrArg Ran.result hrun)).trans hrun
  | value he => cases he <;> cases hfault

/-! ### Many statements -/

/-- **A program, from any point of its run on, does what the walk foresees.** -/
theorem run_eq_walk {a : Allocator} (ha : ∀ inUse, a.grants inUse 8 = true) {ss : List Stmt}
    (h : Simulates r env t) (hs : Stmt.CheckedAll r ss r')
    (hlimit : t.config.admits (8 * r.slotCount) = true) (budget : Option Nat)
    (before : List Stmt) (out : Output) (hslots : r.slotCount = Stmt.declarations before)
    (hcalls : out.calls = Stmt.prints before) :
    let walk := (t.limits budget).walk before ss
    let ran := runInstrs a (.ofBudget budget) (ss.flatMap Stmt.instrs) t out
    ran.result = walk.error.elim (.ok ()) .error ∧
      (∃ text, Stmt.meaningAll? env walk.passed = some text ∧ ran.output.text = out.text ++ text) ∧
      ran.output.calls =
        Stmt.prints (before ++ walk.passed) + walk.error.elim 0 RuntimeError.attempts ∧
      ran.table.liveCount = Stmt.declarations (before ++ walk.passed) := by
  induction hs generalizing env t out before with
  | nil r =>
    refine ⟨rfl, ⟨"", rfl, by simp [runInstrs]⟩, ?_, ?_⟩
    · show out.calls = _
      simpa [Limits.walk] using hcalls
    · show t.liveCount = _
      rw [Table.liveCount_eq_of_buffer? h.live, hslots]
      simp [Limits.walk]
  | @cons r r₁ r' s ss hs hss ih =>
    rw [List.flatMap_cons, runInstrs_append]
    rcases hf : (t.limits budget).fault? before s with - | e
    · obtain ⟨hcap, hlimit₁, hw⟩ := h.room_of_passing hs hlimit hslots hcalls hf
      obtain ⟨env₁, line, t₁, out₁, hmeaning, ⟨hok, rfl, rfl⟩, ⟨htext, hcalls₁⟩, h₁, hcap₁,
        hconfig₁⟩ := h.step ha hs hcap hlimit₁ out hw
      -- the table keeps its limits, so the walk goes on with the ones it started with
      have hlimits : (runInstrs a (.ofBudget budget) s.instrs t out).table.limits budget =
          t.limits budget := by
        rw [Table.limits, hcap₁, hconfig₁]
        rfl
      have hrest := ih h₁ (by rwa [hconfig₁]) (before ++ [s]) _
        (by rw [hs.slotCount_eq_add, hslots, Stmt.declarations_append])
        (by rw [hcalls₁, hcalls, Stmt.prints_append, Stmt.prints_singleton])
      simp only [hlimits, List.append_assoc, List.singleton_append] at hrest
      obtain ⟨hresult, ⟨text, hmeaning₁, htext₁⟩, hcalls', hlive⟩ := hrest
      simp only [Limits.walk_cons_of_none hf, Ran.andThen, hok]
      refine ⟨hresult, ⟨line ++ text, ?_, ?_⟩, hcalls', hlive⟩
      · rw [Stmt.meaningAll?, hmeaning]
        simp only [hmeaning₁, Option.map_some]
      · rw [← String.append_assoc, ← htext]
        exact htext₁
    · rw [Limits.walk_cons_of_some hf, h.fails hs hslots hcalls hf a]
      refine ⟨rfl, ⟨"", rfl, by simp [Ran.andThen]⟩, ?_, ?_⟩
      · simpa [Ran.andThen] using hcalls
      · show t.liveCount = _
        rw [Table.liveCount_eq_of_buffer? h.live, hslots, List.append_nil]

end Simulates

/-! ### Compiled programs -/

theorem TableConfig.admits_zero (c : TableConfig) : c.admits 0 = true := by
  unfold TableConfig.admits
  split
  · rfl
  · exact decide_eq_true (Nat.zero_le _)

/-- **The first statement that fails decides.**

Walk down a compiled program with the limits of an empty table and of a writer. All statements that
the walk passes pass, and if it stops, then before one that fails. When none fails, executing the
program succeeds, prints its meaning and releases all its slots. Otherwise the result is the fault
of the first that does; printed are the lines that the statements before it mean, released are the
slots that they declare, and the writer was called once for each of their prints, and once more if
the fault is a line refused. The table is empty afterwards. -/
theorem first_fault_decides {source : String} {capacity : Nat} {m : Module}
    (hm : compileFor source capacity = .ok m) {a : Allocator}
    (ha : ∀ inUse, a.grants inUse 8 = true) {t : Table} (ht : t.Empty) (budget : Option Nat) :
    let limits := t.limits budget
    let walk := limits.walk [] m.statements
    let report := m.lower.execute a (.ofBudget budget) t
    report.table.Empty ∧
      (∀ pre s post, walk.passed = pre ++ s :: post → limits.fault? pre s = none) ∧
      (walk.error = none → walk.passed = m.statements ∧ report.result = .ok () ∧
        report.exitCode = 0 ∧ report.released = m.slotCount ∧
        m.meaning? = some report.output.text ∧
        report.output.calls = Stmt.prints m.statements) ∧
      ∀ e, walk.error = some e →
        (∃ s post, m.statements = walk.passed ++ s :: post ∧
          limits.fault? walk.passed s = some e) ∧
        report.result = .error e ∧ report.exitCode = 1 ∧
        report.released = Stmt.declarations walk.passed ∧
        Stmt.meaningAll? .empty walk.passed = some report.output.text ∧
        report.output.calls = Stmt.prints walk.passed + e.attempts := by
  intro limits walk report
  obtain ⟨r, hchecked, hcount⟩ := checked_of_compileFor hm
  have hslots : m.slotCount = Stmt.declarations m.statements :=
    hcount.symm.trans hchecked.slotCount_eq
  obtain ⟨hresult, ⟨text, hmeaning, htext⟩, hcalls, hlive⟩ :=
    (simulates_empty ht capacity).run_eq_walk ha hchecked t.config.admits_zero budget [] {} rfl rfl
  have hresult' : report.result = walk.error.elim (.ok ()) .error := hresult
  have htext' : report.output.text = text := by
    refine htext.trans ?_
    rw [String.empty_append]
  have hmeaning' : Stmt.meaningAll? .empty walk.passed = some report.output.text := by
    rw [htext']
    exact hmeaning
  have hcalls' : report.output.calls =
      Stmt.prints walk.passed + walk.error.elim 0 RuntimeError.attempts := hcalls
  have hreleased : report.released = Stmt.declarations walk.passed := hlive
  refine ⟨Table.empty_emptied _, fun pre s post hpassed ↦ ?_, fun hnone ↦ ?_, fun e hsome ↦ ?_⟩
  · exact Limits.fault?_of_mem_passed limits [] m.statements hpassed
  · have hpassed : walk.passed = m.statements := by
      rcases Limits.walk_ends limits [] m.statements with ⟨-, hall⟩ | ⟨e, -, -, hsome, -⟩
      · exact hall
      · cases hsome.symm.trans hnone
    rw [hnone] at hresult' hcalls'
    rw [hpassed] at hmeaning' hcalls' hreleased
    refine ⟨hpassed, hresult', ?_, hreleased.trans hslots.symm, hmeaning', hcalls'⟩
    rw [Report.exitCode, Report.isOk, hresult']
    rfl
  · rw [hsome] at hresult' hcalls'
    refine ⟨?_, hresult', ?_, hreleased, hmeaning', hcalls'⟩
    · rcases Limits.walk_ends limits [] m.statements with
        ⟨hnone, -⟩ | ⟨e', s, post, hsome', hsplit, hfault⟩
      · cases hsome.symm.trans hnone
      · obtain rfl := Option.some.inj (hsome.symm.trans hsome')
        exact ⟨s, post, hsplit, hfault⟩
    · rw [Report.exitCode, Report.isOk, hresult']
      rfl

/-- Two slots, sixteen bytes and no line: both declarations of `x` just pass, and what fails is the
print, at its first call of the writer. -/
theorem redeclaration_refused_line :
    compileFor Redeclaration.source 256 = .ok Redeclaration.checked ∧
      let report := Redeclaration.checked.lower.execute .system (.ofBudget (some 0))
        (Table.fresh { capacity := 2, memoryLimit := some 16 })
      report.result = .error (.output "deliberate write failure") ∧ report.exitCode = 1 ∧
        report.released = 2 ∧ report.output.calls = 1 := by
  obtain ⟨-, -, -, hfails⟩ := first_fault_decides Redeclaration.compileFor_source
    (a := .system) (fun _ ↦ rfl)
    (t := Table.fresh { capacity := 2, memoryLimit := some 16 }) ⟨rfl, rfl⟩ (some 0)
  obtain ⟨-, hresult, hcode, hreleased, -, hcalls⟩ :=
    hfails (.output "deliberate write failure") rfl
  exact ⟨Redeclaration.compileFor_source, hresult, hcode, hreleased, hcalls⟩

end SlotLang
