import SlotLang.Proofs.Safety

/-!
# Declarations and reads

What a reader of a compiled program can count on, said about the program alone: its declarations
have the slots 0, 1, 2, … in order, every read carries the variable of the latest declaration of its
name that stands before it, and a call is a statement by itself.

* `Stmt.latest?` finds that declaration in the statements themselves. The registry is gone from the
  finished program, and `CheckedAll.resolve?_eq` is where it goes: at every point of a checked
  program it holds exactly the latest declarations so far.
* `Expr.nodes` reaches every expression inside an expression, arguments of arguments included, so
  that "every read" and "every call" mean what they say also where a program could be ill formed.
* `Stmt.instrs` turns only the expressions in `Stmt.values` into operands
  (`operands_instrs`), and in a checked program none of them is a call.
-/

namespace SlotLang

/-! ### The latest declaration of a name -/

namespace Stmt

/-- The variable that a statement declares. -/
def declared? : Stmt → Option Variable
  | .declaration _ v _ _ => some v
  | .expr _ => none

/-- The variable that a statement declares under a name. -/
def binds? (name : String) : Stmt → Option Variable
  | .declaration other v _ _ => if other = name then some v else none
  | .expr _ => none

/-- The variable of the last of some statements that declares a name. -/
def latest? (name : String) (ss : List Stmt) : Option Variable :=
  ss.reverse.findSome? (binds? name)

theorem latest?_append (name : String) (ss ss' : List Stmt) :
    latest? name (ss ++ ss') = (latest? name ss').or (latest? name ss) := by
  rw [latest?, List.reverse_append, List.findSome?_append]
  rfl

theorem latest?_cons (name : String) (s : Stmt) (ss : List Stmt) :
    latest? name (s :: ss) = (latest? name ss).or (s.binds? name) := by
  have hone : latest? name [s] = s.binds? name := by
    cases h : s.binds? name <;> simp [latest?, h]
  rw [← hone, ← latest?_append]
  rfl

theorem binds?_eq_some {name : String} {v : Variable} {s : Stmt} (h : s.binds? name = some v) :
    ∃ value span, s = .declaration name v value span := by
  cases s with
  | declaration other w value span =>
    rw [binds?] at h
    split at h
    · rename_i hname
      obtain rfl := Option.some.inj h
      exact ⟨value, span, by rw [hname]⟩
    · cases h
  | expr e => cases h

/-- What it means to be the latest: a declaration of the name, and none of it behind. -/
theorem latest?_eq_some_iff {name : String} {v : Variable} {ss : List Stmt} :
    latest? name ss = some v ↔
      ∃ before value span between, ss = before ++ .declaration name v value span :: between ∧
        ∀ s ∈ between, s.binds? name = none := by
  rw [latest?, List.findSome?_eq_some_iff]
  constructor
  · rintro ⟨between, s, before, hss, hs, hnone⟩
    obtain ⟨value, span, rfl⟩ := binds?_eq_some hs
    refine ⟨before.reverse, value, span, between.reverse, ?_, ?_⟩
    · simpa using congrArg List.reverse hss
    · intro s hs
      exact hnone s (List.mem_reverse.1 hs)
  · rintro ⟨before, value, span, between, rfl, hnone⟩
    refine ⟨between.reverse, .declaration name v value span, before.reverse, by simp, ?_, ?_⟩
    · simp [binds?]
    · intro s hs
      exact hnone s (List.mem_reverse.1 hs)

/-! ### The registry holds the latest declarations -/

theorem Checked.resolve?_eq {r r' : Registry} {s : Stmt} (h : s.Checked r r') (name : String) :
    r'.resolve? name = (s.binds? name).or (r.resolve? name) := by
  cases h with
  | @declaration declared type v value r' span hvalue hv =>
    obtain ⟨-, -, -, -, hself, hother⟩ := Registry.declare?_eq_some hv
    rw [binds?]
    split
    · rename_i hname
      rw [← hname, hself]
      rfl
    · rename_i hname
      exact hother name (Ne.symm hname)
  | call => rfl
  | value => rfl

/-- **The registry holds the latest declarations**, and where there is none what it held before. -/
theorem CheckedAll.resolve?_eq {r r' : Registry} {ss : List Stmt} (h : CheckedAll r ss r')
    (name : String) : r'.resolve? name = (latest? name ss).or (r.resolve? name) := by
  induction h with
  | nil => rfl
  | cons h _ ih => rw [ih, h.resolve?_eq, latest?_cons, Option.or_assoc]

/-- A program read from no declarations on resolves a name to its latest declaration. -/
theorem CheckedAll.resolve?_eq_latest? {capacity : Nat} {r : Registry} {ss : List Stmt}
    (h : CheckedAll (.empty capacity) ss r) (name : String) :
    r.resolve? name = latest? name ss := by
  have hempty : (Registry.empty capacity).resolve? name = none := rfl
  rw [h.resolve?_eq, hempty, Option.or_none]

/-- A checked program is checked up to any of its statements, and that statement is checked under
what stands before it. -/
theorem CheckedAll.split {r r'' : Registry} {pre post : List Stmt} {s : Stmt}
    (h : CheckedAll r (pre ++ s :: post) r'') :
    ∃ r₁ r₂, CheckedAll r pre r₁ ∧ s.Checked r₁ r₂ ∧ CheckedAll r₂ post r'' := by
  induction pre generalizing r with
  | nil =>
    cases h with
    | cons hs hpost => exact ⟨_, _, .nil _, hs, hpost⟩
  | cons p pre ih =>
    cases h with
    | cons hp hrest =>
      obtain ⟨r₁, r₂, hpre, hs, hpost⟩ := ih hrest
      exact ⟨r₁, r₂, .cons hp hpre, hs, hpost⟩

theorem CheckedAll.bounded {r r' : Registry} {ss : List Stmt} (hr : r.Bounded)
    (h : CheckedAll r ss r') : r'.Bounded := by
  induction h with
  | nil => exact hr
  | cons h _ ih => exact ih (h.bounded hr)

/-! ### Declarations are numbered in order -/

/-- The slots of the declarations run on from those given out before. -/
theorem CheckedAll.slots_eq {r r' : Registry} {ss : List Stmt} (h : CheckedAll r ss r') :
    (ss.filterMap declared?).map Variable.slot =
      List.range' r.slotCount (r'.slotCount - r.slotCount) := by
  induction h with
  | nil r => simp
  | @cons r r₁ r' s ss hs hss ih =>
    have hle : r₁.slotCount ≤ r'.slotCount := hss.slotCount_le
    cases hs with
    | declaration span hvalue hv =>
      obtain ⟨rfl, hcount, -⟩ := Registry.declare?_eq_some hv
      have hlength : r'.slotCount - r.slotCount = r'.slotCount - r₁.slotCount + 1 := by omega
      rw [hlength, List.range'_succ, ← hcount, ← ih]
      rfl
    | call => exact ih
    | value => exact ih

theorem CheckedAll.capacity_eq {r r' : Registry} {ss : List Stmt} (h : CheckedAll r ss r') :
    r'.capacity = r.capacity := by
  induction h with
  | nil => rfl
  | cons hs _ ih =>
    rw [ih]
    cases hs with
    | declaration span hvalue hv =>
      obtain ⟨-, -, -, hcapacity, -⟩ := Registry.declare?_eq_some hv
      exact hcapacity
    | call => rfl
    | value => rfl

/-- As many slots are taken as there are declarations. -/
theorem CheckedAll.slotCount_eq {capacity : Nat} {r : Registry} {ss : List Stmt}
    (h : CheckedAll (.empty capacity) ss r) : r.slotCount = (ss.filterMap declared?).length := by
  have hlength := congrArg List.length h.slots_eq
  rw [List.length_map, List.length_range'] at hlength
  exact hlength.symm

end Stmt

/-! ### Every expression in a statement -/

mutual

/-- An expression and every expression inside it. -/
def Expr.nodes : Expr → List Expr
  | .int v span => [.int v span]
  | .read name v span => [.read name v span]
  | .call builtin args span => .call builtin args span :: Expr.nodesAll args

/-- Some expressions and every expression inside them. -/
def Expr.nodesAll : List Expr → List Expr
  | [] => []
  | e :: es => e.nodes ++ Expr.nodesAll es

end

/-- Whether an expression is a call. -/
def Expr.isCall : Expr → Bool
  | .call .. => true
  | .int .. | .read .. => false

theorem Expr.Resolved.isCall_eq {r : Registry} {e : Expr} (h : e.Resolved r) :
    e.isCall = false := by
  cases h <;> rfl

/-- A resolved value has nothing inside it. -/
theorem Expr.Resolved.nodes_eq {r : Registry} {e : Expr} (h : e.Resolved r) : e.nodes = [e] := by
  cases h with
  | int v span => rw [Expr.nodes]
  | read span h => rw [Expr.nodes]

theorem Expr.nodesAll_of_resolved {r : Registry} {es : List Expr} (h : ∀ e ∈ es, e.Resolved r) :
    Expr.nodesAll es = es := by
  induction es with
  | nil => rw [Expr.nodesAll]
  | cons e es ih =>
    have he : e.nodes = [e] := (h e (by simp)).nodes_eq
    have hes : Expr.nodesAll es = es := ih fun e' he' ↦ h e' (by simp [he'])
    rw [Expr.nodesAll, he, hes]
    rfl

namespace Stmt

/-- Every expression in a statement. -/
def nodes : Stmt → List Expr
  | .declaration _ _ value _ => value.nodes
  | .expr e => e.nodes

/-- The expressions whose values the instructions of a statement use. -/
def values : Stmt → List Expr
  | .declaration _ _ value _ => [value]
  | .expr (.call _ args _) => args
  | .expr e => [e]

/-- **Lowering makes operands of these expressions and no others.** -/
theorem operands_instrs (s : Stmt) :
    s.instrs.flatMap Instr.operands = s.values.map Expr.operand := by
  rcases s with ⟨name, v, value, span⟩ | (⟨v, span⟩ | ⟨name, v, span⟩ | ⟨builtin, args, span⟩)
  · rfl
  · rfl
  · rfl
  · simp [instrs, values, Instr.operands]

variable {r r' : Registry} {s : Stmt}

/-- A read in a checked statement stands for what its name stood for before the statement. -/
theorem Checked.resolve?_of_read (h : s.Checked r r') {name : String} {v : Variable} {span : Span}
    (hread : .read name v span ∈ s.nodes) : r.resolve? name = some v := by
  -- in each of the three kinds of statement the read is itself a resolved value
  have hresolved : (Expr.read name v span).Resolved r := by
    cases h with
    | declaration span' hvalue hv =>
      rw [nodes, hvalue.nodes_eq, List.mem_singleton] at hread
      exact hread ▸ hvalue
    | call span' harity hargs =>
      rw [nodes, Expr.nodes, Expr.nodesAll_of_resolved hargs] at hread
      rcases List.mem_cons.1 hread with hcall | harg
      · cases hcall
      · exact hargs _ harg
    | value he =>
      rw [nodes, he.nodes_eq, List.mem_singleton] at hread
      exact hread ▸ he
  cases hresolved with
  | read _ h => exact h

/-- A call in a checked statement is that statement. -/
theorem Checked.eq_of_call (h : s.Checked r r') {builtin : Builtin} {args : List Expr} {span : Span}
    (hcall : .call builtin args span ∈ s.nodes) :
    s = .expr (.call builtin args span) ∧ args.length = builtin.arity ∧
      ∀ e ∈ args, e.isCall = false := by
  -- a resolved value is no call, so only the second kind of statement has one
  have hno : ∀ e : Expr, e.Resolved r → .call builtin args span ≠ e := by
    rintro e he rfl
    cases he
  cases h with
  | declaration span' hvalue hv =>
    rw [nodes, hvalue.nodes_eq, List.mem_singleton] at hcall
    exact absurd hcall (hno _ hvalue)
  | call span' harity hargs =>
    rw [nodes, Expr.nodes, Expr.nodesAll_of_resolved hargs] at hcall
    rcases List.mem_cons.1 hcall with heq | harg
    · cases heq
      exact ⟨rfl, harity, fun e he ↦ (hargs e he).isCall_eq⟩
    · exact absurd rfl (hno _ (hargs _ harg))
  | value he =>
    rw [nodes, he.nodes_eq, List.mem_singleton] at hcall
    exact absurd hcall (hno _ he)

/-- No operand of a checked statement is made of a call. -/
theorem Checked.isCall_of_mem_values (h : s.Checked r r') {e : Expr} (he : e ∈ s.values) :
    e.isCall = false := by
  cases h with
  | declaration span hvalue hv =>
    obtain rfl := List.mem_singleton.1 he
    exact hvalue.isCall_eq
  | call span harity hargs => exact (hargs e he).isCall_eq
  | value hv =>
    cases hv with
    | int =>
      obtain rfl := List.mem_singleton.1 he
      rfl
    | read =>
      obtain rfl := List.mem_singleton.1 he
      rfl

end Stmt

/-! ### Allocations -/

/-- The slot and the size of an allocation. -/
def Instr.allocated? : Instr → Option (Nat × Nat)
  | .alloc slot size => some (slot, size)
  | _ => none

/-- The allocations of a lowered program are those of its declarations. -/
theorem allocated_lower (ss : List Stmt) :
    (ss.flatMap Stmt.instrs).filterMap Instr.allocated? =
      (ss.filterMap Stmt.declared?).map fun v ↦ (v.slot, v.type.slotSize) := by
  induction ss with
  | nil => rfl
  | cons s ss ih =>
    rw [List.flatMap_cons, List.filterMap_append, ih]
    rcases s with ⟨name, v, value, span⟩ | (⟨v, span⟩ | ⟨name, v, span⟩ | ⟨builtin, args, span⟩) <;>
      rfl

/-- Behind an allocation stands the store to its slot. -/
theorem store_behind_alloc {ss : List Stmt} {pre post : List Instr} {slot size : Nat}
    (h : ss.flatMap Stmt.instrs = pre ++ .alloc slot size :: post) :
    ∃ value post', post = .store slot value :: post' := by
  induction ss generalizing pre with
  | nil => simp at h
  | cons s ss ih =>
    rw [List.flatMap_cons] at h
    cases s with
    | declaration name v value span =>
      -- the allocation is the first of these two instructions, or behind both
      rcases pre with - | ⟨p, - | ⟨q, pre⟩⟩
      · obtain ⟨hslot, hpost⟩ := List.cons.inj h
        obtain ⟨rfl, -⟩ := Instr.alloc.inj hslot
        exact ⟨value.operand, ss.flatMap Stmt.instrs, hpost.symm⟩
      · obtain ⟨-, htail⟩ := List.cons.inj h
        cases (List.cons.inj htail).1
      · obtain ⟨-, htail⟩ := List.cons.inj h
        exact ih (List.cons.inj htail).2
    | expr e =>
      have hone : ∃ i, (Stmt.expr e).instrs = [i] ∧ i.allocated? = none := by
        rcases e with ⟨v, span⟩ | ⟨name, v, span⟩ | ⟨builtin, args, span⟩ <;>
          exact ⟨_, rfl, rfl⟩
      obtain ⟨i, hi, hnone⟩ := hone
      rw [hi] at h
      rcases pre with - | ⟨p, pre⟩
      · obtain ⟨rfl, -⟩ := List.cons.inj h
        cases hnone
      · exact ih (List.cons.inj h).2

/-! ### Compiled programs -/

/-- A program that compiles has as many slots as declarations, and no more than there are. -/
theorem slotCount_of_compileFor {source : String} {capacity : Nat} {m : Module}
    (h : compileFor source capacity = .ok m) :
    m.slotCount = (m.statements.filterMap Stmt.declared?).length ∧ m.slotCount ≤ capacity := by
  obtain ⟨r, hchecked, hcount⟩ := checked_of_compileFor h
  rw [← hcount]
  exact ⟨hchecked.slotCount_eq, hchecked.slotCount_le_capacity (Nat.zero_le capacity)⟩

/-- **Compiled programs are resolved.**

The declarations have the slots 0, 1, 2, … in order, as many as the program says and as the table
has. Every read carries the variable of the latest declaration of its name before the statement it
stands in, so in a declaration it reads a lower slot. Every call is a whole statement, with the
arguments its function takes and no call among them. So lowering never makes an operand of a call,
and a lowered program allocates each slot once, with eight bytes, and stores to it next. -/
theorem compiled_is_resolved {source : String} {capacity : Nat} {m : Module}
    (hm : compileFor source capacity = .ok m) :
    (m.statements.filterMap Stmt.declared?).map Variable.slot = List.range m.slotCount ∧
      m.slotCount ≤ capacity ∧
      (∀ pre s post, m.statements = pre ++ s :: post →
        (∀ name v span, .read name v span ∈ s.nodes →
          (∃ before value span' between,
            pre = before ++ .declaration name v value span' :: between ∧
              ∀ s' ∈ between, s'.binds? name = none) ∧
          ∀ w, s.declared? = some w → v.slot < w.slot) ∧
        (∀ builtin args span, .call builtin args span ∈ s.nodes →
          s = .expr (.call builtin args span) ∧ args.length = builtin.arity ∧
            ∀ e ∈ args, e.isCall = false) ∧
        s.instrs.flatMap Instr.operands = s.values.map Expr.operand ∧
        ∀ e ∈ s.values, e.isCall = false) ∧
      m.lower.instrs.filterMap Instr.allocated? = (List.range m.slotCount).map (·, 8) ∧
      ∀ pre slot size post, m.lower.instrs = pre ++ .alloc slot size :: post →
        ∃ value post', post = .store slot value :: post' := by
  obtain ⟨r, hchecked, hcount⟩ := checked_of_compileFor hm
  have hslots : (m.statements.filterMap Stmt.declared?).map Variable.slot =
      List.range m.slotCount := by
    rw [hchecked.slots_eq, hcount, List.range_eq_range']
    rfl
  refine ⟨hslots, ?_, ?_, ?_, fun pre slot size post h ↦ store_behind_alloc h⟩
  · rw [← hcount]
    exact hchecked.slotCount_le_capacity (Nat.zero_le _)
  · intro pre s post heq
    rw [heq] at hchecked
    obtain ⟨r₁, r₂, hpre, hs, -⟩ := hchecked.split
    refine ⟨?_, fun builtin args span ↦ hs.eq_of_call, s.operands_instrs,
      fun e ↦ hs.isCall_of_mem_values⟩
    intro name v span hread
    have hresolve : r₁.resolve? name = some v := hs.resolve?_of_read hread
    have hlatest : Stmt.latest? name pre = some v := by rw [← hpre.resolve?_eq_latest?, hresolve]
    refine ⟨Stmt.latest?_eq_some_iff.1 hlatest, fun w hw ↦ ?_⟩
    -- a declaration takes the next slot, and what is read was given out before it
    have hlt : v.slot < r₁.slotCount := hpre.bounded (Registry.bounded_empty capacity) hresolve
    cases hs with
    | declaration span' hvalue hv =>
      obtain ⟨rfl, -⟩ := Registry.declare?_eq_some hv
      obtain rfl := Option.some.inj hw
      exact hlt
    | call => cases hw
    | value => cases hw
  · have hsize : ∀ v : Variable, (v.slot, v.type.slotSize) = (v.slot, 8) := by
      rintro ⟨slot, ⟨⟩⟩
      rfl
    rw [← hslots, List.map_map]
    show (m.statements.flatMap Stmt.instrs).filterMap Instr.allocated? = _
    rw [allocated_lower]
    exact List.map_congr_left fun v _ ↦ hsize v

/-- The program that declares `x` from `x`: two slots, and the second is made of the first. -/
theorem redeclaration_is_resolved :
    compileFor Redeclaration.source 256 = .ok Redeclaration.checked ∧
      Redeclaration.checked.lower.instrs.filterMap Instr.allocated? =
        (List.range 2).map (·, 8) ∧
      ∃ before value span' between,
        Redeclaration.checked.statements.take 1 =
            before ++ .declaration "x" ⟨0, .int⟩ value span' :: between ∧
          ∀ s' ∈ between, s'.binds? "x" = none := by
  obtain ⟨-, -, hstatements, hallocated, -⟩ :=
    compiled_is_resolved Redeclaration.compileFor_source
  refine ⟨Redeclaration.compileFor_source, hallocated, ?_⟩
  obtain ⟨hreads, -⟩ := hstatements [_] _ [_] rfl
  exact (hreads "x" ⟨0, .int⟩ ⟨2, 10, 20, 1⟩ (by decide)).1

end SlotLang
