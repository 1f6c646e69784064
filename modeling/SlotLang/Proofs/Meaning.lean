import SlotLang.Proofs.Safety

/-!
# The meaning of a program, and that running it gives it

The meaning is said in the words of the language alone. An environment gives values to names; a
declaration evaluates its value in the old environment and then binds its name anew, `print` writes
the decimal of its argument and a line feed, and any other expression does nothing. There are no
slots in it, no instructions and no bytes. A name without a value, or a call where a value is
needed, has no meaning at all, so that the main theorem also says that a program that compiles has
one.

`execute_lower` is compiler correctness: on an empty table with room for it, a compiled program runs
to its end and prints its meaning. What carries it is `Simulates`, kept by every statement
(`Simulates.step`): a name stands for a slot that holds the name's value, and the slots given out so
far are exactly the live ones. A slot whose name has been declared again stays live and is never
touched, which is all that the relation needs to say about it.

The instructions of a declaration allocate its slot *before* they evaluate its value. That is
harmless because the value reads only slots given out earlier, and the allocation changes none of
those (`Simulates.created`).
-/

namespace SlotLang

/-! ### Meaning -/

/-- The values of names. -/
abbrev Env := String → Option Int32

namespace Env

/-- No name has a value. -/
def empty : Env := fun _ ↦ none

/-- The environment with `name` bound to `v`. -/
def bind (env : Env) (name : String) (v : Int32) : Env :=
  fun other ↦ if other = name then some v else env other

@[simp]
theorem bind_self (env : Env) (name : String) (v : Int32) : env.bind name v name = some v :=
  if_pos rfl

theorem bind_of_ne (env : Env) {name other : String} (v : Int32) (h : other ≠ name) :
    env.bind name v other = env other :=
  if_neg h

end Env

/-- The value of an expression. A call has none. -/
def Expr.value? (env : Env) : Expr → Option Int32
  | .int v _ => some v
  | .read name _ _ => env name
  | .call .. => none

/-- What a statement does: the environment behind it and the text it prints. -/
def Stmt.meaning? (env : Env) : Stmt → Option (Env × String)
  | .declaration name _ value _ => (value.value? env).map fun v ↦ (env.bind name v, "")
  | .expr (.call .print [e] _) => (e.value? env).map fun v ↦ (env, Decimal.ofInt32 v ++ "\n")
  | .expr e => (e.value? env).map fun _ ↦ (env, "")

/-- Whether a statement prints. -/
def Stmt.isPrint : Stmt → Bool
  | .expr (.call .print _ _) => true
  | _ => false

/-- The text that statements print one after the other. -/
def Stmt.meaningAll? (env : Env) : List Stmt → Option String
  | [] => some ""
  | s :: ss =>
    match s.meaning? env with
    | none => none
    | some (env', line) => (meaningAll? env' ss).map (line ++ ·)

/-- **The meaning of a program**: the text it prints, when it has one. -/
def Module.meaning? (m : Module) : Option String := Stmt.meaningAll? .empty m.statements

/-! ### Environments in a table -/

theorem TableConfig.admits_of_le {c : TableConfig} {m n : Nat} (h : c.admits n = true)
    (hle : m ≤ n) : c.admits m = true := by
  unfold TableConfig.admits at h ⊢
  split
  · rfl
  · rename_i limit hlimit
    rw [hlimit, decide_eq_true_eq] at h
    exact decide_eq_true (Nat.le_trans hle h)

/-- The table holds the environment: every name that stands for a slot has the value in that slot,
and the slots given out are the live ones, each of the size of an `int` variable. -/
structure Simulates (r : Registry) (env : Env) (t : Table) : Prop where
  /-- Names stand for slots given out. -/
  bounded : r.Bounded
  /-- A slot holds the value of the name that stands for it. -/
  value : ∀ ⦃name : String⦄ ⦃v : Variable⦄, r.resolve? name = some v →
    ∃ x, env name = some x ∧ t.readInt v.slot = .ok x
  /-- The slots given out are the live ones. -/
  live : ∀ i, (t.buffer? i).isSome = true ↔ i < r.slotCount
  /-- Each of them takes eight bytes. -/
  bytes : t.allocatedBytes = 8 * r.slotCount

/-- A table without live slots, and with no bytes taken. Its slots may have been used before. -/
structure Table.Empty (t : Table) : Prop where
  liveCount : t.liveCount = 0
  bytes : t.allocatedBytes = 0

theorem Table.Empty.buffer? {t : Table} (h : t.Empty) (i : Nat) : t.buffer? i = none := by
  rcases hb : t.buffer? i with - | b
  · rfl
  · obtain ⟨s, hs, hdata⟩ := Table.buffer?_eq_some_iff.1 hb
    have hdead := List.countP_eq_zero.1 h.liveCount s (List.mem_of_getElem? hs)
    rw [Slot.isLive, hdata] at hdead
    exact absurd rfl hdead

theorem Table.empty_emptied (t : Table) : t.emptied.Empty :=
  ⟨liveCount_emptied, rfl⟩

theorem simulates_empty {t : Table} (h : t.Empty) (capacity : Nat) :
    Simulates (.empty capacity) .empty t where
  bounded := Registry.bounded_empty capacity
  value name v hv := by cases hv
  live i := by simp [h.buffer? i, Registry.empty]
  bytes := by simp [h.bytes, Registry.empty]

namespace Simulates

variable {r r' : Registry} {env : Env} {t : Table}

/-- A resolved expression has the value that its operand is evaluated to. -/
theorem eval {e : Expr} (h : Simulates r env t) (he : e.Resolved r) :
    ∃ x, e.value? env = some x ∧ e.operand.eval t = .ok x := by
  cases he with
  | int v span => exact ⟨v, rfl, rfl⟩
  | read span hv => exact h.value hv

/-- The next slot is empty. -/
theorem buffer?_slotCount (h : Simulates r env t) : t.buffer? r.slotCount = none := by
  rcases hb : t.buffer? r.slotCount with - | b
  · rfl
  · exact absurd ((h.live _).1 (by rw [hb]; rfl)) (Nat.lt_irrefl _)

/-- Creating the next slot changes none that a name stands for. -/
theorem readInt_created (h : Simulates r env t) {name : String} {v : Variable} {x : Int32}
    (hv : r.resolve? name = some v) (hx : t.readInt v.slot = .ok x) (n : Nat) :
    (t.created r.slotCount n 0).readInt v.slot = .ok x := by
  have hne : r.slotCount ≠ v.slot := Nat.ne_of_gt (h.bounded hv)
  obtain ⟨b, hb, hlen, hdecode⟩ := Table.readInt_eq_ok_iff.1 hx
  refine Table.readInt_eq_ok_iff.2 ⟨b, ?_, hlen, hdecode⟩
  rw [Table.buffer?_created_of_ne 0 hne, hb]

/-- **A declaration keeps the relation**: the slot is new, so every other name keeps its value. -/
theorem declare (h : Simulates r env t) {name : String} {type : ValueType} {v : Variable}
    (hv : r.declare? name type = some (v, r')) (hcap : r'.slotCount ≤ t.capacity) (x : Int32) :
    Simulates r' (env.bind name x)
      ((t.created r.slotCount 8 0).rewrite r.slotCount (Slot.edit (Table.storeInt x))) := by
  obtain ⟨rfl, hcount, -, -, hself, hother⟩ := Registry.declare?_eq_some hv
  have hnew : ((t.created r.slotCount 8 0).rewrite r.slotCount
      (Slot.edit (Table.storeInt x))).buffer? r.slotCount =
        some (Table.storeInt x (List.replicate 8 0)) := by
    rw [Table.buffer?_rewrite_edit, Table.buffer?_created_self 0 (by omega)]
    rfl
  have hold : ∀ i, r.slotCount ≠ i → ((t.created r.slotCount 8 0).rewrite r.slotCount
      (Slot.edit (Table.storeInt x))).buffer? i = t.buffer? i := by
    intro i hi
    rw [Table.buffer?_rewrite_of_ne _ hi, Table.buffer?_created_of_ne 0 hi]
  refine ⟨h.bounded.declare hv, ?_, ?_, ?_⟩
  · intro other w hw
    by_cases hname : other = name
    · subst hname
      obtain rfl := Option.some.inj (hself.symm.trans hw)
      refine ⟨x, Env.bind_self .., Table.readInt_eq_ok_iff.2 ⟨_, hnew, ?_, ?_⟩⟩
      · rw [Table.length_storeInt]
        decide
      · exact Table.decode_storeInt (by decide)
    · -- another name stands for a slot below the new one, which is as it was
      rw [hother other hname] at hw
      obtain ⟨y, hy, hread⟩ := h.value hw
      obtain ⟨b, hb, hlen, hdecode⟩ := Table.readInt_eq_ok_iff.1 hread
      refine ⟨y, by rw [Env.bind_of_ne _ _ hname, hy], ?_⟩
      refine Table.readInt_eq_ok_iff.2 ⟨b, ?_, hlen, hdecode⟩
      rw [hold _ (Nat.ne_of_gt (h.bounded hw)), hb]
  · intro i
    rw [hcount]
    by_cases hi : r.slotCount = i
    · subst hi
      rw [hnew]
      simp
    · rw [hold i hi, h.live i]
      omega
  · rw [Table.allocatedBytes_rewrite, Table.allocatedBytes_created, h.bytes, hcount]
    omega

/-- **One statement.** If there is room for its slot, and the writer takes its line, then it runs to
its end, prints what it means, and keeps the relation. -/
theorem step {a : Allocator} (ha : ∀ inUse, a.grants inUse 8 = true) {w : Writer} {s : Stmt}
    (h : Simulates r env t) (hs : s.Checked r r') (hcap : r'.slotCount ≤ t.capacity)
    (hlimit : t.config.admits (8 * r'.slotCount) = true) (out : Output)
    (hw : s.isPrint = true → ∀ piece, w.refusal out.calls piece = none) :
    ∃ env' line t' out', s.meaning? env = some (env', line) ∧
      (runInstrs a w s.instrs t out).Ends t' out' ∧
      (out'.text = out.text ++ line ∧ out'.calls = out.calls + if s.isPrint then 1 else 0) ∧
      Simulates r' env' t' ∧ t'.capacity = t.capacity ∧ t'.config = t.config := by
  cases hs with
  | @declaration name type v value r' span hvalue hv =>
    obtain ⟨x, hx, heval⟩ := h.eval hvalue
    obtain ⟨rfl, hcount, -⟩ := Registry.declare?_eq_some hv
    -- the value is evaluated after the allocation, to what it was before
    have heval' : value.operand.eval (t.created r.slotCount 8 0) = .ok x := by
      cases hvalue with
      | int => exact heval
      | read span hv' => exact h.readInt_created hv' heval 8
    refine ⟨env.bind name x, "", _, out, by simp [Stmt.meaning?, hx], ?_, by simp [Stmt.isPrint],
      h.declare hv hcap x, by simp, by simp⟩
    have halloc : ((Instr.alloc r.slotCount type.slotSize).run a w t out).Ends
        (t.created r.slotCount 8 0) out := by
      cases type
      refine ends_alloc (by omega) h.buffer?_slotCount ?_ (ha _)
      rwa [h.bytes, ValueType.slotSize, show 8 * r.slotCount + 8 = 8 * r'.slotCount by omega]
    refine ends_runInstrs_cons halloc (ends_runInstrs_cons ?_ ends_runInstrs_nil)
    exact ends_store heval' (Table.buffer?_created_self 0 (by omega)) (by decide)
  | @call builtin args span harity hargs =>
    cases builtin
    obtain ⟨e, rfl⟩ := List.length_eq_one_iff.1 harity
    obtain ⟨x, hx, heval⟩ := h.eval (hargs e (by simp))
    have hwrite := w.write_of_accepts (hw rfl (printedLine x)) (printedLine_ne_empty x)
    refine ⟨env, printedLine x, t, ⟨out.text ++ printedLine x, out.calls + 1⟩,
      by simp [Stmt.meaning?, hx, printedLine], ?_, ⟨rfl, rfl⟩, h, rfl, rfl⟩
    exact ends_runInstrs_cons (ends_print heval hwrite) ends_runInstrs_nil
  | @value e he =>
    obtain ⟨x, hx, heval⟩ := h.eval he
    refine ⟨env, "", t, out, ?_, ?_, ?_, h, rfl, rfl⟩
    · cases he <;> simp [Stmt.meaning?, hx]
    · cases he <;> exact ends_runInstrs_cons (ends_eval heval) ends_runInstrs_nil
    · cases he <;> simp [Stmt.isPrint]

/-- **A whole program**, from any point of its run on. -/
theorem run {a : Allocator} (ha : ∀ inUse, a.grants inUse 8 = true) {w : Writer}
    (hw : w.Accepts) {ss : List Stmt} (h : Simulates r env t) (hs : Stmt.CheckedAll r ss r')
    (hcap : r'.slotCount ≤ t.capacity) (hlimit : t.config.admits (8 * r'.slotCount) = true)
    (out : Output) :
    ∃ env' text t' out', Stmt.meaningAll? env ss = some text ∧
      (runInstrs a w (ss.flatMap Stmt.instrs) t out).Ends t' out' ∧
      out'.text = out.text ++ text ∧ Simulates r' env' t' := by
  induction hs generalizing env t out with
  | nil r => exact ⟨env, "", t, out, rfl, ends_runInstrs_nil, by simp, h⟩
  | @cons r r₁ r' s ss hs hss ih =>
    have hle : r₁.slotCount ≤ r'.slotCount := hss.slotCount_le
    obtain ⟨env₁, line, t₁, out₁, hmeaning, hends, ⟨htext, -⟩, h₁, hcap₁, hconfig₁⟩ :=
      h.step ha hs (by omega) (TableConfig.admits_of_le hlimit (by omega)) out
        fun _ ↦ hw out.calls
    obtain ⟨env₂, text, t₂, out₂, hmeaning₂, hends₂, htext₂, h₂⟩ :=
      ih h₁ (by rwa [hcap₁]) (by rwa [hconfig₁]) out₁
    refine ⟨env₂, line ++ text, t₂, out₂, ?_, ends_runInstrs_append hends hends₂, ?_, h₂⟩
    · rw [Stmt.meaningAll?, hmeaning]
      simp only [hmeaning₂, Option.map_some]
    · rw [htext₂, htext, String.append_assoc]

end Simulates

/-! ### Compiler correctness -/

/-- **A compiled program prints its meaning.** On a table with no live slot, whatever its slots were
used for before, with room for the program's slots and their bytes, it runs to its end, releases the
slots it has declared, and leaves the table empty. -/
theorem execute_lower {source : String} {capacity : Nat} {m : Module}
    (hm : compileFor source capacity = .ok m) {a : Allocator}
    (ha : ∀ inUse, a.grants inUse 8 = true) {w : Writer} (hw : w.Accepts) {t : Table}
    (ht : t.Empty) (hcap : m.slotCount ≤ t.capacity)
    (hlimit : t.config.admits (8 * m.slotCount) = true) :
    (m.lower.execute a w t).result = .ok () ∧ (m.lower.execute a w t).exitCode = 0 ∧
      (m.lower.execute a w t).released = m.slotCount ∧ (m.lower.execute a w t).table.Empty ∧
      m.meaning? = some (m.lower.execute a w t).output.text := by
  obtain ⟨r, hchecked, hcount⟩ := checked_of_compileFor hm
  rw [← hcount] at hcap hlimit
  obtain ⟨env', text, t', out', hmeaning, hends, htext, hsim⟩ :=
    (simulates_empty ht capacity).run ha hw hchecked hcap hlimit {}
  have hresult : (m.lower.execute a w t).result = .ok () := hends.result
  refine ⟨hresult, ?_, ?_, Table.empty_emptied _, ?_⟩
  · rw [Report.exitCode, Report.isOk, hresult]
    rfl
  · show (runInstrs a w m.lower.instrs t {}).table.liveCount = _
    rw [show (runInstrs a w m.lower.instrs t {}).table = t' from hends.table, ← hcount]
    exact Table.liveCount_eq_of_buffer? hsim.live
  · show _ = some (runInstrs a w m.lower.instrs t {}).output.text
    rw [show (runInstrs a w m.lower.instrs t {}).output = out' from hends.output, htext,
      Module.meaning?, hmeaning]
    simp

/-- A name declared again from itself keeps its value, also on slots that were used before and with
no byte to spare. -/
theorem redeclaration_prints_five :
    compileFor Redeclaration.source 256 = .ok Redeclaration.checked ∧
      let report := Redeclaration.checked.lower.execute .system .buffer
        ⟨⟨3, .replace, some 16⟩, [⟨none, 7⟩, ⟨none, 0⟩, ⟨none, 2⟩], 0⟩
      report.exitCode = 0 ∧ report.released = 2 ∧ report.output.text = "5\n" := by
  obtain ⟨-, hcode, hreleased, -, hmeaning⟩ := execute_lower Redeclaration.compileFor_source
    (a := .system) (fun _ ↦ rfl) Writer.accepts_buffer
    (t := ⟨⟨3, .replace, some 16⟩, [⟨none, 7⟩, ⟨none, 0⟩, ⟨none, 2⟩], 0⟩) ⟨rfl, rfl⟩ (by decide)
    (by decide)
  have hfive : Redeclaration.checked.meaning? = some "5\n" := by decide +kernel
  exact ⟨Redeclaration.compileFor_source, hcode, hreleased,
    Option.some.inj (hmeaning.symm.trans hfive)⟩

end SlotLang
