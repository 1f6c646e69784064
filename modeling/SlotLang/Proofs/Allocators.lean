import SlotLang.Proofs.Accounting

/-!
# Allocators with a memory

An `Allocator` answers by the bytes in use and the size of the request. A real one may answer by all
that it was ever asked, so that each request meets an allocator of its own. That makes no difference
to what is proved for one: a request that is refused leaves the table as it was, and one that is
granted is granted by any allocator that grants more.

`Allocator.Below` compares allocators, and `Allocator.join` is one above all those that were met.

* `perform_below` is the step: an operation does nothing, or what it does under the higher
  allocator. `performEach_eq` is the run: a history with an allocator for each operation is a
  history with the join for all, the refused operations left out.
* `Reaches.below` is the same for changes, so that a table reached with many allocators is reached
  with one.
* `runEach_cases` follows the instructions of a program, whose first refusal ends it.
-/

namespace SlotLang

namespace Allocator

/-- Whether all that one allocator grants is granted by another. -/
def Below (a b : Allocator) : Prop :=
  ∀ inUse size, a.grants inUse size = true → b.grants inUse size = true

/-- The allocator that grants what one of several grants. -/
def join (allocators : List Allocator) : Allocator :=
  ⟨fun inUse size ↦ allocators.any (·.grants inUse size)⟩

theorem below_join {a : Allocator} {allocators : List Allocator} (h : a ∈ allocators) :
    a.Below (join allocators) :=
  fun _ _ hgrant ↦ List.any_eq_true.2 ⟨a, h, hgrant⟩

/-- A bound on what is in use that all of them keep is kept by the join. -/
theorem lt_of_grants_join {allocators : List Allocator} {bound : Nat}
    (h : ∀ a ∈ allocators, ∀ inUse size, a.grants inUse size = true → inUse + size < bound)
    {inUse size : Nat} (hgrant : (join allocators).grants inUse size = true) :
    inUse + size < bound := by
  obtain ⟨a, ha, hgrant⟩ := List.any_eq_true.1 hgrant
  exact h a ha inUse size hgrant

end Allocator

namespace Table

variable {a b : Allocator} {t t' : Table} {i n : Nat}

/-- **A request** is refused for want of memory, or answered in the same way by a higher
allocator. -/
theorem create_below (hab : a.Below b) (t : Table) (i n : Nat) :
    t.create b i n = t.create a i n ∨ t.create a i n = t.refuse (.outOfMemory n) := by
  rcases hs : t.slots[i]? with - | s
  · left
    simp only [create, slot, hs]
  · rw [create_of_getElem? hs, create_of_getElem? hs]
    by_cases htaken : s.isLive = true ∧ t.config.overwrite = .reject
    · left
      rw [if_pos htaken, if_pos htaken]
    · by_cases hmemory : t.config.admits (t.allocatedBytes - s.size + n) = true ∧
          a.grants t.allocatedBytes n = true
      · left
        rw [if_neg htaken, if_neg htaken, if_pos hmemory,
          if_pos ⟨hmemory.1, hab t.allocatedBytes n hmemory.2⟩]
      · right
        rw [if_neg htaken, if_neg hmemory]

/-- **One operation** leaves the table as it was, or is the same under a higher allocator. -/
theorem perform_below (hab : a.Below b) (t : Table) (op : Operation) :
    (t.perform a op).table = t ∨ t.perform b op = t.perform a op := by
  cases op with
  | create index size =>
    rcases create_below hab t index size with hsame | hrefused
    · exact .inr (by rw [perform, perform, hsame])
    · exact .inl (by rw [perform, hrefused]; rfl)
  | «scoped» index size steps ending =>
    rcases create_below hab t index size with hsame | hrefused
    · exact .inr (by rw [perform, perform, Table.scoped, Table.scoped, hsame])
    · exact .inl (by rw [perform, Table.scoped, hrefused]; rfl)
  | free | release | handle | isInitialized | isLive | sizeOf | bytes | get | poke | pokeHandle
  | readInt | writeInt | capacity | config | liveSlots | cleanup => exact .inr rfl

/-- The table after a history in which each operation meets an allocator of its own. -/
def performEach (t : Table) (history : List (Allocator × Operation)) : Table :=
  history.foldl (fun t x ↦ (t.perform x.1 x.2).table) t

/-- **A history with many allocators** is one with an allocator above them all, without some of the
operations that were refused. -/
theorem performEach_below {history : List (Allocator × Operation)}
    (h : ∀ x ∈ history, x.1.Below b) (t : Table) :
    ∃ ops, ops.Sublist (history.map Prod.snd) ∧ t.performEach history = t.performAll b ops := by
  induction history generalizing t with
  | nil => exact ⟨[], .slnil, rfl⟩
  | cons x history ih =>
    obtain ⟨hx, hrest⟩ := List.forall_mem_cons.1 h
    obtain ⟨ops, hops, heq⟩ := ih hrest (t.perform x.1 x.2).table
    rcases perform_below hx t x.2 with hsame | hsame
    · refine ⟨ops, hops.cons x.2, ?_⟩
      rw [hsame] at heq
      rw [← heq, performEach, List.foldl_cons, hsame]
      rfl
    · refine ⟨x.2 :: ops, hops.cons_cons x.2, ?_⟩
      rw [performAll, List.foldl_cons, hsame]
      exact heq

/-- **A life with many allocators is a life with their join.** The system makes the table as well,
and a bound on the bytes in use that all of the allocators keep is kept. -/
theorem performEach_eq {config : TableConfig} {start : Table}
    (hstart : ofConfig config a = .ok start) (history : List (Allocator × Operation)) :
    let one := Allocator.join (history.map Prod.fst)
    ofConfig config = .ok start ∧
      (∀ bound,
        (∀ x ∈ history, ∀ inUse size, x.1.grants inUse size = true → inUse + size < bound) →
        ∀ inUse size, one.grants inUse size = true → inUse + size < bound) ∧
      ∃ ops, ops.Sublist (history.map Prod.snd) ∧
        start.performEach history = start.performAll one ops := by
  intro one
  refine ⟨ofConfig_system_of_ok hstart, fun bound hbound inUse size hgrant ↦ ?_, ?_⟩
  · exact Allocator.lt_of_grants_join (List.forall_mem_map.2 hbound) hgrant
  · exact performEach_below (fun _ hx ↦ Allocator.below_join (List.mem_map_of_mem hx)) start

/-! ### Changes -/

theorem Change.below (hab : a.Below b) (hc : Change a t t') : Change b t t' := by
  cases hc with
  | @create i n _ hr =>
    rcases create_below hab t i n with hsame | hrefused
    · rw [← hsame] at hr ⊢
      exact .create hr
    · rw [hrefused] at hr
      cases hr
  | edit i hf => exact .edit i hf
  | free i => exact .free i
  | empty => exact .empty

/-- **A table that is reached through changes under many allocators** is reached under one that is
above them all. -/
theorem Reaches.below {allocators : List Allocator}
    (hr : Relation.ReflTransGen (fun t t' ↦ ∃ a ∈ allocators, Change a t t') t t') :
    t.Reaches (.join allocators) t' := by
  refine Relation.ReflTransGen.mono (fun t t' hc ↦ ?_) t t' hr
  obtain ⟨a, ha, hc⟩ := hc
  exact hc.below (Allocator.below_join ha)

end Table

/-! ### Programs -/

variable {b : Allocator}

/-- Carry out instructions each of which meets an allocator of its own. -/
def runEach (w : Writer) : List (Allocator × Instr) → Table → Output → Ran RuntimeError
  | [], t, out => ⟨.ok (), t, out, []⟩
  | (a, i) :: is, t, out => (i.run a w t out).andThen (runEach w is)

/-- **An instruction** is the same under a higher allocator, or an allocation that is refused. -/
theorem Instr.run_below {a : Allocator} (hab : a.Below b) (i : Instr) (w : Writer) (t : Table)
    (out : Output) :
    i.run b w t out = i.run a w t out ∨
      ∃ slot size, i = .alloc slot size ∧
        i.run a w t out = ⟨.error (.table (.outOfMemory size)), t, out, []⟩ := by
  cases i with
  | alloc slot size =>
    rcases Table.create_below hab t slot size with hsame | hrefused
    · exact .inl (by rw [Instr.run, Instr.run, hsame])
    · exact .inr ⟨slot, size, rfl, by rw [Instr.run, hrefused]; rfl⟩
  | store | eval => exact .inl rfl
  | call builtin args => cases builtin; exact .inl rfl

/-- **A run with many allocators** is the run with one above them all, up to the first allocation
that is refused, if one is. -/
theorem runEach_cases {is : List (Allocator × Instr)} (h : ∀ x ∈ is, x.1.Below b) (w : Writer)
    (t : Table) (out : Output) :
    runEach w is t out = runInstrs b w (is.map Prod.snd) t out ∨
      ∃ done slot size rest, is.map Prod.snd = done ++ .alloc slot size :: rest ∧
        (runInstrs b w done t out).result = .ok () ∧
        runEach w is t out =
          { runInstrs b w done t out with result := .error (.table (.outOfMemory size)) } := by
  induction is generalizing t out with
  | nil => exact .inl rfl
  | cons x is ih =>
    obtain ⟨a, i⟩ := x
    obtain ⟨hx, hrest⟩ := List.forall_mem_cons.1 h
    rcases i.run_below hx w t out with hsame | ⟨slot, size, rfl, hrefused⟩
    · rcases hr : (i.run a w t out).result with e | ⟨⟩
      · left
        simp only [runEach, List.map_cons, runInstrs, Ran.andThen, hsame, hr]
      · -- both go on behind this instruction
        have heach : runEach w ((a, i) :: is) t out =
            (runEach w is (i.run a w t out).table (i.run a w t out).output).after
              (i.run a w t out).events := by
          simp only [runEach, Ran.andThen, hr]
        have hone : ∀ js, runInstrs b w (i :: js) t out =
            (runInstrs b w js (i.run a w t out).table (i.run a w t out).output).after
              (i.run a w t out).events := by
          intro js
          simp only [runInstrs, Ran.andThen, hsame, hr]
        rw [heach, List.map_cons, hone]
        rcases ih hrest (i.run a w t out).table (i.run a w t out).output with
          hall | ⟨done, slot, size, rest, hsplit, hdone, hstop⟩
        · exact .inl (by rw [hall])
        · refine .inr ⟨i :: done, slot, size, rest, by rw [hsplit]; rfl, ?_, ?_⟩
          · rw [hone]
            exact hdone
          · rw [hone, hstop]
            rfl
    · refine .inr ⟨[], slot, size, is.map Prod.snd, rfl, rfl, ?_⟩
      simp only [runEach, Ran.andThen, hrefused]
      rfl

end SlotLang
