import Mathlib.Data.List.Basic
import Mathlib.Data.List.Nodup
import SlotLang.Proofs.Resolution

/-!
# The registry is the list of declarations

A registry is asked to declare names and to resolve them, again and again. Whatever it is asked, it
holds no more and no less than the list of the declarations that it has granted so far:

* the next declaration gets their number for its slot, as long as there is such a slot, and when the
  slots have run out nothing changes any more;
* a name stands for the variable of its latest declaration;
* the listing has every declared name once, where its *first* declaration puts it, and with the
  variable of its *last*.

`Registry.Knows` says this about one registry and one list. A request keeps it (`Knows.ask`), and so
does any number of them (`Knows.after`).

Slots are counted in 32 bits, while a capacity may take more. `tick` is that counter, which wraps
around; with a capacity below its size it never does, and is the number of declarations at all times
(`toNat_ticks`).
-/

namespace SlotLang.Registry

/-! ### Requests -/

/-- What a registry can be asked. -/
inductive Request where
  /-- To declare a variable. -/
  | declare (name : String) (type : ValueType)
  /-- To say what a name stands for. -/
  | resolve (name : String)
deriving DecidableEq, Repr

/-- The answer to a request, and the registry afterwards. -/
def ask (r : Registry) : Request → Option Variable × Registry
  | .declare name type =>
    match r.declare? name type with
    | some (v, r') => (some v, r')
    | none => (none, r)
  | .resolve name => (r.resolve? name, r)

/-- The registry after some requests. -/
def after (r : Registry) (requests : List Request) : Registry :=
  requests.foldl (fun r q ↦ (r.ask q).2) r

/-- The declaration that an answer grants, if it grants one. -/
def grant (answer : Option Variable) : Request → List (String × Variable)
  | .declare name _ => answer.toList.map (name, ·)
  | .resolve _ => []

/-- The declarations granted in the course of some requests, each with its variable. -/
def granted (r : Registry) : List Request → List (String × Variable)
  | [] => []
  | q :: qs => grant (r.ask q).1 q ++ (r.ask q).2.granted qs

/-- The counter of slots after a request, in 32 bits. -/
def tick (capacity : Nat) (next : UInt32) : Request → UInt32
  | .declare .. => if next.toNat < capacity then next + 1 else next
  | .resolve _ => next

theorem capacity_ask (r : Registry) (q : Request) : (r.ask q).2.capacity = r.capacity := by
  cases q with
  | declare name type =>
    rw [ask]
    split
    · rename_i v r' hv
      exact (declare?_eq_some hv).2.2.2.1
    · rfl
  | resolve name => rfl

theorem capacity_after (r : Registry) (requests : List Request) :
    (r.after requests).capacity = r.capacity := by
  induction requests generalizing r with
  | nil => rfl
  | cons q qs ih => exact (ih _).trans (r.capacity_ask q)

/-! ### The counter -/

section Counter

variable {r : Registry} (hsize : r.capacity < UInt32.size)
include hsize

/-- There is room for one more whenever one more is counted. -/
theorem toNat_tick {next : UInt32} (h : next.toNat = r.slotCount) (q : Request) :
    (tick r.capacity next q).toNat = (r.ask q).2.slotCount := by
  cases q with
  | declare name type =>
    rw [tick, ask, declare?, h]
    split
    · rename_i hlt
      have hroom : r.slotCount + 1 < UInt32.size := Nat.lt_of_le_of_lt hlt hsize
      show (next + 1).toNat = r.slotCount + 1
      rw [UInt32.toNat_add, h]
      exact Nat.mod_eq_of_lt hroom
    · exact h
  | resolve name => exact h

theorem toNat_ticks {next : UInt32} (h : next.toNat = r.slotCount) (requests : List Request) :
    (requests.foldl (tick r.capacity) next).toNat = (r.after requests).slotCount := by
  induction requests generalizing r next with
  | nil => exact h
  | cons q qs ih =>
    have hrest := ih (r := (r.ask q).2) (by rwa [capacity_ask]) (toNat_tick hsize h q)
    rwa [capacity_ask] at hrest

end Counter

/-! ### The latest of some declarations -/

section Latest

variable {made : List (String × Variable)} {name : String} {v : Variable}

/-- The variable of the last declaration of a name. -/
def latest? (made : List (String × Variable)) (name : String) : Option Variable :=
  find? name made.reverse

theorem latest?_concat (made : List (String × Variable)) (b : String × Variable) (name : String) :
    latest? (made ++ [b]) name = if b.1 = name then some b.2 else latest? made name := by
  rw [latest?, List.reverse_append, List.reverse_singleton, List.singleton_append, find?_cons]
  rfl

/-- What it means to be the latest: a declaration of the name, and none of it behind. -/
theorem latest?_eq_some_iff : latest? made name = some v ↔
    ∃ before behind, made = before ++ (name, v) :: behind ∧ ∀ b ∈ behind, b.1 ≠ name := by
  rw [latest?, find?, Option.map_eq_some_iff]
  constructor
  · rintro ⟨⟨name', v'⟩, hfind, rfl⟩
    obtain ⟨hname, behind, before, heq, hbehind⟩ := List.find?_eq_some_iff_append.1 hfind
    obtain rfl : name' = name := of_decide_eq_true hname
    refine ⟨before.reverse, behind.reverse, by simpa using congrArg List.reverse heq, ?_⟩
    simpa using hbehind
  · rintro ⟨before, behind, rfl, hbehind⟩
    have hfind : (before ++ (name, v) :: behind).reverse =
        behind.reverse ++ (name, v) :: before.reverse := by simp
    refine ⟨(name, v), List.find?_eq_some_iff_append.2 ⟨by simp, _, _, hfind, ?_⟩, rfl⟩
    simpa using hbehind

theorem latest?_eq_none_iff : latest? made name = none ↔ ∀ b ∈ made, b.1 ≠ name := by
  simp [latest?, find?]

/-- A binding is found under its name, if no other has that name. -/
theorem find?_of_mem {bs : List (String × Variable)} (h : (bs.map (·.1)).Nodup)
    {b : String × Variable} (hb : b ∈ bs) : find? b.1 bs = some b.2 := by
  induction bs with
  | nil => cases hb
  | cons b' bs ih =>
    rw [List.map_cons, List.nodup_cons] at h
    rw [find?_cons]
    rcases List.mem_cons.1 hb with rfl | hb
    · exact if_pos rfl
    · have hne : b'.1 ≠ b.1 := fun heq ↦ h.1 (heq ▸ List.mem_map_of_mem hb)
      rw [if_neg hne, ih h.2 hb]

end Latest

/-! ### What a registry knows -/

/-- The registry holds the declarations `made`, in this order. -/
structure Knows (r : Registry) (made : List (String × Variable)) : Prop where
  /-- The next slot is their number. -/
  count : r.slotCount = made.length
  /-- There are slots for all of them. -/
  fits : made.length ≤ r.capacity
  /-- They have the slots 0, 1, 2, … in order. -/
  slots : made.map (·.2.slot) = List.range made.length
  /-- A name stands for the latest of them. -/
  resolve : ∀ name, r.resolve? name = latest? made name
  /-- Their names are bound, and no others. -/
  names : ∀ name, name ∈ r.bindings.map (·.1) ↔ name ∈ made.map (·.1)
  /-- A name stands where the first of them put it. -/
  order : (r.bindings.map (·.1)).Pairwise fun name other ↦
    (made.map (·.1)).idxOf name < (made.map (·.1)).idxOf other

theorem knows_empty (capacity : Nat) : (empty capacity).Knows [] where
  count := rfl
  fits := Nat.zero_le _
  slots := rfl
  resolve _ := rfl
  names _ := Iff.rfl
  order := .nil

/-- A name that is new comes last, and all others stay in the order of their first occurrences. -/
theorem pairwise_idxOf_concat {names made : List String} {name : String}
    (hnames : ∀ other, other ∈ names ↔ other ∈ made)
    (h : names.Pairwise fun x y ↦ made.idxOf x < made.idxOf y) :
    (if name ∈ names then names else names ++ [name]).Pairwise fun x y ↦
      (made ++ [name]).idxOf x < (made ++ [name]).idxOf y := by
  have hold : ∀ x ∈ names, (made ++ [name]).idxOf x = made.idxOf x := fun x hx ↦
    List.idxOf_append_of_mem ((hnames x).1 hx)
  have hstay : names.Pairwise fun x y ↦ (made ++ [name]).idxOf x < (made ++ [name]).idxOf y :=
    h.imp_of_mem fun hx hy hlt ↦ by rwa [hold _ hx, hold _ hy]
  split
  · exact hstay
  · rename_i hnew
    refine List.pairwise_append.2 ⟨hstay, List.pairwise_singleton _ _, fun x hx y hy ↦ ?_⟩
    obtain rfl := List.mem_singleton.1 hy
    have hlast : (made ++ [y]).idxOf y = made.length := by
      rw [List.idxOf_append_of_notMem (mt (hnames y).2 hnew), List.idxOf_cons_self, Nat.add_zero]
    rw [hold x hx, hlast]
    exact List.idxOf_lt_length_of_mem ((hnames x).1 hx)

namespace Knows

variable {r r' : Registry} {made : List (String × Variable)}

/-- **A declaration that is granted comes behind the others.** -/
theorem declare {name : String} {type : ValueType} {v : Variable} (h : r.Knows made)
    (hv : r.declare? name type = some (v, r')) : r'.Knows (made ++ [(name, v)]) := by
  obtain ⟨rfl, hcount, hlt, hcapacity, hself, hother⟩ := declare?_eq_some hv
  have hnames : r'.bindings.map (·.1) =
      if name ∈ r.bindings.map (·.1) then r.bindings.map (·.1)
      else r.bindings.map (·.1) ++ [name] := by
    rw [declare?, if_pos hlt] at hv
    cases hv
    exact map_fst_put name _ r.bindings
  refine ⟨?_, ?_, ?_, fun other ↦ ?_, fun other ↦ ?_, ?_⟩
  · rw [hcount, h.count, List.length_append, List.length_singleton]
  · rw [List.length_append, List.length_singleton, hcapacity, ← h.count]
    exact hlt
  · rw [List.map_append, h.slots, List.length_append, List.length_singleton, List.range_succ,
      h.count]
    rfl
  · rw [latest?_concat]
    split
    · rename_i hname
      obtain rfl : name = other := hname
      exact hself
    · rename_i hname
      rw [hother other (Ne.symm hname), h.resolve]
  · rw [hnames, List.map_append, List.mem_append, ← h.names]
    split
    · rename_i hname
      exact ⟨.inl, fun hor ↦ hor.elim id fun heq ↦ List.mem_singleton.1 heq ▸ hname⟩
    · exact List.mem_append
  · rw [hnames, List.map_append]
    exact pairwise_idxOf_concat h.names h.order

/-- **One request.** -/
theorem ask (h : r.Knows made) (q : Request) :
    (r.ask q).2.Knows (made ++ grant (r.ask q).1 q) := by
  cases q with
  | declare name type =>
    rw [Registry.ask]
    split
    · rename_i v r' hv
      exact h.declare hv
    · simpa [grant] using h
  | resolve name => simpa [Registry.ask, grant] using h

/-- **Any number of requests.** -/
theorem after (h : r.Knows made) (requests : List Request) :
    (r.after requests).Knows (made ++ r.granted requests) := by
  induction requests generalizing r made with
  | nil => simpa [Registry.after, granted] using h
  | cons q qs ih =>
    have hrest := ih (h.ask q)
    rwa [List.append_assoc] at hrest

theorem nodup_names (h : r.Knows made) : (r.bindings.map (·.1)).Nodup := by
  refine List.Pairwise.imp ?_ h.order
  rintro name _ hlt rfl
  exact Nat.lt_irrefl _ hlt

theorem latest?_of_mem (h : r.Knows made) {b : String × Variable} (hb : b ∈ r.bindings) :
    latest? made b.1 = some b.2 := by
  rw [← h.resolve]
  exact find?_of_mem h.nodup_names hb

/-- Every binding is one of the declarations, and no two of these have the same slot. -/
theorem nodup_slots (h : r.Knows made) : (r.bindings.map (·.2.slot)).Nodup := by
  have hmade : (made.map (·.2.slot)).Nodup := h.slots ▸ List.nodup_range
  have hmem : ∀ b ∈ r.bindings, b ∈ made := by
    intro b hb
    obtain ⟨before, behind, heq, -⟩ := latest?_eq_some_iff.1 (h.latest?_of_mem hb)
    rw [heq]
    exact List.mem_append_right _ List.mem_cons_self
  refine List.Nodup.map_on (fun b hb b' hb' heq ↦ ?_) h.nodup_names.of_map
  exact List.inj_on_of_nodup_map hmade (hmem b hb) (hmem b' hb') heq

/-- A declaration is granted as long as there is a slot, and gets the next one. -/
theorem ask_declare (h : r.Knows made) (name : String) (type : ValueType) :
    (made.length < r.capacity →
        (r.ask (.declare name type)).1 = some ⟨made.length, type⟩) ∧
      (r.capacity ≤ made.length → r.ask (.declare name type) = (none, r)) := by
  rw [Registry.ask, declare?, ← h.count]
  refine ⟨fun hlt ↦ ?_, fun hle ↦ ?_⟩
  · rw [if_pos hlt]
  · rw [if_neg (Nat.not_lt.2 hle)]

end Knows

/-- A listing of declarations: every name once, where its first declaration put it, and with the
variable of its last. -/
structure Lists (bindings made : List (String × Variable)) : Prop where
  /-- All names are listed, and no others. -/
  names : ∀ name, name ∈ bindings.map (·.1) ↔ name ∈ made.map (·.1)
  /-- No name is listed twice. -/
  once : (bindings.map (·.1)).Nodup
  /-- A name comes before another if it was declared first. -/
  order : (bindings.map (·.1)).Pairwise fun name other ↦
    (made.map (·.1)).idxOf name < (made.map (·.1)).idxOf other
  /-- A name is listed with the variable that it got last. -/
  latest : ∀ b ∈ bindings, ∃ before behind, made = before ++ b :: behind ∧
    ∀ b' ∈ behind, b'.1 ≠ b.1
  /-- No slot is listed twice. -/
  slots : (bindings.map (·.2.slot)).Nodup

/-- **The registry is the list of declarations.** Ask a registry for a table of fewer than 2³² slots
anything, as often as one likes, and let `made` be the declarations that it has granted.

The next declaration is granted, with their number for its slot, if that is below the capacity, and
otherwise refused without a change. The number of slots given out is their number, at most the
capacity, and what a counter of 32 bits shows. A name stands for the variable of the latest of them,
and for nothing if there is none. The listing is the listing of them. -/
theorem registry_lists_declarations {c : Nat} (hc : c < UInt32.size) (requests : List Request) :
    let r := (empty c).after requests
    let made := (empty c).granted requests
    (∀ name type,
      (made.length < c → (r.ask (.declare name type)).1 = some ⟨made.length, type⟩) ∧
        (c ≤ made.length → r.ask (.declare name type) = (none, r))) ∧
      (r.slotCount = made.length ∧ r.slotCount ≤ c ∧
        (requests.foldl (tick c) 0).toNat = r.slotCount) ∧
      (∀ name,
        (∀ v, (r.ask (.resolve name)).1 = some v ↔
          ∃ before behind, made = before ++ (name, v) :: behind ∧ ∀ b ∈ behind, b.1 ≠ name) ∧
        ((r.ask (.resolve name)).1 = none ↔ ∀ b ∈ made, b.1 ≠ name)) ∧
      Lists r.bindings made := by
  intro r made
  have h : r.Knows made := (knows_empty c).after requests
  have hcapacity : r.capacity = c := (empty c).capacity_after requests
  refine ⟨fun name type ↦ hcapacity ▸ h.ask_declare name type, ⟨h.count, ?_, ?_⟩,
    fun name ↦ ⟨fun v ↦ ?_, ?_⟩, ?_⟩
  · rw [h.count, ← hcapacity]
    exact h.fits
  · exact toNat_ticks (r := empty c) hc rfl requests
  · rw [← latest?_eq_some_iff, ← h.resolve]
    rfl
  · rw [← latest?_eq_none_iff, ← h.resolve]
    rfl
  · exact ⟨h.names, h.nodup_names, h.order, fun b hb ↦ latest?_eq_some_iff.1 (h.latest?_of_mem hb),
      h.nodup_slots⟩

namespace ThreeSlots

/-- Three names for three slots, one of them declared twice, so that the third name gets none. -/
def requests : List Request :=
  [.declare "x" .int, .resolve "y", .declare "y" .int, .declare "x" .int, .declare "z" .int]

end ThreeSlots

/-- The first name keeps its place and gets the last slot; the name that was refused is not
listed. -/
theorem redeclared_name_keeps_its_place :
    3 < UInt32.size ∧
      (empty 3).granted ThreeSlots.requests =
        [("x", ⟨0, .int⟩), ("y", ⟨1, .int⟩), ("x", ⟨2, .int⟩)] ∧
      ((empty 3).after ThreeSlots.requests).bindings =
        [("x", ⟨2, .int⟩), ("y", ⟨1, .int⟩)] ∧
      ((empty 3).after ThreeSlots.requests).ask (.declare "z" .int) =
        (none, (empty 3).after ThreeSlots.requests) ∧
      Lists [("x", ⟨2, .int⟩), ("y", ⟨1, .int⟩)]
        [("x", ⟨0, .int⟩), ("y", ⟨1, .int⟩), ("x", ⟨2, .int⟩)] := by
  obtain ⟨hdeclare, -, -, hlists⟩ :=
    registry_lists_declarations (c := 3) (by decide) ThreeSlots.requests
  exact ⟨by decide, by decide, by decide, (hdeclare "z" .int).2 (by decide), hlists⟩

end SlotLang.Registry
