import Mathlib.Data.List.Induction
import SlotLang.Proofs.Literals
import SlotLang.Proofs.Splicing

/-!
# Listings can be read back

A listing has four kinds of lines, which share their brackets, commas, blanks and decimals, and the
line of a call is as long as its arguments make it. `Listing.read?` is a reader of such texts: it
cuts a text into lines and a line into words, and takes the words for an instruction. It accepts the
listings and no other texts, and it gives back the instructions that were listed. So two programs
have the same listing only if their instructions are the same.

Each reading function undoes one function that writes, and its lemma is an equivalence: it answers
`some x` exactly on the text of `x`. For numbers this needs that a decimal without leading zeros is
the one that `Decimal.digits` writes (`Decimal.digits_value`). The cuts are unique because neither a
blank nor a line feed is part of a word (`Listing.solid_of_mem_words`).
-/

namespace SlotLang

/-! ### Decimals in their written form -/

namespace Decimal

/-- The number that digits stand for, if there is no zero in front that could be left out. -/
def plain? (ds : List Char) : Option Nat :=
  if ds.head? = some '0' ∧ ds ≠ ['0'] then none else natural? ds

/-- The integer that a text stands for, if it has neither a sign nor a zero that could be left
out. -/
def plainInt? : List Char → Option Int
  | '-' :: ds => (plain? ds).bind fun n ↦ if n = 0 then none else some (-(n : Int))
  | ds => (plain? ds).map Int.ofNat

theorem digit_toNat_sub {c : Char} (h : '0' ≤ c ∧ c ≤ '9') :
    c.toNat - '0'.toNat < 10 ∧ digit (c.toNat - '0'.toNat) = c := by
  have hlow : 48 ≤ c.toNat := h.1
  have hhigh : c.toNat ≤ 57 := h.2
  have hzero : '0'.toNat = 48 := rfl
  refine ⟨by omega, ?_⟩
  rw [digit, hzero, Nat.add_sub_of_le hlow, Char.ofNat_toNat]

/-- **Digits without a leading zero are the digits of their value.** -/
theorem digits_value {ds : List Char} (hds : Digits ds)
    (hzero : ds.head? = some '0' → ds = ['0']) : digits (value ds) = ds := by
  induction ds using List.reverseRecOn with
  | nil => exact absurd rfl hds.1
  | append_singleton ds c ih =>
    obtain ⟨hlt, hdigit⟩ := digit_toNat_sub (hds.2 c (by simp))
    rw [value_append_singleton]
    by_cases hnil : ds = []
    · subst hnil
      rw [digits, if_pos (by simpa [value] using hlt)]
      simpa [value] using hdigit
    · -- a zero in front would be the only digit, and here are two
      have hhead : ds.head? ≠ some '0' := by
        intro hfirst
        have honly := hzero (by rw [List.head?_append_of_ne_nil _ hnil, hfirst])
        exact hnil (by simpa using congrArg List.length honly)
      have hdigits : digits (value ds) = ds :=
        ih ⟨hnil, fun d hd ↦ hds.2 d (List.mem_append_left _ hd)⟩ fun h ↦ absurd h hhead
      have hpos : value ds ≠ 0 := by
        intro hvalue
        rw [hvalue, digits] at hdigits
        exact hhead (hdigits ▸ rfl)
      rw [digits, if_neg (by omega),
        show (10 * value ds + (c.toNat - '0'.toNat)) / 10 = value ds by omega,
        show (10 * value ds + (c.toNat - '0'.toNat)) % 10 = c.toNat - '0'.toNat by omega,
        hdigits, hdigit]

theorem plain?_eq_some_iff {ds : List Char} {n : Nat} : plain? ds = some n ↔ ds = digits n := by
  rw [plain?]
  constructor
  · intro h
    split at h
    · cases h
    · rename_i hzero
      obtain ⟨hds, rfl⟩ := natural?_eq_some_iff.1 h
      exact (digits_value hds fun hhead ↦ not_not.1 fun hne ↦ hzero ⟨hhead, hne⟩).symm
  · rintro rfl
    rw [if_neg (digits_unpadded n), natural?_digits]

/-- What is written for an integer is read as that integer. -/
theorem plainInt?_ofInt (z : Int) : plainInt? (ofInt z).toList = some z := by
  have hplain : ∀ n, plain? (digits n) = some n := fun n ↦ plain?_eq_some_iff.2 rfl
  cases z with
  | ofNat n =>
    rw [ofInt, toList_ofNat, plainInt?.eq_def]
    split
    · rename_i ds hds
      -- no digit is a sign
      have hmem : '-' ∈ digits n := hds ▸ List.mem_cons_self
      exact absurd (List.all_eq_true.1 (all_isDigit_digits n) _ hmem) (by decide)
    · rw [hplain, Option.map_some]
  | negSucc n =>
    rw [ofInt, String.toList_append, toList_ofNat]
    show (plain? (digits (n + 1))).bind _ = _
    rw [hplain, Option.bind_some, if_neg n.succ_ne_zero]
    rfl

/-- Only what is written for an integer is read as that integer. -/
theorem eq_ofInt_of_plainInt? {cs : List Char} {z : Int} (h : plainInt? cs = some z) :
    cs = (ofInt z).toList := by
  rw [plainInt?.eq_def] at h
  split at h
  · obtain ⟨n, hn, hz⟩ := Option.bind_eq_some_iff.1 h
    rw [plain?_eq_some_iff.1 hn]
    split at hz
    · cases hz
    · rename_i hpos
      obtain ⟨k, rfl⟩ := Nat.exists_eq_succ_of_ne_zero hpos
      obtain rfl := Option.some.inj hz
      have hneg : (ofInt (.negSucc k)).toList = '-' :: digits (k + 1) := by
        rw [ofInt, String.toList_append, toList_ofNat]
        rfl
      exact hneg.symm
  · obtain ⟨n, hn, rfl⟩ := Option.map_eq_some_iff.1 h
    rw [plain?_eq_some_iff.1 hn]
    exact (toList_ofNat n).symm

theorem plainInt?_eq_some_iff {cs : List Char} {z : Int} :
    plainInt? cs = some z ↔ cs = (ofInt z).toList :=
  ⟨eq_ofInt_of_plainInt?, fun h ↦ h ▸ plainInt?_ofInt z⟩

end Decimal

/-! ### The reader -/

namespace Listing

/-- The number that a word stands for. -/
def number? (word : String) : Option Nat := Decimal.plain? word.toList

/-- The `int` that a word stands for. -/
def int? (word : String) : Option Int32 :=
  (Decimal.plainInt? word.toList).bind Decimal.int32?

/-- What stands between an opening and a closing text. -/
def between? (opening closing word : String) : Option String :=
  ((word.toList.dropPrefix? opening.toList).bind (List.dropSuffix? · closing.toList)).map
    String.ofList

/-- The slot that stands behind an opening bracket and before a closing text. -/
def slot? (closing word : String) : Option Nat := (between? "[" closing word).bind number?

/-- The operand that a word stands for. -/
def operand? (word : String) : Option Operand :=
  match slot? "]" word with
  | some slot => some (.load slot)
  | none => (int? word).map .const

/-- The items that words make up: each word but the last ends in a comma. -/
def items? : List String → Option (List String)
  | [] => some []
  | [word] => some [word]
  | word :: next :: words =>
    (between? "" "," word).bind fun item ↦ (items? (next :: words)).map (item :: ·)

/-- The operands that words make up. -/
def operands? (words : List String) : Option (List Operand) :=
  (items? words).bind (List.mapM operand?)

/-- The instruction that the words of a line make up. -/
def instr? : List String → Option Instr
  | ["alloc", slot, size] => (slot? "]," slot).bind fun slot ↦ (number? size).map (.alloc slot)
  | ["store", slot, value] => (slot? "]," slot).bind fun slot ↦ (operand? value).map (.store slot)
  | "call" :: name :: words =>
    (Builtin.ofName? name).bind fun builtin ↦ (operands? words).map (.call builtin)
  | ["eval", value] => (operand? value).map .eval
  | _ => none

/-- The instruction of a line, whose words stand a blank apart. -/
def line? (line : List Char) : Option Instr := instr? ((line.splitOn ' ').map String.ofList)

/-- The instructions of a listing. A line feed ends each of its lines, so that nothing stands behind
the last one. -/
def read? (text : String) : Option (List Instr) :=
  ((text.toList.splitOn '\n').dropSuffix? [[]]).bind (List.mapM line?)

/-! ### What a word stands for -/

theorem number?_eq_some_iff {word : String} {n : Nat} :
    number? word = some n ↔ word = Decimal.ofNat n := by
  rw [number?, Decimal.plain?_eq_some_iff, ← Decimal.toList_ofNat, String.toList_inj]

theorem int?_eq_some_iff {word : String} {v : Int32} :
    int? word = some v ↔ word = Decimal.ofInt32 v := by
  simp only [int?, Option.bind_eq_some_iff, Decimal.plainInt?_eq_some_iff,
    Decimal.int32?_eq_some_iff, String.toList_inj]
  constructor
  · rintro ⟨z, hword, rfl⟩
    exact hword
  · intro hword
    exact ⟨v.toInt, hword, rfl⟩

theorem between?_eq_some_iff {opening closing word inner : String} :
    between? opening closing word = some inner ↔ word = opening ++ inner ++ closing := by
  simp only [between?, Option.map_eq_some_iff, Option.bind_eq_some_iff,
    List.dropPrefix?_eq_some_iff, List.dropSuffix?_eq_some_iff, beq_iff_eq]
  constructor
  · rintro ⟨_, ⟨_, ⟨_, hword, rfl⟩, ⟨_, rfl, rfl⟩⟩, rfl⟩
    exact String.toList_inj.1 (by simpa using hword)
  · rintro rfl
    refine ⟨inner.toList, ⟨inner.toList ++ closing.toList, ⟨_, ?_, rfl⟩, ⟨_, rfl, rfl⟩⟩,
      String.ofList_toList⟩
    simp

theorem slot?_eq_some_iff {closing word : String} {slot : Nat} :
    slot? closing word = some slot ↔ word = "[" ++ Decimal.ofNat slot ++ closing := by
  simp only [slot?, Option.bind_eq_some_iff, between?_eq_some_iff, number?_eq_some_iff]
  constructor
  · rintro ⟨inner, rfl, rfl⟩
    rfl
  · rintro rfl
    exact ⟨_, rfl, rfl⟩

theorem operand?_eq_some_iff {word : String} {op : Operand} :
    operand? word = some op ↔ word = op.text := by
  rw [operand?]
  constructor
  · intro h
    split at h
    · rename_i slot hslot
      obtain rfl := Option.some.inj h
      exact slot?_eq_some_iff.1 hslot
    · obtain ⟨v, hv, rfl⟩ := Option.map_eq_some_iff.1 h
      exact int?_eq_some_iff.1 hv
  · rintro rfl
    cases op with
    | load slot => rw [Operand.text, slot?_eq_some_iff.2 rfl]
    | const v =>
      -- a number has no bracket
      have hslot : slot? "]" (Decimal.ofInt32 v) = none := by
        rw [Option.eq_none_iff_forall_ne_some]
        intro slot hslot
        have hmem : '[' ∈ (Decimal.ofInt32 v).toList := by simp [slot?_eq_some_iff.1 hslot]
        exact absurd ((Decimal.written_ofInt32 v).word.2 _ hmem) (by decide)
      rw [Operand.text, hslot, int?_eq_some_iff.2 rfl]
      rfl

/-! ### What the words of a line stand for -/

/-- Items as words: all but the last get a comma. -/
def commas : List String → List String
  | [] => []
  | [item] => [item]
  | item :: next :: items => (item ++ ",") :: commas (next :: items)

theorem commas_ne_nil (item : String) (items : List String) : commas (item :: items) ≠ [] := by
  cases items <;> simp [commas]

theorem items?_eq_some_iff {words items : List String} :
    items? words = some items ↔ words = commas items := by
  fun_induction items? words generalizing items with
  | case1 =>
    cases items with
    | nil => simp [commas]
    | cons item items => simpa using (commas_ne_nil item items).symm
  | case2 word =>
    match items with
    | [] | [item] => simp [commas]
    | item :: next :: items => simpa [commas] using fun _ ↦ (commas_ne_nil next items).symm
  | case3 word next words ih =>
    simp only [Option.bind_eq_some_iff, Option.map_eq_some_iff, between?_eq_some_iff, ih]
    constructor
    · rintro ⟨item, rfl, items, hitems, rfl⟩
      cases items with
      | nil => cases hitems
      | cons => simp [commas, hitems]
    · intro hwords
      match items with
      | [] | [item] => cases hwords
      | item :: next' :: items =>
        obtain ⟨hitem, hitems⟩ := List.cons.inj hwords
        exact ⟨item, by simpa using hitem, _, hitems, rfl⟩

/-- Where reading undoes writing, it does so for all members of a list. -/
theorem mapM_eq_some_iff {α β : Type} {f : α → Option β} {g : β → α}
    (h : ∀ a b, f a = some b ↔ a = g b) {as : List α} {bs : List β} :
    as.mapM f = some bs ↔ as = bs.map g := by
  induction as generalizing bs with
  | nil => cases bs <;> simp
  | cons a as ih =>
    simp only [List.mapM_cons, bind, pure, Option.bind_eq_some_iff, Option.some.injEq, h, ih]
    constructor
    · rintro ⟨b, rfl, bs, rfl, rfl⟩
      rfl
    · intro hbs
      obtain ⟨b, bs, rfl, rfl, rfl⟩ := List.map_eq_cons_iff.1 hbs.symm
      exact ⟨b, rfl, bs, rfl, rfl⟩

theorem operands?_eq_some_iff {words : List String} {args : List Operand} :
    operands? words = some args ↔ words = commas (args.map Operand.text) := by
  simp only [operands?, Option.bind_eq_some_iff, items?_eq_some_iff,
    mapM_eq_some_iff fun _ _ ↦ operand?_eq_some_iff]
  constructor
  · rintro ⟨_, rfl, rfl⟩
    rfl
  · rintro rfl
    exact ⟨_, rfl, rfl⟩

/-- The words of an instruction. -/
def words : Instr → List String
  | .alloc slot size => ["alloc", "[" ++ Decimal.ofNat slot ++ "],", Decimal.ofNat size]
  | .store slot value => ["store", "[" ++ Decimal.ofNat slot ++ "],", value.text]
  | .call builtin args => "call" :: builtin.name :: commas (args.map Operand.text)
  | .eval value => ["eval", value.text]

theorem instr?_words (i : Instr) : instr? (words i) = some i := by
  cases i with
  | alloc slot size =>
    rw [words, instr?, slot?_eq_some_iff.2 rfl, number?_eq_some_iff.2 rfl]
    rfl
  | store slot value =>
    rw [words, instr?, slot?_eq_some_iff.2 rfl, operand?_eq_some_iff.2 rfl]
    rfl
  | call builtin args =>
    rw [words, instr?, Builtin.ofName?_name, operands?_eq_some_iff.2 rfl]
    rfl
  | eval value =>
    rw [words, instr?, operand?_eq_some_iff.2 rfl]
    rfl

theorem eq_words_of_instr? {ws : List String} {i : Instr} (h : instr? ws = some i) :
    ws = words i := by
  rw [instr?.eq_def] at h
  split at h
  · obtain ⟨slot, hslot, hrest⟩ := Option.bind_eq_some_iff.1 h
    obtain ⟨size, hsize, rfl⟩ := Option.map_eq_some_iff.1 hrest
    rw [slot?_eq_some_iff.1 hslot, number?_eq_some_iff.1 hsize, words]
  · obtain ⟨slot, hslot, hrest⟩ := Option.bind_eq_some_iff.1 h
    obtain ⟨value, hvalue, rfl⟩ := Option.map_eq_some_iff.1 hrest
    rw [slot?_eq_some_iff.1 hslot, operand?_eq_some_iff.1 hvalue, words]
  · obtain ⟨builtin, hname, hrest⟩ := Option.bind_eq_some_iff.1 h
    obtain ⟨args, hargs, rfl⟩ := Option.map_eq_some_iff.1 hrest
    obtain ⟨rfl, rfl⟩ := Builtin.ofName?_eq_some hname
    rw [operands?_eq_some_iff.1 hargs]
    rfl
  · obtain ⟨value, hvalue, rfl⟩ := Option.map_eq_some_iff.1 h
    rw [operand?_eq_some_iff.1 hvalue, words]
  · cases h

/-- **The words of a line tell the instruction.** -/
theorem instr?_eq_some_iff {ws : List String} {i : Instr} : instr? ws = some i ↔ ws = words i :=
  ⟨eq_words_of_instr?, fun h ↦ h ▸ instr?_words i⟩

/-! ### How lines and listings are cut -/

/-- There is neither a blank nor a line feed in the word. -/
def Solid (word : String) : Prop := ∀ c ∈ word.toList, c ≠ ' ' ∧ c ≠ '\n'

theorem Solid.append {word word' : String} (h : Solid word) (h' : Solid word') :
    Solid (word ++ word') := by
  rw [Solid, String.toList_append, List.forall_mem_append]
  exact ⟨h, h'⟩

theorem solid_of_isWordChar {word : String} (h : ∀ c ∈ word.toList, IsWordChar c) :
    Solid word := by
  intro c hc
  constructor <;> rintro rfl <;> exact absurd (h _ hc) (by decide)

theorem solid_ofNat (n : Nat) : Solid (Decimal.ofNat n) :=
  solid_of_isWordChar (Decimal.written_ofNat n).word.2

theorem solid_slot (slot : Nat) {closing : String} (h : Solid closing) :
    Solid ("[" ++ Decimal.ofNat slot ++ closing) := by
  have hbracket : Solid "[" := by simp [Solid]
  exact (hbracket.append (solid_ofNat slot)).append h

theorem solid_operand (op : Operand) : Solid op.text := by
  cases op with
  | const v => exact solid_of_isWordChar (Decimal.written_ofInt32 v).word.2
  | load slot => exact solid_slot slot (by simp [Solid])

theorem solid_of_mem_commas {items : List String} (h : ∀ item ∈ items, Solid item) :
    ∀ word ∈ commas items, Solid word := by
  fun_induction commas items with
  | case1 | case2 => exact h
  | case3 item next items ih =>
    rw [List.forall_mem_cons] at h ⊢
    exact ⟨h.1.append (by simp [Solid]), ih h.2⟩

theorem solid_of_mem_words (i : Instr) : ∀ word ∈ words i, Solid word := by
  have hkind : Solid "alloc" ∧ Solid "store" ∧ Solid "call" ∧ Solid "eval" := by simp [Solid]
  have hslot : ∀ slot, Solid ("[" ++ Decimal.ofNat slot ++ "],") :=
    fun slot ↦ solid_slot slot (by simp [Solid])
  cases i with
  | alloc slot size => simp [words, hkind, hslot, solid_ofNat]
  | store slot value => simp [words, hkind, hslot, solid_operand]
  | call builtin args =>
    have hname : Solid builtin.name := by cases builtin; simp [Solid, Builtin.name]
    have hargs : ∀ word ∈ commas (args.map Operand.text), Solid word :=
      solid_of_mem_commas (List.forall_mem_map.2 fun op _ ↦ solid_operand op)
    exact List.forall_mem_cons.2 ⟨hkind.2.2.1, List.forall_mem_cons.2 ⟨hname, hargs⟩⟩
  | eval value => simp [words, hkind, solid_operand]

theorem intercalate_commas (items : List String) :
    " ".intercalate (commas items) = ", ".intercalate items := by
  fun_induction commas items with
  | case1 => rfl
  | case2 item => simp
  | case3 item next items ih =>
    rw [String.intercalate_cons_of_ne_nil (commas_ne_nil next items), ih,
      String.intercalate_cons_cons]
    simp [String.append_assoc]

/-- A line is its words with blanks between them. -/
theorem text_eq_intercalate (i : Instr) : i.text = " ".intercalate (words i) := by
  apply String.toList_inj.1
  cases i with
  | alloc slot size => simp [Instr.text, words]
  | store slot value => simp [Instr.text, words]
  | call builtin args =>
    cases args with
    | nil => simp [Instr.text, words, Operand.listText, commas]
    | cons op args =>
      rw [words, String.intercalate_cons_cons, List.map_cons,
        String.intercalate_cons_of_ne_nil (commas_ne_nil _ _), intercalate_commas]
      simp [Instr.text, Operand.listText]
  | eval value => simp [Instr.text, words]

theorem words_ne_nil (i : Instr) : words i ≠ [] := by
  cases i <;> simp [words]

theorem newline_text (i : Instr) : '\n' ∉ i.text.toList := by
  rw [text_eq_intercalate, String.toList_intercalate]
  intro hmem
  rcases mem_intercalate hmem with hsep | ⟨_, hpart, hc⟩
  · simp at hsep
  · obtain ⟨word, hword, rfl⟩ := List.mem_map.1 hpart
    exact (solid_of_mem_words i word hword _ hc).2 rfl

/-- **A line tells the instruction.** -/
theorem line?_eq_some_iff {line : List Char} {i : Instr} :
    line? line = some i ↔ line = i.text.toList := by
  have htext : i.text.toList = [' '].intercalate ((words i).map String.toList) := by
    rw [text_eq_intercalate, String.toList_intercalate]
    rfl
  rw [line?, instr?_eq_some_iff, htext]
  constructor
  · intro hwords
    rw [← hwords, List.map_map]
    simp [Function.comp_def]
  · rintro rfl
    have hblank : ∀ word ∈ (words i).map String.toList, ' ' ∉ word :=
      List.forall_mem_map.2 fun word hword hc ↦ (solid_of_mem_words i word hword _ hc).1 rfl
    rw [List.splitOn_intercalate ' ' hblank (by simpa using words_ne_nil i)]
    simp

/-- A line feed behind each line is one between two lines, with nothing behind the last. -/
theorem toList_listing (p : Program) :
    p.listing.toList = ['\n'].intercalate (p.instrs.map (·.text.toList) ++ [[]]) := by
  rw [Program.listing]
  induction p.instrs with
  | nil => rfl
  | cons i instrs ih =>
    rw [List.map_cons, String.join_cons, String.toList_append, ih, List.map_cons, List.cons_append,
      List.intercalate_cons_of_ne_nil (by simp), String.toList_append]
    rfl

/-- **The reader accepts the listings, and gives back what was listed.** -/
theorem read?_eq_some_iff {text : String} {p : Program} :
    read? text = some p.instrs ↔ text = p.listing := by
  have hread : read? text = some p.instrs ↔
      text.toList.splitOn '\n' = p.instrs.map (·.text.toList) ++ [[]] := by
    simp only [read?, Option.bind_eq_some_iff, List.dropSuffix?_eq_some_iff, beq_iff_eq,
      mapM_eq_some_iff fun _ _ ↦ line?_eq_some_iff]
    constructor
    · rintro ⟨_, ⟨_, hlines, rfl⟩, rfl⟩
      exact hlines
    · intro hlines
      exact ⟨_, ⟨_, hlines, rfl⟩, rfl⟩
  rw [hread, ← String.toList_inj, toList_listing]
  constructor
  · intro hlines
    rw [← hlines, List.intercalate_splitOn]
  · intro htext
    have hnewline : ∀ line ∈ p.instrs.map (·.text.toList) ++ [[]], '\n' ∉ line :=
      List.forall_mem_append.2 ⟨List.forall_mem_map.2 fun i _ ↦ newline_text i, by simp⟩
    rw [htext, List.splitOn_intercalate '\n' hnewline (by simp)]

end Listing

/-- **Listings are unambiguous.**

There is a reader of listings: it accepts a text if and only if it is the listing of a program, and
gives back the instructions of that program. So two programs, compiled or made by hand, with any
slots, sizes and numbers and any number of arguments in a call, have the same listing if and only if
their instructions are the same. -/
theorem Program.listing_is_unambiguous :
    (∀ (text : String) (p : Program),
      Listing.read? text = some p.instrs ↔ text = p.listing) ∧
    ∀ p p' : Program, p.listing = p'.listing ↔ p.instrs = p'.instrs := by
  refine ⟨fun text p ↦ Listing.read?_eq_some_iff, fun p p' ↦ ⟨?_, ?_⟩⟩
  · intro h
    have hread : Listing.read? p.listing = some p.instrs := Listing.read?_eq_some_iff.2 rfl
    have hread' : Listing.read? p.listing = some p'.instrs := Listing.read?_eq_some_iff.2 h
    exact Option.some.inj (hread.symm.trans hread')
  · intro h
    rw [listing, listing, h]

example : Listing.read? "alloc [0], 8\nstore [0], -1\ncall print [0], 5\n" =
    some [.alloc 0 8, .store 0 (.const (-1)), .call .print [.load 0, .const 5]] := by
  decide +kernel

example : Listing.read? "alloc [0], 08\n" = none ∧ Listing.read? "eval [0]" = none := by
  decide +kernel

end SlotLang
