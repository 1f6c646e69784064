import Mathlib
import SlotLang.Proofs.CBody

/-!
# Templates are filled completely

The body of a program takes the place of every marker of a template, and no marker is left over, be
it in the template, in the body or across a seam between them.

* **What is replaced.** `Template.Replaced` says it without the loop over the characters: the first
  marker is replaced, then the first one behind it, and so on. `replaced_splice` follows the loop.
  That none is missed is a fact about the marker, two of which cannot overlap
  (`markerCount_marker_append`).
* **What cannot come of it.** A marker is a `%` with something before it and something behind it.
  A body has no `%`, does not begin with what may stand behind one and does not end with what may
  stand before one: it is `Template.Sealed`. So a `%` is the template's, and if the marker around it
  ran into a body it would meet a character that is not its own (`Sealed.not_infix`).
* **Bodies are sealed**, those of programs that no reader accepts included (`Module.sealed_cBody`).
-/

namespace SlotLang

/-! ### Parts of a text -/

section Parts

variable {l r u a b x y : List Char} {c : Char}

/-- What ends `l ++ r` lies in `r` if it does not contain the last character of `l`. -/
theorem suffix_of_append_eq (h : l ++ r = a ++ u) (hc : l.getLast? = some c) (hu : c ∉ u) :
    u <:+ r := by
  rcases List.append_eq_append_iff.1 h with ⟨mid, -, rfl⟩ | ⟨mid, rfl, rfl⟩
  · exact List.suffix_append mid u
  · rcases List.eq_nil_or_concat' mid with rfl | ⟨mid, d, rfl⟩
    · exact List.suffix_refl r
    · have hd : d = c := by simpa using hc
      exact absurd (by simp [hd]) hu

/-- What begins `l ++ r` lies in `l` if it does not contain the first character of `r`. -/
theorem prefix_of_append_eq (h : l ++ r = u ++ b) (hc : r.head? = some c) (hu : c ∉ u) :
    u <+: l := by
  rcases List.append_eq_append_iff.1 h with ⟨mid, rfl, rfl⟩ | ⟨mid, rfl, -⟩
  · cases mid with
    | nil => rw [List.append_nil]
    | cons d mid =>
      have hd : d = c := by simpa using hc
      exact absurd (by simp [hd]) hu
  · exact List.prefix_append u mid

/-- A character that is not in the middle of a text stands on one of its sides. -/
theorem split_outside (h : a ++ c :: b = x ++ l ++ y) (hc : c ∉ l) :
    (∃ mid, x = a ++ c :: mid ∧ b = mid ++ (l ++ y)) ∨
      ∃ mid, y = mid ++ c :: b ∧ a = x ++ l ++ mid := by
  rcases List.append_eq_append_iff.1 h with ⟨mid, hleft, hright⟩ | ⟨mid, hleft, hright⟩
  · cases mid with
    | nil => exact .inr ⟨[], hright.symm, by rw [hleft, List.append_nil, List.append_nil]⟩
    | cons d mid =>
      obtain ⟨rfl, rfl⟩ := List.cons.inj hright
      rcases List.append_eq_append_iff.1 hleft with ⟨mid', rfl, hl⟩ | ⟨mid', rfl, hl⟩
      · exact absurd (hl ▸ List.mem_append_right mid' List.mem_cons_self) hc
      · cases mid' with
        | nil =>
          obtain rfl : c :: mid = l := hl
          exact absurd List.mem_cons_self hc
        | cons d' mid' =>
          obtain ⟨rfl, rfl⟩ := List.cons.inj hl
          exact .inl ⟨mid', rfl, List.append_assoc ..⟩
  · exact .inr ⟨mid, hright, hleft⟩

end Parts

namespace Template

/-! ### What is replaced -/

/-- The number of places at which a marker begins. -/
def markerCount (text : List Char) : Nat := text.tails.countP marker.toList.isPrefixOf

/-- `out` is `text` with `body` in the place of `n` markers: the first one, the first one behind it,
and so on until none is left. -/
inductive Replaced (body : List Char) : List Char → List Char → Nat → Prop
  | done {text : List Char} (h : ¬ marker.toList <:+: text) : Replaced body text text 0
  | next {before behind out : List Char} {n : Nat}
      (hfirst : ∀ k < before.length,
        ¬ marker.toList <+: (before ++ marker.toList ++ behind).drop k)
      (h : Replaced body behind out n) :
      Replaced body (before ++ marker.toList ++ behind) (before ++ body ++ out) (n + 1)

variable {body text out : List Char} {n : Nat}

theorem markerCount_cons {c : Char} (h : ¬ marker.toList <+: c :: text) :
    markerCount (c :: text) = markerCount text := by
  rw [← List.isPrefixOf_iff_prefix] at h
  rw [markerCount, List.tails_cons, List.countP_cons_of_neg h, markerCount]

/-- No marker begins inside another. -/
theorem markerCount_marker_append (text : List Char) :
    markerCount (marker.toList ++ text) = markerCount text + 1 := by
  have hmarker : marker.toList = ['/', '/', ' ', '%', 'm', 'a', 'i', 'n'] := rfl
  rw [markerCount, markerCount, hmarker]
  simp [List.tails]

/-- A character at which no marker begins stays. -/
theorem Replaced.cons {c : Char} (hc : ¬ marker.toList <+: c :: text)
    (h : Replaced body text out n) : Replaced body (c :: text) (c :: out) n := by
  cases h with
  | done h =>
    refine .done fun hmarker ↦ ?_
    exact (List.infix_cons_iff.1 hmarker).elim hc h
  | @next before behind out n hfirst h =>
    refine @next _ (c :: before) _ _ _ (fun k hk ↦ ?_) h
    cases k with
    | zero => exact hc
    | succ k => exact hfirst k (Nat.lt_of_succ_lt_succ hk)

/-- **Filling replaces one marker after the other**, as many as there are. -/
theorem replaced_splice (body text : List Char) :
    Replaced body text (splice body text) (markerCount text) := by
  fun_induction splice body text with
  | case1 => exact .done (by decide)
  | case2 c cs hmarker ih =>
    obtain ⟨behind, hbehind⟩ := List.isPrefixOf_iff_prefix.1 hmarker
    have hdrop : cs.drop (marker.length - 1) = behind := by
      have htail : marker.toList.tail ++ behind = cs := congrArg List.tail hbehind
      rw [← htail, show marker.length - 1 = marker.toList.tail.length from rfl, List.drop_left]
    rw [hdrop] at ih ⊢
    rw [← hbehind, markerCount_marker_append]
    exact @Replaced.next _ [] _ _ _ (by simp) ih
  | case3 c cs hmarker ih =>
    rw [List.isPrefixOf_iff_prefix] at hmarker
    rw [markerCount_cons hmarker]
    exact ih.cons hmarker

theorem Replaced.eq_of_not_infix (h : Replaced body text out n)
    (hnone : ¬ marker.toList <:+: text) : out = text := by
  cases h with
  | done => rfl
  | next => exact absurd (List.infix_append ..) hnone

/-! ### No marker comes of it -/

/-- A text that no marker can run into, from neither side. -/
structure Sealed (body : List Char) : Prop where
  /-- It does not begin with what stands behind the `%` of a marker. -/
  first : ∃ c, body.head? = some c ∧ c ∉ "main".toList
  /-- It does not end with what stands before the `%` of a marker. -/
  last : ∃ c, body.getLast? = some c ∧ c ∉ "// ".toList
  /-- It has no `%`. -/
  percent : '%' ∉ body

/-- **A sealed text makes no marker of the texts around it.** -/
theorem Sealed.not_infix (hbody : Sealed body) {x y : List Char} (hx : ¬ marker.toList <:+: x)
    (hy : ¬ marker.toList <:+: y) : ¬ marker.toList <:+: x ++ body ++ y := by
  rintro ⟨a, b, heq⟩
  have hmarker : marker.toList = "// ".toList ++ '%' :: "main".toList := rfl
  have hpercent : (a ++ "// ".toList) ++ '%' :: ("main".toList ++ b) = x ++ body ++ y := by
    rw [← heq, hmarker]
    simp
  rcases split_outside hpercent hbody.percent with ⟨mid, rfl, hbehind⟩ | ⟨mid, rfl, hbefore⟩
  · -- the `%` stands before the body, and so does all that follows it
    obtain ⟨c, hc, hmain⟩ := hbody.first
    have hhead : (body ++ y).head? = some c := by rw [List.head?_append, hc, Option.some_or]
    obtain ⟨rest, rfl⟩ := prefix_of_append_eq hbehind.symm hhead hmain
    exact hx ⟨a, rest, by rw [hmarker]; simp⟩
  · -- the `%` stands behind the body, and so does all that precedes it
    obtain ⟨c, hc, hslashes⟩ := hbody.last
    have hlast : (x ++ body).getLast? = some c := by rw [List.getLast?_append, hc, Option.some_or]
    obtain ⟨rest, rfl⟩ := suffix_of_append_eq hbefore.symm hlast hslashes
    exact hy ⟨rest, b, by rw [hmarker]; simp⟩

/-- What stands before the first marker has none. -/
theorem not_infix_of_first {before behind : List Char}
    (hfirst : ∀ k < before.length,
      ¬ marker.toList <+: (before ++ marker.toList ++ behind).drop k) :
    ¬ marker.toList <:+: before := by
  rintro ⟨a, b, rfl⟩
  have hlength : a.length < (a ++ marker.toList ++ b).length := by
    have hmarker : marker.toList.length = 8 := rfl
    simp only [List.length_append]
    omega
  refine hfirst a.length hlength ?_
  rw [List.append_assoc, List.append_assoc, List.append_assoc, List.drop_left]
  exact List.prefix_append ..

/-- **No marker is left**, if what takes their places is sealed. -/
theorem Replaced.not_infix (hbody : Sealed body) (h : Replaced body text out n) :
    ¬ marker.toList <:+: out := by
  induction h with
  | done h => exact h
  | next hfirst _ ih => exact hbody.not_infix (not_infix_of_first hfirst) ih

/-- Sealed texts with anything but a `%` between them are sealed. -/
theorem Sealed.join {sep body' : List Char} (h : Sealed body) (hsep : '%' ∉ sep)
    (h' : Sealed body') : Sealed (body ++ sep ++ body') where
  first := by
    obtain ⟨c, hc, hmain⟩ := h.first
    exact ⟨c, by simp [hc], hmain⟩
  last := by
    obtain ⟨c, hc, hslashes⟩ := h'.last
    exact ⟨c, by simp [List.getLast?_append, hc], hslashes⟩
  percent := by simp [h.percent, hsep, h'.percent]

end Template

/-! ### Bodies are sealed -/

open Template (Sealed)

theorem mem_intercalate {c : Char} {sep : List Char} {parts : List (List Char)}
    (h : c ∈ sep.intercalate parts) : c ∈ sep ∨ ∃ part ∈ parts, c ∈ part := by
  induction parts with
  | nil => simp at h
  | cons part parts ih =>
    cases parts with
    | nil => exact .inr ⟨part, by simp, by simpa using h⟩
    | cons part' parts =>
      rw [List.intercalate_cons_cons, List.mem_append, List.mem_append] at h
      rcases h with (h | h) | h
      · exact .inr ⟨part, by simp, h⟩
      · exact .inl h
      · exact (ih h).imp_right fun ⟨part'', hmem, hc⟩ ↦ ⟨part'', List.mem_cons_of_mem part hmem, hc⟩

theorem Decimal.isDigit_of_mem_digits {c : Char} {n : Nat} (h : c ∈ digits n) :
    isDigit c = true :=
  List.all_eq_true.1 (all_isDigit_digits n) c h

theorem Decimal.percent_digits (n : Nat) : '%' ∉ digits n := fun hmem ↦
  absurd (isDigit_of_mem_digits hmem) (by decide)

theorem percent_cInt (v : Int32) : '%' ∉ (cInt v).toList := by
  unfold cInt
  split
  · decide
  · split
    · rename_i hneg
      simp [Decimal.toList_ofInt32_of_neg hneg, Decimal.percent_digits]
    · rename_i hneg
      simp [Decimal.toList_ofInt32_of_not_neg hneg, Decimal.percent_digits]

theorem percent_cSlot (slot : Nat) : '%' ∉ (cSlot slot).toList := by
  unfold cSlot
  simp [Decimal.toList_ofNat, Decimal.percent_digits]

namespace Expr

mutual

theorem percent_toC : ∀ e : Expr, '%' ∉ e.toC.toList
  | int v _ => percent_cInt v
  | read _ v _ => by
    rw [toC]
    simp [percent_cSlot]
  | call builtin args _ => by
    have hargs : '%' ∉ (", ".intercalate (listToC args)).toList := by
      rw [String.toList_intercalate]
      intro hmem
      rcases mem_intercalate hmem with hsep | ⟨part, hpart, hc⟩
      · exact absurd hsep (by decide)
      · obtain ⟨s, hs, rfl⟩ := List.mem_map.1 hpart
        exact percent_listToC args s hs hc
    have hname : '%' ∉ builtin.cSymbol.toList := by cases builtin; decide
    rw [toC]
    simp only [String.toList_append, List.mem_append, not_or]
    exact ⟨⟨⟨hname, by decide⟩, hargs⟩, by decide⟩

theorem percent_listToC : ∀ es : List Expr, ∀ s ∈ listToC es, '%' ∉ s.toList
  | [] => by simp [listToC]
  | e :: es => by
    rw [listToC, List.forall_mem_cons]
    exact ⟨percent_toC e, percent_listToC es⟩

end

/-- An expression begins with a digit, a parenthesis or the name of a function. -/
theorem head?_toC (e : Expr) : ∃ c, e.toC.toList.head? = some c ∧ c ∉ "main".toList := by
  cases e with
  | int v span =>
    rw [toC, cInt]
    split
    · exact ⟨'(', rfl, by decide⟩
    · split
      · exact ⟨'(', by simp, by decide⟩
      · rename_i hneg
        have hno : ∀ d ∈ "main".toList, Decimal.isDigit d = false := by simp [Decimal.isDigit]
        rw [Decimal.toList_ofInt32_of_not_neg hneg]
        obtain ⟨c, cs, hc⟩ := List.exists_cons_of_ne_nil (Decimal.digits_ne_nil v.toInt.toNat)
        have hdigit : Decimal.isDigit c = true :=
          Decimal.isDigit_of_mem_digits (hc ▸ List.mem_cons_self)
        exact ⟨c, by rw [hc]; rfl, fun hmain ↦ absurd hdigit (by simp [hno c hmain])⟩
  | read name v span => exact ⟨'(', by rw [toC]; simp, by decide⟩
  | call builtin args span =>
    cases builtin
    exact ⟨'p', by rw [toC]; simp [Builtin.cSymbol], by decide⟩

end Expr

theorem getLast?_semicolon (text : String) : (text ++ ";").toList.getLast? = some ';' := by
  rw [String.toList_append]
  exact List.getLast?_concat

/-- A statement begins as an expression does, or with the name of a function, and ends with a
semicolon. -/
theorem Stmt.sealed_toC (s : Stmt) : Sealed s.toC.toList := by
  cases s with
  | declaration name v value span =>
    unfold toC
    refine ⟨⟨'p', by simp, by decide⟩, ⟨';', getLast?_semicolon _, by decide⟩, ?_⟩
    simp [Decimal.toList_ofNat, Decimal.percent_digits, percent_cSlot, value.percent_toC, bodyBreak]
  | expr e =>
    obtain ⟨c, hc, hmain⟩ := e.head?_toC
    unfold toC
    exact ⟨⟨c, by simp [hc], hmain⟩, ⟨';', getLast?_semicolon _, by decide⟩,
      by simp [e.percent_toC]⟩

theorem sealed_intercalate {ss : List Stmt} (hne : ss ≠ []) :
    Sealed (bodyBreak.intercalate (ss.map Stmt.toC)).toList := by
  induction ss with
  | nil => exact absurd rfl hne
  | cons s ss ih =>
    cases ss with
    | nil => simpa [String.intercalate_singleton] using s.sealed_toC
    | cons s' ss =>
      rw [List.map_cons, List.map_cons, String.intercalate_cons_cons, String.toList_append,
        String.toList_append]
      exact s.sealed_toC.join (by decide) (ih (by simp))

/-- **Every body is sealed**, whether a reader would accept the program or not. -/
theorem Module.sealed_cBody (m : Module) : Sealed m.cBody.toList := by
  unfold cBody
  split
  · exact ⟨⟨'/', rfl, by decide⟩, ⟨')', rfl, by decide⟩, by decide⟩
  · rename_i hne
    exact sealed_intercalate (by simpa using hne)

/-- **Templates are filled completely.**

Take any template and any program, checked or not. The file is the template with the body in the
place of the first marker, of the first one behind it, and so on until none is left; all else stays
in its place. There are as many replacements as there are places at which a marker begins. No marker
is in the file, not even across a seam. A template without a marker comes back as it is. -/
theorem template_is_filled (m : Module) (template : String) :
    Template.Replaced m.cBody.toList template.toList (m.toC template).toList
        (Template.markerCount template.toList) ∧
      ¬ Template.marker.toList <:+: (m.toC template).toList ∧
      (¬ Template.marker.toList <:+: template.toList → m.toC template = template) := by
  have htext : (m.toC template).toList = Template.splice m.cBody.toList template.toList :=
    String.toList_ofList
  have hreplaced := Template.replaced_splice m.cBody.toList template.toList
  rw [← htext] at hreplaced
  exact ⟨hreplaced, hreplaced.not_infix m.sealed_cBody,
    fun hnone ↦ String.toList_inj.1 (hreplaced.eq_of_not_infix hnone)⟩

/-- Two markers in a row with a slash before them and the end of a third behind them. The body is a
comment and begins as a marker does, but no marker comes of it; nor is there one where a blank is
missing, and that template comes back. -/
theorem slashes_do_not_add_up :
    Module.toC ⟨[], 0⟩ "/// %main// %main %main" = "/// (empty program)// (empty program) %main" ∧
      Template.markerCount "/// %main// %main %main".toList = 2 ∧
      ¬ Template.marker.toList <:+: "/// (empty program)// (empty program) %main".toList ∧
      ¬ Template.marker.toList <:+: "//%main".toList ∧
      Module.toC ⟨[], 0⟩ "//%main" = "//%main" := by
  have hfile : Module.toC ⟨[], 0⟩ "/// %main// %main %main" =
      "/// (empty program)// (empty program) %main" := by
    decide +kernel
  have hnone : ¬ Template.marker.toList <:+: "//%main".toList := by decide
  obtain ⟨-, hleft, -⟩ := template_is_filled ⟨[], 0⟩ "/// %main// %main %main"
  rw [hfile] at hleft
  exact ⟨hfile, by decide, hleft, hnone, (template_is_filled ⟨[], 0⟩ "//%main").2.2 hnone⟩

end SlotLang
