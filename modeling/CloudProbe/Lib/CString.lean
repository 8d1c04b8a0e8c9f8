import Mathlib.Algebra.Order.Ring.Nat
import Mathlib.Data.List.TakeWhile
import Mathlib.Tactic.Common

/-!
# C strings and `strtoul`

A string of C is the bytes in front of the terminator (`CString`). `strtoul` is the standard
library's number reader in the C locale, with an `unsigned long` of 64 bits: it returns the value
and what is left of the string at the end pointer.

* **The reader** (`strtoul`): white space, sign, base, digits; saturation and negation.
* **Its numerals** (`Numeral base t v`): the texts `t` that are read as `v`, said without the
  reader.
* **Sound and complete** (`numeral_of_strtoul`, `strtoul_append`): what is read is a numeral, and a
  numeral is read whole in front of anything that cannot continue it.
-/

namespace CloudProbe.Lib

open List Option

/-- A string of C without its terminator. -/
@[ext]
structure CString where
  bytes : List UInt8
  nul_free : 0 ∉ bytes

/-- The string in a buffer, up to the first terminator. -/
def CString.ofBuffer (buf : List UInt8) : CString where
  bytes := buf.takeWhile (· ≠ 0)
  nul_free := by
    intro h
    have := mem_takeWhile_imp h
    simp at this

theorem CString.ofBuffer_append {buf : List UInt8} (h : 0 ∈ buf) (junk : List UInt8) :
    CString.ofBuffer (buf ++ junk) = CString.ofBuffer buf := by
  apply CString.ext
  simp only [CString.ofBuffer]
  induction buf with
  | nil => cases h
  | cons c buf ih =>
    rw [cons_append, takeWhile_cons, takeWhile_cons]
    by_cases hc : c = 0
    · simp [hc]
    · have hbuf : 0 ∈ buf := (mem_cons.mp h).resolve_left fun h0 => hc h0.symm
      rw [ih hbuf]

theorem CString.ofBuffer_bytes {text : List UInt8} (h : 0 ∉ text) :
    (CString.ofBuffer (text ++ [0])).bytes = text := by
  have hall : ∀ c ∈ text, decide (c ≠ 0) = true := by
    intro c hc
    rw [decide_eq_true_eq]
    rintro rfl
    exact h hc
  simp only [CString.ofBuffer]
  rw [takeWhile_append_of_pos hall]
  simp

/-! ## The reader -/

def ulongMax : ℕ := 2 ^ 64 - 1

/-- White space in the C locale, by the code of the character. -/
def isSpaceCode (code : ℕ) : Bool := code = 32 || (9 ≤ code && code ≤ 13)

def isSpace (c : UInt8) : Bool := isSpaceCode c.toNat

/-- The value of a character as a digit, in a base where it is one. -/
def digitVal (c : UInt8) : Option ℕ :=
  if 48 ≤ c ∧ c ≤ 57 then some (c.toNat - 48)
  else if 65 ≤ c ∧ c ≤ 90 then some (c.toNat - 55)
  else if 97 ≤ c ∧ c ≤ 122 then some (c.toNat - 87)
  else none

def isDigitOf (base : ℕ) (c : UInt8) : Bool := (digitVal c).any (· < base)

def digitsVal (base : ℕ) (ds : List UInt8) : ℕ :=
  ds.foldl (fun acc c => acc * base + (digitVal c).getD 0) 0

/-- An optional sign and what is behind it; `true` for a minus. -/
def takeSign (s : List UInt8) : Bool × List UInt8 :=
  if s.head? = some 45 then (true, s.tail)
  else if s.head? = some 43 then (false, s.tail)
  else (false, s)

/-- The text goes on with `0x` or `0X` and a hexadecimal digit. -/
def hasHexMark (s : List UInt8) : Bool :=
  s.head? = some 48 && (s[1]? = some 120 || s[1]? = some 88) && (s[2]?).any (isDigitOf 16)

def takeBase (base : ℕ) (s : List UInt8) : ℕ × List UInt8 :=
  if (base = 0 ∨ base = 16) ∧ hasHexMark s then (16, s.drop 2)
  else if base = 0 then (if s.head? = some 48 then 8 else 10, s)
  else (base, s)

/-- The result for a number that was read; a minus negates it in the result type. -/
def toUlong (minus : Bool) (n : ℕ) : ℕ :=
  if ulongMax < n then ulongMax else if minus then (2 ^ 64 - n) % 2 ^ 64 else n

/-- `strtoul`: the value and the string at the end pointer, which is the string itself when there is
no number. -/
def strtoul (s : List UInt8) (base : ℕ) : ℕ × List UInt8 :=
  let (minus, unsigned) := takeSign (s.dropWhile isSpace)
  let (b, body) := takeBase base unsigned
  if body.takeWhile (isDigitOf b) = [] then (0, s)
  else (toUlong minus (digitsVal b (body.takeWhile (isDigitOf b))), body.dropWhile (isDigitOf b))

/-! ## Numerals -/

/-- The base in which `mark ++ ds` is written is `b`, when `strtoul` is given `base`. -/
inductive BaseMark (base : ℕ) : ℕ → List UInt8 → List UInt8 → Prop
  | hex {x : UInt8} {ds : List UInt8} (hbase : base = 0 ∨ base = 16) (hx : x = 120 ∨ x = 88) :
      BaseMark base 16 [48, x] ds
  | octal {ds : List UInt8} (hbase : base = 0) (hds : ds.head? = some 48) : BaseMark base 8 [] ds
  | decimal {ds : List UInt8} (hbase : base = 0) (hds : ds.head? ≠ some 48) :
      BaseMark base 10 [] ds
  | given {ds : List UInt8} (hbase : base ≠ 0) : BaseMark base base [] ds

inductive SignMark : Bool → List UInt8 → Prop
  | none : SignMark false []
  | plus : SignMark false [43]
  | minus : SignMark true [45]

/-- The text `t` is a numeral of value `v` for `strtoul` with the base `base`. -/
inductive Numeral (base : ℕ) : List UInt8 → ℕ → Prop
  | mk {space sign mark ds : List UInt8} {minus : Bool} {b : ℕ}
      (hspace : ∀ c ∈ space, isSpace c = true) (hsign : SignMark minus sign)
      (hmark : BaseMark base b mark ds) (hds : ds ≠ []) (hdigits : ∀ c ∈ ds, isDigitOf b c = true) :
      Numeral base (space ++ (sign ++ (mark ++ ds))) (toUlong minus (digitsVal b ds))

/-- A text that cannot continue a numeral: it does not start with a letter or a digit. -/
def Stops (rest : List UInt8) : Prop := ∀ c, rest.head? = some c → digitVal c = none

theorem stops_nil : Stops [] := by
  nofun

/-! ## What is read is a numeral -/

theorem takeSign_spec (s : List UInt8) :
    ∃ sign, SignMark (takeSign s).1 sign ∧ s = sign ++ (takeSign s).2 := by
  cases s with
  | nil => exact ⟨[], .none, rfl⟩
  | cons c s =>
    by_cases hminus : c = 45
    · subst hminus
      exact ⟨[45], .minus, rfl⟩
    by_cases hplus : c = 43
    · subst hplus
      exact ⟨[43], .plus, rfl⟩
    · refine ⟨[], ?_, ?_⟩ <;> simp [takeSign, hminus, hplus, SignMark.none]

/-- What stands before the digits is the mark of the base. -/
theorem takeBase_spec (base : ℕ) (s : List UInt8)
    (hne : (takeBase base s).2.takeWhile (isDigitOf (takeBase base s).1) ≠ []) :
    ∃ mark, BaseMark base (takeBase base s).1 mark
        ((takeBase base s).2.takeWhile (isDigitOf (takeBase base s).1)) ∧
      s = mark ++ (takeBase base s).2 := by
  by_cases hhex : (base = 0 ∨ base = 16) ∧ hasHexMark s = true
  · have heq : takeBase base s = (16, s.drop 2) := by rw [takeBase, if_pos hhex]
    obtain ⟨hbase, hmark⟩ := hhex
    rw [heq]
    simp only [hasHexMark, Bool.and_eq_true, Bool.or_eq_true, decide_eq_true_eq] at hmark
    obtain ⟨⟨h0, hx⟩, -⟩ := hmark
    cases s with
    | nil => simp at h0
    | cons c s =>
      cases s with
      | nil => simp at hx
      | cons x s =>
        simp only [List.head?_cons, some.injEq] at h0
        simp only [List.getElem?_cons_succ, List.getElem?_cons_zero, some.injEq] at hx
        subst h0
        exact ⟨[48, x], .hex hbase hx, rfl⟩
  · by_cases hbase : base = 0
    · have heq : takeBase base s = (if s.head? = some 48 then 8 else 10, s) := by
        rw [takeBase, if_neg hhex, if_pos hbase]
      rw [heq] at hne ⊢
      -- The first digit decides between octal and decimal.
      have hhead : ∀ b, (s.takeWhile (isDigitOf b)) ≠ [] →
          (s.takeWhile (isDigitOf b)).head? = s.head? := by
        intro b hb
        cases s with
        | nil => rfl
        | cons c s =>
          rw [takeWhile_cons] at hb ⊢
          by_cases hc : isDigitOf b c = true
          · rw [if_pos hc]
            rfl
          · rw [if_neg hc] at hb
            exact absurd rfl hb
      refine ⟨[], ?_, rfl⟩
      by_cases h0 : s.head? = some 48
      · simp only [if_pos h0] at hne ⊢
        exact .octal hbase ((hhead 8 hne).trans h0)
      · simp only [if_neg h0] at hne ⊢
        exact .decimal hbase (by rwa [hhead 10 hne])
    · have heq : takeBase base s = (base, s) := by
        rw [takeBase, if_neg hhex, if_neg hbase]
      rw [heq]
      exact ⟨[], .given hbase, rfl⟩

variable {base : ℕ} {rest : List UInt8} {v : ℕ} {t : List UInt8} {c : UInt8} {b : ℕ}
  {ds : List UInt8}

/-- **What is read is a numeral** of the value returned, when the end pointer moved. -/
theorem numeral_of_strtoul {s : List UInt8} (h : strtoul s base = (v, rest)) (hmoved : rest ≠ s) :
    ∃ t, s = t ++ rest ∧ Numeral base t v := by
  obtain ⟨sign, hsign, hsplit⟩ := takeSign_spec (s.dropWhile isSpace)
  simp only [strtoul] at h
  split_ifs at h with hne
  · exact absurd (congrArg Prod.snd h).symm hmoved
  · obtain ⟨mark, hmark, hbody⟩ := takeBase_spec base _ hne
    obtain ⟨rfl, rfl⟩ := Prod.mk.inj h
    refine ⟨s.takeWhile isSpace ++ (sign ++ (mark ++ _)), ?_,
      .mk (fun c hc => mem_takeWhile_imp hc) hsign hmark hne
        (fun c hc => mem_takeWhile_imp hc)⟩
    simp only [append_assoc]
    rw [takeWhile_append_dropWhile, ← hbody, ← hsplit, takeWhile_append_dropWhile]

theorem Numeral.ne_nil (h : Numeral base t v) : t ≠ [] := by
  cases h with
  | mk hspace hsign hmark hds hdigits => simp [hds]

theorem Numeral.le_ulongMax (h : Numeral base t v) :
    v ≤ ulongMax := by
  cases h with
  | @mk space sign mark ds minus b hspace hsign hmark hds hdigits =>
    unfold toUlong
    split
    · exact le_refl _
    · split
      · rw [ulongMax]
        omega
      · omega

/-! ## A numeral is read whole -/

theorem plain_of_digitVal (h : digitVal c ≠ none) :
    isSpace c = false ∧ c ≠ 45 ∧ c ≠ 43 := by
  have hrange : (48 ≤ c ∧ c ≤ 57) ∨ (65 ≤ c ∧ c ≤ 90) ∨ (97 ≤ c ∧ c ≤ 122) := by
    by_contra hno
    simp only [not_or] at hno
    obtain ⟨h1, h2, h3⟩ := hno
    exact h (by rw [digitVal, if_neg h1, if_neg h2, if_neg h3])
  simp only [UInt8.le_iff_toNat_le, UInt8.toNat_ofNat] at hrange
  simp only [isSpace, isSpaceCode, Bool.or_eq_false_iff, Bool.and_eq_false_iff,
    decide_eq_false_iff_not, ← UInt8.toNat_inj, UInt8.toNat_ofNat, ne_eq]
  omega

theorem digitVal_of_isDigitOf (h : isDigitOf b c = true) :
    digitVal c ≠ none := by
  intro hnone
  simp [isDigitOf, hnone] at h

theorem Stops.takeWhile (h : Stops rest) (b : ℕ) :
    rest.takeWhile (isDigitOf b) = [] ∧ rest.dropWhile (isDigitOf b) = rest := by
  cases rest with
  | nil => exact ⟨rfl, rfl⟩
  | cons c rest =>
    have hc : ¬ isDigitOf b c = true := fun hd => digitVal_of_isDigitOf hd (h c rfl)
    rw [takeWhile_cons, if_neg hc, dropWhile_cons, if_neg hc]
    exact ⟨rfl, rfl⟩

/-- Digits alone are not taken for a mark. -/
theorem hasHexMark_digits (hb : b ≤ 16) (hds : ds ≠ []) (hdigits : ∀ c ∈ ds, isDigitOf b c = true)
    (hstop : Stops rest) :
    hasHexMark (ds ++ rest) = false := by
  -- The second character, in the digits or behind them, is no `x`.
  have hsecond : ∀ x : UInt8, x = 120 ∨ x = 88 → (ds ++ rest)[1]? ≠ some x := by
    intro x hx hget
    have hval : digitVal x = some 33 := by rcases hx with rfl | rfl <;> decide
    cases ds with
    | nil => exact hds rfl
    | cons c ds =>
      rw [cons_append, List.getElem?_cons_succ] at hget
      cases ds with
      | nil =>
        rw [nil_append, ← List.head?_eq_getElem?] at hget
        rw [hstop x hget] at hval
        cases hval
      | cons d ds =>
        rw [cons_append, List.getElem?_cons_zero, some.injEq] at hget
        subst hget
        have hd := hdigits d (by simp)
        rw [isDigitOf, hval] at hd
        simp only [any_some, decide_eq_true_eq] at hd
        omega
  simp only [hasHexMark, Bool.and_eq_false_iff, Bool.or_eq_false_iff, decide_eq_false_iff_not]
  exact .inl (.inr ⟨hsecond 120 (.inl rfl), hsecond 88 (.inr rfl)⟩)

/-- A mark of the base is found in front of its digits. -/
theorem takeBase_mark {mark : List UInt8} (hmark : BaseMark base b mark ds) (hds : ds ≠ [])
    (hdigits : ∀ c ∈ ds, isDigitOf b c = true) (hstop : Stops rest) :
    takeBase base (mark ++ (ds ++ rest)) = (b, ds ++ rest) := by
  obtain ⟨d, ds', rfl⟩ := exists_cons_of_ne_nil hds
  cases hmark with
  | @hex x _ hbase hx =>
    have hhex : (base = 0 ∨ base = 16) ∧
        hasHexMark ([48, x] ++ ((d :: ds') ++ rest)) = true := by
      refine ⟨hbase, ?_⟩
      rcases hx with rfl | rfl <;> simp [hasHexMark, hdigits d (by simp)]
    rw [takeBase, if_pos hhex]
    rfl
  | octal hbase h0 =>
    rw [nil_append, takeBase, hasHexMark_digits (by decide) hds hdigits hstop,
      if_neg (by simp), if_pos hbase]
    have h0' : (d :: ds' ++ rest).head? = some 48 := h0
    rw [if_pos h0']
  | decimal hbase h0 =>
    rw [nil_append, takeBase, hasHexMark_digits (by decide) hds hdigits hstop,
      if_neg (by simp), if_pos hbase]
    have h0' : (d :: ds' ++ rest).head? ≠ some 48 := h0
    rw [if_neg h0']
  | given hbase =>
    have hno : ¬ ((base = 0 ∨ base = 16) ∧ hasHexMark (d :: ds' ++ rest) = true) := by
      rintro ⟨h0 | h16, hm⟩
      · exact hbase h0
      · rw [hasHexMark_digits h16.le hds hdigits hstop] at hm
        cases hm
    rw [nil_append, takeBase, if_neg hno, if_neg hbase]

theorem takeSign_mark {minus : Bool} {sign : List UInt8} (hsign : SignMark minus sign)
    (hc : digitVal c ≠ none) (s : List UInt8) :
    takeSign ((sign ++ c :: s).dropWhile isSpace) = (minus, c :: s) := by
  obtain ⟨hspace, hminus, hplus⟩ := plain_of_digitVal hc
  cases hsign with
  | none => simp [takeSign, hspace, hminus, hplus]
  | plus | minus => rfl

theorem BaseMark.exists_cons {mark : List UInt8} (hmark : BaseMark base b mark ds) (hds : ds ≠ [])
    (hdigits : ∀ c ∈ ds, isDigitOf b c = true) (rest : List UInt8) :
    ∃ c s, mark ++ (ds ++ rest) = c :: s ∧ digitVal c ≠ none := by
  obtain ⟨d, ds', rfl⟩ := exists_cons_of_ne_nil hds
  have hd := digitVal_of_isDigitOf (hdigits d (by simp))
  cases hmark with
  | hex hbase hx => exact ⟨48, _, rfl, by decide⟩
  | octal hbase h0 | decimal hbase h0 | given hbase => exact ⟨d, _, rfl, hd⟩

/-- **A numeral is read whole** in front of a text that cannot continue it. -/
theorem strtoul_append (ht : Numeral base t v) (hstop : Stops rest) :
    strtoul (t ++ rest) base = (v, rest) := by
  cases ht with
  | @mk space sign mark ds minus b hspace hsign hmark hds hdigits =>
    obtain ⟨c, s, hcons, hc⟩ := hmark.exists_cons hds hdigits rest
    have hsigned : takeSign ((space ++ (sign ++ (mark ++ ds)) ++ rest).dropWhile isSpace) =
        (minus, mark ++ (ds ++ rest)) := by
      simp only [append_assoc]
      rw [dropWhile_append_of_pos hspace, hcons]
      exact takeSign_mark hsign hc s
    have htake : (ds ++ rest).takeWhile (isDigitOf b) = ds := by
      rw [takeWhile_append_of_pos hdigits, (hstop.takeWhile b).1, append_nil]
    have hdrop : (ds ++ rest).dropWhile (isDigitOf b) = rest := by
      rw [dropWhile_append_of_pos hdigits, (hstop.takeWhile b).2]
    simp only [strtoul, hsigned, takeBase_mark hmark hds hdigits hstop, htake, hdrop]
    rw [if_neg hds]

end CloudProbe.Lib
