import Mathlib.Algebra.Ring.Nat
import Mathlib.Data.List.Basic
import Mathlib.Data.List.TakeWhile
import Mathlib.Data.Nat.Notation

set_option autoImplicit false

/-!
# Formatted input

The conversions of `sscanf` for unsigned decimal numbers, literal characters and white
space, and the numbers `snprintf` prints for it.
-/
namespace WanStack.Scanf

abbrev Text : Type := List Char

inductive Directive where
  | space
  | lit (c : Char)
  | num (bits : ℕ)
deriving DecidableEq, Repr

def isSpace (c : Char) : Bool := c = ' ' || (9 ≤ c.toNat && c.toNat ≤ 13)

def plain (c : Char) : Directive := if isSpace c then .space else .lit c

/-- The directives of a format; `%hhu` and `%hu` are the conversions it may have. -/
def directives : Text → List Directive
  | [] => []
  | '%' :: 'h' :: 'h' :: 'u' :: fmt => .num 8 :: directives fmt
  | '%' :: 'h' :: 'u' :: fmt => .num 16 :: directives fmt
  | c :: fmt => plain c :: directives fmt

def ULONG_MAX : ℕ := 0xffffffffffffffff

/-- What `strtoul` returns for digits with a sign. -/
def strtoul (neg : Bool) (ds : Text) : ℕ :=
  let n := Nat.ofDigitChars 10 ds 0
  if n > ULONG_MAX then ULONG_MAX else if neg then (ULONG_MAX + 1 - n) % (ULONG_MAX + 1) else n

def sign : Text → Bool × Text
  | '-' :: t => (true, t)
  | '+' :: t => (false, t)
  | t => (false, t)

/-- A number of so many bits, and the input behind it. -/
def number (bits : ℕ) (t : Text) : Option (ℕ × Text) :=
  let (neg, t) := sign (t.dropWhile isSpace)
  let ds := t.takeWhile Char.isDigit
  if ds.isEmpty then none
  else some (strtoul neg ds % 2 ^ bits, t.dropWhile Char.isDigit)

/-- The numbers that are assigned before the input and the format part. -/
def scanf : List Directive → Text → List ℕ
  | [], _ => []
  | .space :: ds, t => scanf ds (t.dropWhile isSpace)
  | .lit _ :: _, [] => []
  | .lit c :: ds, x :: t => if x = c then scanf ds t else []
  | .num bits :: ds, t =>
    match number bits t with
    | none => []
    | some (v, t) => v :: scanf ds t

/-- `%u`. -/
def decimal (n : ℕ) : Text := Nat.toDigits 10 n

/-- `snprintf` into `size` characters. -/
def snprintf (size : ℕ) (t : Text) : Text := t.take (size - 1)

variable {t u : Text} {ds : List Directive} {n bits : ℕ}

theorem decimal_isDigit {c : Char} (h : c ∈ decimal n) : c.isDigit = true :=
  Nat.isDigit_of_mem_toDigits (by decide) (by decide) h

theorem decimal_ne_nil (n : ℕ) : decimal n ≠ [] := Nat.toDigits_ne_nil

theorem isSpace_of_isDigit {c : Char} (h : c.isDigit = true) : isSpace c = false := by
  have hrange : '0'.toNat ≤ c.toNat ∧ c.toNat ≤ '9'.toNat := by
    simpa [Char.isDigit, Char.le_def, UInt32.le_iff_toNat_le] using h
  have hzero : '0'.toNat = 48 := rfl
  have hne : c ≠ ' ' := by
    rintro rfl
    exact absurd h (by decide)
  simp only [isSpace, hne, decide_false, Bool.false_or, Bool.and_eq_false_iff, decide_eq_false_iff_not]
  right
  omega

theorem not_isDigit_head {c : Char} (hc : c.isDigit = false) :
    (decimal n ++ c :: t).takeWhile Char.isDigit = decimal n ∧
      (decimal n ++ c :: t).dropWhile Char.isDigit = c :: t := by
  constructor
  · rw [List.takeWhile_append_of_pos (fun x hx => decimal_isDigit hx),
      List.takeWhile_cons_of_neg (by simp [hc]), List.append_nil]
  · rw [List.dropWhile_append_of_pos (fun x hx => decimal_isDigit hx),
      List.dropWhile_cons_of_neg (by simp [hc])]

/-- A printed number is read back, up to its number of bits. -/
theorem number_decimal {c : Char} (hc : c.isDigit = false) (hn : n ≤ ULONG_MAX) :
    number bits (decimal n ++ c :: t) = some (n % 2 ^ bits, c :: t) := by
  obtain ⟨htake, hdrop⟩ := not_isDigit_head (n := n) (t := t) hc
  obtain ⟨x, xs, hx⟩ := List.exists_cons_of_ne_nil (decimal_ne_nil n)
  have hdigit : x.isDigit = true := decimal_isDigit (by rw [hx]; exact List.mem_cons_self)
  have hspace : (decimal n ++ c :: t).dropWhile isSpace = decimal n ++ c :: t := by
    rw [hx, List.cons_append, List.dropWhile_cons_of_neg (by simp [isSpace_of_isDigit hdigit])]
  have hminus : x ≠ '-' := by
    rintro rfl
    exact absurd hdigit (by decide)
  have hplus : x ≠ '+' := by
    rintro rfl
    exact absurd hdigit (by decide)
  have hsign : sign (decimal n ++ c :: t) = (false, decimal n ++ c :: t) := by
    rw [hx, List.cons_append]
    unfold sign
    split
    · next heq => exact absurd (List.cons.inj heq).1 hminus
    · next heq => exact absurd (List.cons.inj heq).1 hplus
    · rfl
  have hne : (decimal n).isEmpty = false := by
    rw [hx]
    rfl
  have hvalue : strtoul false (decimal n) = n := by
    unfold strtoul decimal
    rw [Nat.ofDigitChars_ten_toDigits]
    simp only [if_neg (Nat.not_lt.mpr hn), Bool.false_eq_true, if_false]
  simp only [number, hspace, hsign, htake, hdrop, hne, hvalue, Bool.false_eq_true, if_false]

theorem directives_append (h : ∀ c ∈ u, c ≠ '%') :
    directives (u ++ t) = u.map plain ++ directives t := by
  induction u with
  | nil => rfl
  | cons c u ih =>
    have hc : c ≠ '%' := h c List.mem_cons_self
    have hrest := ih fun x hx => h x (List.mem_cons_of_mem c hx)
    rw [List.cons_append, List.map_cons, List.cons_append, ← hrest]
    exact directives.eq_4 c (u ++ t) (fun _ heq _ => hc heq) (fun _ heq _ => hc heq)

/-- Characters that are no white space stand for themselves. -/
theorem scanf_plain (h : ∀ c ∈ u, isSpace c = false) :
    scanf (u.map plain ++ ds) (u ++ t) = scanf ds t := by
  induction u with
  | nil => rfl
  | cons c u ih =>
    have hc := h c List.mem_cons_self
    rw [List.map_cons, List.cons_append, List.cons_append, plain, hc, if_neg Bool.false_ne_true, scanf,
      if_pos rfl]
    exact ih fun x hx => h x (List.mem_cons_of_mem c hx)

theorem scanf_space {c : Char} (hc : isSpace c = false) :
    scanf (.space :: ds) (' ' :: c :: t) = scanf ds (c :: t) := by
  rw [scanf, List.dropWhile_cons_of_pos (by decide), List.dropWhile_cons_of_neg (by simp [hc])]

theorem scanf_number {c : Char} (hc : c.isDigit = false) (hn : n ≤ ULONG_MAX) :
    scanf (.num bits :: ds) (decimal n ++ c :: t) = n % 2 ^ bits :: scanf ds (c :: t) := by
  rw [scanf, number_decimal hc hn]

end WanStack.Scanf
