import Mathlib.Data.List.DropRight
import Mathlib.Data.Nat.Digits.Defs
import Mathlib.Tactic

/-!
# Bytes of text

Strings are lists of bytes.  The functions of the C library on characters are those of the C locale.

* `trim` : what is left between blanks, and that it is the only such part (`trim_eq`).
* `stoull` : the number at the beginning of a string.  `stoull_decimal` says what it does with a
  string that begins with a decimal digit.
-/

namespace EFS

namespace Bytes

/-- The bytes of a string. -/
def text (s : String) : List UInt8 := s.toUTF8.data.toList

/-! ### Characters -/

/-- `std::isspace` of the C locale: a blank or one of the five control characters from tab on. -/
def isspace (b : UInt8) : Bool := b = 32 ∨ 9 ≤ b ∧ b ≤ 13

/-- `std::isdigit`: a decimal digit. -/
def isdigit (b : UInt8) : Bool := 48 ≤ b ∧ b ≤ 57

/-- `std::tolower` of the C locale, which changes capital letters only. -/
def tolower (b : UInt8) : UInt8 := if 65 ≤ b ∧ b ≤ 90 then b + 32 else b

/-- The value of a digit in the bases up to 36. -/
def digit (b : UInt8) : Option ℕ :=
  if isdigit b then some (b.toNat - 48)
  else if 97 ≤ tolower b ∧ tolower b ≤ 122 then some ((tolower b).toNat - 87)
  else none

/-- A digit of the base. -/
def isDigitOf (base : ℕ) (b : UInt8) : Bool := (digit b).any (· < base)

theorem isDigitOf_ten (b : UInt8) : isDigitOf 10 b = isdigit b := by
  unfold isDigitOf digit
  split_ifs with hdigit hletter
  · have hb : b.toNat ≤ 57 := (of_decide_eq_true hdigit).2
    rw [hdigit, Option.any_some, decide_eq_true_eq]
    omega
  · have hb : 97 ≤ (tolower b).toNat := hletter.1
    rw [Bool.eq_false_of_not_eq_true hdigit, Option.any_some, decide_eq_false_iff_not]
    omega
  · exact (Bool.eq_false_of_not_eq_true hdigit).symm

theorem not_isspace_of_isdigit {b : UInt8} (h : isdigit b = true) : isspace b = false := by
  have hb : 48 ≤ b.toNat := (of_decide_eq_true h).1
  refine decide_eq_false ?_
  rintro (rfl | ⟨-, hle⟩)
  · exact absurd hb (by decide)
  · have hle' : b.toNat ≤ 13 := hle
    omega

/-! ### Trimming -/

section

variable {α : Type} (p : α → Bool)

/-- The list without the elements at both ends that satisfy `p`. -/
def trimBy (l : List α) : List α := (l.dropWhile p).rdropWhile p

variable {p}

theorem exists_trimBy (l : List α) :
    ∃ a b, l = a ++ trimBy p l ++ b ∧ (∀ x ∈ a, p x = true) ∧ ∀ x ∈ b, p x = true := by
  refine ⟨l.takeWhile p, (l.dropWhile p).rtakeWhile p, ?_, fun x hx => List.mem_takeWhile_imp hx,
    fun x hx => List.mem_rtakeWhile_imp hx⟩
  rw [trimBy, List.append_assoc, List.rdropWhile_append_rtakeWhile, List.takeWhile_append_dropWhile]

theorem head?_trimBy (l : List α) : ∀ x ∈ (trimBy p l).head?, p x = false := by
  intro x hx
  obtain ⟨rest, hrest⟩ : trimBy p l <+: l.dropWhile p := List.rdropWhile_prefix p _
  have hhead := List.head?_dropWhile_not p l
  rw [← hrest, List.head?_append, Option.mem_def.1 hx] at hhead
  exact hhead

/-- A part that begins and ends with other elements is what is left. -/
theorem trimBy_eq {a t b : List α} (ha : ∀ x ∈ a, p x = true) (hb : ∀ x ∈ b, p x = true)
    (ht : t ≠ []) (hfirst : p (t.head ht) = false) (hlast : p (t.getLast ht) = false) :
    trimBy p (a ++ t ++ b) = t := by
  have hdrop : (a ++ t ++ b).dropWhile p = t ++ b := by
    rw [List.append_assoc, List.dropWhile_append_of_pos ha]
    obtain ⟨x, rest, rfl⟩ := List.exists_cons_of_ne_nil ht
    exact List.dropWhile_cons_of_neg (Bool.not_eq_true _ ▸ hfirst)
  have hreverse : b.reverse.dropWhile p = [] :=
    List.dropWhile_eq_nil_iff.2 fun x hx => hb x (List.mem_reverse.1 hx)
  have hself : t.rdropWhile p = t :=
    List.rdropWhile_eq_self_iff.2 fun _ => by rw [hlast]; exact Bool.false_ne_true
  rw [trimBy, hdrop, List.rdropWhile, List.reverse_append, List.dropWhile_append, hreverse]
  exact hself

end

/-- The string without the white space around it. -/
def trim : List UInt8 → List UInt8 := trimBy isspace

/-! ### Numbers -/

/-- The number with these digits. -/
def value (base : ℕ) (digits : List UInt8) : ℕ :=
  Nat.ofDigits base (digits.map fun b => (digit b).getD 0).reverse

/-- The base of a number and its digits, without the prefix of base 16: base 0 stands for the one
that the prefix tells. -/
def baseOf (base : ℕ) (s : List UInt8) : ℕ × List UInt8 :=
  match base, s with
  | 0, 48 :: x :: d :: rest =>
    if tolower x = 120 ∧ isDigitOf 16 d then (16, d :: rest) else (8, 48 :: x :: d :: rest)
  | 0, 48 :: rest => (8, 48 :: rest)
  | 0, s => (10, s)
  | base, s => (base, s)

/-- `std::stoull` : the number, and how many characters have been read, white space and a sign
included.  It throws without a digit, or if the number does not fit. -/
def stoull (s : List UInt8) (base : ℕ) : Except String (UInt64 × ℕ) :=
  let number := s.dropWhile isspace
  let negative := number.head? = some 45
  let unsigned := if negative ∨ number.head? = some 43 then number.tail else number
  let (base, rest) := baseOf base unsigned
  let digits := rest.takeWhile (isDigitOf base)
  if digits = [] then .error "stoull"
  else if 2 ^ 64 ≤ value base digits then .error "stoull"
  else
    let magnitude := UInt64.ofNat (value base digits)
    .ok (if negative then -magnitude else magnitude, s.length - (rest.drop digits.length).length)

/-- A string that begins with a decimal digit begins with a number. -/
theorem stoull_decimal {d : UInt8} (hd : isdigit d = true) (rest : List UInt8) :
    let digits := (d :: rest).takeWhile isdigit
    stoull (d :: rest) 10 =
      if 2 ^ 64 ≤ value 10 digits then .error "stoull"
      else .ok (.ofNat (value 10 digits), digits.length) := by
  intro digits
  have hspace : (d :: rest).dropWhile isspace = d :: rest :=
    List.dropWhile_cons_of_neg (by rw [not_isspace_of_isdigit hd]; exact Bool.false_ne_true)
  have hsign (c : UInt8) (hc : isdigit c = false) : ¬ (d :: rest).head? = some c := by
    rintro h
    obtain rfl : d = c := Option.some.inj h
    exact absurd hd (by rw [hc]; exact Bool.false_ne_true)
  have hdigits : (d :: rest).takeWhile (isDigitOf 10) = digits := by
    rw [funext isDigitOf_ten]
  have hne : digits ≠ [] := by
    rw [show digits = _ from List.takeWhile_cons_of_pos hd]
    exact List.cons_ne_nil _ _
  have hlength : (d :: rest).length - ((d :: rest).drop digits.length).length = digits.length := by
    have hle : digits.length ≤ (d :: rest).length :=
      (List.takeWhile_prefix isdigit).length_le
    rw [List.length_drop]
    omega
  have hminus := hsign 45 (by decide)
  have hplus := hsign 43 (by decide)
  rw [stoull, hspace, if_neg (not_or.2 ⟨hminus, hplus⟩)]
  simp only [baseOf, hdigits, if_neg hne, if_neg hminus, hlength]

end Bytes

end EFS
