import EFS.Data.Bytes

/-!
# Numerals and words

Numbers are written in a base, with zeros in front if they are to have a width, and words are what
stands between white space.

* `value_padded` : the value of a numeral is the number.
* `stoull_hex`, `stoull_dec` : `std::stoull` reads a numeral as the number.
* `words_append_cons` : the words of a text are those before a blank and those after it.
-/

namespace EFS

namespace Bytes

/-! ### Numerals -/

/-- The digit `d` of a base up to 16. -/
def digitByte (d : ℕ) : UInt8 := .ofNat d.digitChar.toNat

/-- The digits of a number in a base, as the stream prints it. -/
def numeral (base n : ℕ) : List UInt8 := (Nat.toDigits base n).map fun c => .ofNat c.toNat

/-- A numeral with zeros in front. -/
def padded (base width n : ℕ) : List UInt8 :=
  List.replicate (width - (numeral base n).length) 48 ++ numeral base n

variable {base width n d : ℕ}

theorem digit_digitByte (h : d < 16) : digit (digitByte d) = some d := by
  have hall : ∀ d < 16, digit (digitByte d) = some d := by decide
  exact hall d h

theorem isDigitOf_digitByte (hbase : base ≤ 16) (h : d < base) :
    isDigitOf base (digitByte d) = true := by
  rw [isDigitOf, digit_digitByte (h.trans_le hbase), Option.any_some, decide_eq_true_eq]
  exact h

theorem numeral_of_lt (h : n < base) : numeral base n = [digitByte n] := by
  rw [numeral, Nat.toDigits_of_lt_base h]
  rfl

theorem numeral_of_le (hbase : 1 < base) (h : base ≤ n) :
    numeral base n = numeral base (n / base) ++ [digitByte (n % base)] := by
  rw [numeral, Nat.toDigits_of_base_le hbase h, List.map_append]
  rfl

theorem numeral_ne_nil : numeral base n ≠ [] :=
  mt List.map_eq_nil_iff.1 Nat.toDigits_ne_nil

theorem padded_ne_nil : padded base width n ≠ [] :=
  List.append_ne_nil_of_right_ne_nil _ numeral_ne_nil

theorem value_snoc (digits : List UInt8) (b : UInt8) :
    value base (digits ++ [b]) = (digit b).getD 0 + base * value base digits := by
  rw [value, List.map_append, List.reverse_append]
  exact Nat.ofDigits_cons

theorem value_zeros (k : ℕ) (digits : List UInt8) :
    value base (List.replicate k 48 ++ digits) = value base digits := by
  have hzero : (digit 48).getD 0 = 0 := by decide
  rw [value, List.map_append, List.map_replicate, hzero, List.reverse_append,
    List.reverse_replicate, Nat.ofDigits_append_replicate_zero]
  rfl

/-- **A numeral has the value of the number.** -/
theorem value_numeral (hbase : 1 < base) (h : base ≤ 16) (n : ℕ) :
    value base (numeral base n) = n := by
  induction n using Nat.strongRecOn with
  | ind n ih =>
    by_cases hn : n < base
    · rw [numeral_of_lt hn, ← List.nil_append [digitByte n], value_snoc,
        digit_digitByte (hn.trans_le h)]
      simp [value]
    · have hmod : n % base < base := Nat.mod_lt _ (by omega)
      have hdiv : n / base < n := Nat.div_lt_self (by omega) hbase
      rw [numeral_of_le hbase (not_lt.1 hn), value_snoc, ih _ hdiv,
        digit_digitByte (hmod.trans_le h)]
      exact Nat.mod_add_div n base

theorem value_padded (hbase : 1 < base) (h : base ≤ 16) (width n : ℕ) :
    value base (padded base width n) = n := by
  rw [padded, value_zeros, value_numeral hbase h]

theorem isDigitOf_numeral (hbase : 1 < base) (h : base ≤ 16) (n : ℕ) :
    ∀ b ∈ numeral base n, isDigitOf base b = true := by
  induction n using Nat.strongRecOn with
  | ind n ih =>
    by_cases hn : n < base
    · rw [numeral_of_lt hn]
      intro b hb
      obtain rfl := List.mem_singleton.1 hb
      exact isDigitOf_digitByte h hn
    · rw [numeral_of_le hbase (not_lt.1 hn)]
      intro b hb
      rcases List.mem_append.1 hb with hb | hb
      · exact ih _ (Nat.div_lt_self (by omega) hbase) b hb
      · obtain rfl := List.mem_singleton.1 hb
        exact isDigitOf_digitByte h (Nat.mod_lt _ (by omega))

theorem isDigitOf_padded (hbase : 1 < base) (h : base ≤ 16) (width n : ℕ) :
    ∀ b ∈ padded base width n, isDigitOf base b = true := by
  intro b hb
  rcases List.mem_append.1 hb with hb | hb
  · obtain rfl := List.eq_of_mem_replicate hb
    exact isDigitOf_digitByte h (d := 0) (by omega)
  · exact isDigitOf_numeral hbase h n b hb

/-- No digit is white space. -/
theorem not_isspace_of_isDigitOf {b : UInt8} (h : isDigitOf base b = true) : isspace b = false := by
  have hall : ∀ b : UInt8, isspace b = true → digit b = none := by
    intro b hb
    have hle : b.toNat ≤ 32 := by
      rcases of_decide_eq_true hb with rfl | ⟨-, hle⟩
      · decide
      · exact (show b.toNat ≤ 13 from hle).trans (by decide)
    have hall : ∀ k ≤ 32, digit (.ofNat k) = none := by decide
    simpa using hall _ hle
  by_contra hspace
  rw [isDigitOf, hall b (by simpa using hspace)] at h
  cases h

/-! ### `std::stoull` -/

theorem stoull_blank {b : UInt8} (hb : isspace b = true) (s : List UInt8) (base : ℕ) :
    (stoull (b :: s) base).map Prod.fst = (stoull s base).map Prod.fst := by
  have hspace : (b :: s).dropWhile isspace = s.dropWhile isspace := List.dropWhile_cons_of_pos hb
  unfold stoull
  rw [hspace]
  dsimp only
  split_ifs <;> rfl

/-- A hexadecimal numeral with its prefix, and whatever follows that is no digit. -/
theorem stoull_hex (width : ℕ) (hn : n < 2 ^ 64) {rest : List UInt8}
    (hrest : ∀ b ∈ rest.head?, isDigitOf 16 b = false) :
    (stoull (48 :: 120 :: (padded 16 width n ++ rest)) 0).map Prod.fst = .ok (.ofNat n) := by
  obtain ⟨d, ds, hds⟩ := List.exists_cons_of_ne_nil (padded_ne_nil : padded 16 width n ≠ [])
  have hdigits := isDigitOf_padded (by decide : 1 < 16) le_rfl width n
  have hvalue := value_padded (by decide : 1 < 16) le_rfl width n
  rw [hds] at hdigits hvalue ⊢
  have hd : isDigitOf 16 d = true := hdigits d List.mem_cons_self
  have hbase : baseOf 0 (48 :: 120 :: (d :: ds ++ rest)) = (16, d :: ds ++ rest) :=
    if_pos ⟨by decide, hd⟩
  have htake : (d :: ds ++ rest).takeWhile (isDigitOf 16) = d :: ds := by
    rw [List.takeWhile_append_of_pos hdigits]
    cases rest with
    | nil => simp
    | cons b rest => simp [hrest b rfl]
  have hspace : (48 :: 120 :: (d :: ds ++ rest)).dropWhile isspace =
      48 :: 120 :: (d :: ds ++ rest) := rfl
  unfold stoull
  rw [hspace]
  simp only [List.head?_cons, Option.some.injEq]
  rw [if_neg (by decide : ¬ ((48 : UInt8) = 45 ∨ (48 : UInt8) = 43)), hbase]
  simp only [htake, hvalue]
  rw [if_neg (List.cons_ne_nil _ _), if_neg (not_le.2 hn)]
  rfl

theorem stoull_hex_nil (width : ℕ) (hn : n < 2 ^ 64) :
    (stoull (48 :: 120 :: padded 16 width n) 0).map Prod.fst = .ok (.ofNat n) := by
  have hread : (stoull (48 :: 120 :: (padded 16 width n ++ [])) 0).map Prod.fst = .ok (.ofNat n) :=
    stoull_hex width hn nofun
  rwa [List.append_nil] at hread

theorem stoull_dec (hn : n < 2 ^ 64) :
    (stoull (numeral 10 n) 10).map Prod.fst = .ok (.ofNat n) := by
  obtain ⟨d, ds, hds⟩ := List.exists_cons_of_ne_nil (numeral_ne_nil : numeral 10 n ≠ [])
  have hdigits : ∀ b ∈ numeral 10 n, isdigit b = true := fun b hb =>
    isDigitOf_ten b ▸ isDigitOf_numeral (by decide) (by decide) n b hb
  have hvalue := value_numeral (by decide : 1 < 10) (by decide) n
  rw [hds] at hdigits hvalue ⊢
  rw [stoull_decimal (hdigits d List.mem_cons_self), List.takeWhile_eq_self_iff.2 hdigits, hvalue,
    if_neg (not_le.2 hn)]
  rfl

/-! ### Words -/

theorem forall_mem_of_all {p : UInt8 → Prop} [DecidablePred p] {w : List UInt8}
    (h : w.all (fun b => decide (p b)) = true) : ∀ b ∈ w, p b := fun b hb =>
  of_decide_eq_true (List.all_eq_true.1 h b hb)

/-- What stands between white space. -/
def words (s : List UInt8) : List (List UInt8) := (s.splitOnP isspace).filter (· ≠ [])

theorem words_append_cons (s : List UInt8) {b : UInt8} (hb : isspace b = true) (t : List UInt8) :
    words (s ++ b :: t) = words s ++ words t := by
  rw [words, List.splitOnP_append_cons _ _ hb, List.filter_append]
  rfl

theorem words_cons {b : UInt8} (hb : isspace b = true) (t : List UInt8) :
    words (b :: t) = words t := words_append_cons [] hb t

theorem words_word {w : List UInt8} (hne : w ≠ []) (hw : ∀ b ∈ w, isspace b = false) :
    words w = [w] := by
  rw [words, List.splitOnP_eq_singleton hw]
  simp [hne]

theorem words_word_append {w : List UInt8} (hne : w ≠ []) (hw : ∀ b ∈ w, isspace b = false)
    {b : UInt8} (hb : isspace b = true) (t : List UInt8) :
    words (w ++ b :: t) = w :: words t := by
  rw [words_append_cons _ hb, words_word hne hw]
  rfl

end Bytes

end EFS
