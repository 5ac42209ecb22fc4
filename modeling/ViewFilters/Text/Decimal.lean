/-!
# ViewFilters.Text.Decimal

Natural numbers in decimal.  `digits` writes no leading zero; `natural?` reads
any non-empty run of the ten digits, leading zeros included.  Numbers of 32 and
64 bits are read through `natural?` and refused when they do not fit.
-/

namespace ViewFilters.Decimal

/-- The digit for a number below ten. -/
def digit (n : Nat) : Char := Char.ofNat (48 + n)

/-- The decimal digits of a number, the highest first. -/
def digits (n : Nat) : List Char :=
  if n < 10 then [digit n] else digits (n / 10) ++ [digit (n % 10)]
termination_by n
decreasing_by omega

/-- One of the characters `0` to `9`. -/
def isDigit (c : Char) : Bool := 48 ≤ c.toNat && c.toNat ≤ 57

/-- The number that a run of digits stands for. -/
def value (cs : List Char) : Nat := cs.foldl (fun n c => 10 * n + (c.toNat - 48)) 0

/-- A number written in digits only. -/
def natural? (cs : List Char) : Option Nat :=
  if !cs.isEmpty && cs.all isDigit then some (value cs) else none

/-- A 32-bit number written in digits only. -/
def uint32? (cs : List Char) : Option UInt32 :=
  (natural? cs).bind fun n => if n < UInt32.size then some (UInt32.ofNat n) else none

/-- A 64-bit number written in digits only. -/
def uint64? (cs : List Char) : Option UInt64 :=
  (natural? cs).bind fun n => if n < UInt64.size then some (UInt64.ofNat n) else none

/-- The decimal text of a number. -/
def text (n : Nat) : String := String.ofList (digits n)

/-! ## digits -/

theorem digit_lt {n : Nat} (h : n < 10) : (digit n).toNat = 48 + n := by
  have : ∀ m < 10, (digit m).toNat = 48 + m := by decide
  exact this n h

theorem isDigit_digit {n : Nat} (h : n < 10) : isDigit (digit n) = true := by
  simp only [isDigit, digit_lt h, Bool.and_eq_true, decide_eq_true_eq]
  omega

theorem digits_ne_nil (n : Nat) : digits n ≠ [] := by
  rw [digits]
  split <;> simp

theorem all_isDigit_digits (n : Nat) : (digits n).all isDigit = true := by
  induction n using Nat.strongRecOn with
  | ind n ih =>
    rw [digits]
    split
    · next h => simp [isDigit_digit h]
    · next h =>
      simp only [List.all_append, ih (n / 10) (by omega), List.all_cons,
        isDigit_digit (Nat.mod_lt n (by omega : 0 < 10)), List.all_nil, Bool.and_true]

theorem value_append_digit (cs : List Char) {n : Nat} (h : n < 10) :
    value (cs ++ [digit n]) = 10 * value cs + n := by
  simp only [value, List.foldl_append, List.foldl_cons, List.foldl_nil, digit_lt h]
  omega

theorem value_digits (n : Nat) : value (digits n) = n := by
  induction n using Nat.strongRecOn with
  | ind n ih =>
    rw [digits]
    split
    · next h =>
      have := value_append_digit [] h
      simpa [value] using this
    · next h =>
      rw [value_append_digit _ (Nat.mod_lt n (by omega)), ih (n / 10) (by omega)]
      omega

/-- A number is read back from its digits. -/
theorem natural?_digits (n : Nat) : natural? (digits n) = some n := by
  simp [natural?, digits_ne_nil, all_isDigit_digits, value_digits]

end ViewFilters.Decimal
