/-!
# ViewFilters.Text.Hexadecimal

Hexadecimal digits, written in upper or lower case and read in either.
-/

namespace ViewFilters.Hexadecimal

/-- The upper-case digit for a number below sixteen. -/
def upper (n : Nat) : Char := if n < 10 then Char.ofNat (48 + n) else Char.ofNat (55 + n)

/-- The lower-case digit for a number below sixteen. -/
def lower (n : Nat) : Char := if n < 10 then Char.ofNat (48 + n) else Char.ofNat (87 + n)

/-- The value of a digit, of either case. -/
def value? (c : Char) : Option Nat :=
  if '0' ≤ c ∧ c ≤ '9' then some (c.toNat - 48)
  else if 'A' ≤ c ∧ c ≤ 'F' then some (c.toNat - 55)
  else if 'a' ≤ c ∧ c ≤ 'f' then some (c.toNat - 87)
  else none

theorem value?_upper {n : Nat} (h : n < 16) : value? (upper n) = some n := by
  have : ∀ m < 16, value? (upper m) = some m := by decide
  exact this n h

theorem value?_lower {n : Nat} (h : n < 16) : value? (lower n) = some n := by
  have : ∀ m < 16, value? (lower m) = some m := by decide
  exact this n h

/-- A digit stands for a number below sixteen. -/
theorem value?_lt {c : Char} {n : Nat} (h : value? c = some n) : n < 16 := by
  have hle : ∀ {a b : Char}, a ≤ b ↔ a.toNat ≤ b.toNat := Iff.rfl
  simp only [value?, hle] at h
  split at h
  · next hdigit =>
    have := Option.some.inj h
    have : '9'.toNat = 57 := rfl
    omega
  split at h
  · next hupper =>
    have := Option.some.inj h
    have : 'F'.toNat = 70 := rfl
    omega
  split at h
  · next hlower =>
    have := Option.some.inj h
    have : 'f'.toNat = 102 := rfl
    omega
  · cases h

end ViewFilters.Hexadecimal
