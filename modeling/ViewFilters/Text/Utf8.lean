/-!
# ViewFilters.Text.Utf8

UTF-8 between characters and bytes.  The reader goes through the bytes once and
keeps, inside a sequence, the bits read so far, the number of bytes still owed
and the bounds of the next one:

* a byte out of bounds ends the sequence before it, and is then looked at anew;
* the bounds after `E0`, `ED`, `F0` and `F4` shut out overlong forms,
  surrogates and code points above `10FFFF`.

`scan` therefore gives one entry per character and one empty entry per maximal
ill-formed stretch.  `decode?` wants no empty entry; `decodeLossy` writes the
replacement character for each.  `scan_encodeChar_append` is the read-back law.
-/

namespace ViewFilters.Utf8

/-- The UTF-8 bytes of a character. -/
def encodeChar (c : Char) : List UInt8 :=
  let n := c.toNat
  if n < 0x80 then [UInt8.ofNat n]
  else if n < 0x800 then [UInt8.ofNat (0xC0 + n / 64), UInt8.ofNat (0x80 + n % 64)]
  else if n < 0x10000 then
    [UInt8.ofNat (0xE0 + n / 4096), UInt8.ofNat (0x80 + n / 64 % 64), UInt8.ofNat (0x80 + n % 64)]
  else
    [UInt8.ofNat (0xF0 + n / 262144), UInt8.ofNat (0x80 + n / 4096 % 64),
      UInt8.ofNat (0x80 + n / 64 % 64), UInt8.ofNat (0x80 + n % 64)]

/-- The UTF-8 bytes of a text. -/
def encode (cs : List Char) : List UInt8 := cs.flatMap encodeChar

/-- A sequence that has begun: its bits so far, the bytes owed, and the bounds
of the next one. -/
structure Pending where
  code : Nat
  owed : Nat
  low : Nat
  high : Nat

/-- What one byte leads to. -/
inductive Reading where
  | char (c : Char)
  | more (p : Pending)
  | stray

/-- A byte at the start of a sequence. -/
def lead (b : UInt8) : Reading :=
  let n := b.toNat
  if n < 0x80 then .char (Char.ofNat n)
  else if n < 0xC2 then .stray
  else if n < 0xE0 then .more ⟨n - 0xC0, 1, 0x80, 0xBF⟩
  else if n < 0xF0 then
    .more ⟨n - 0xE0, 2, if n = 0xE0 then 0xA0 else 0x80, if n = 0xED then 0x9F else 0xBF⟩
  else if n < 0xF5 then
    .more ⟨n - 0xF0, 3, if n = 0xF0 then 0x90 else 0x80, if n = 0xF4 then 0x8F else 0xBF⟩
  else .stray

/-- A byte inside a sequence: six more bits, if it is within the bounds. -/
def Pending.extend (p : Pending) (b : UInt8) : Reading :=
  if p.low ≤ b.toNat ∧ b.toNat ≤ p.high then
    let code := p.code * 64 + (b.toNat - 0x80)
    if p.owed ≤ 1 then .char (Char.ofNat code) else .more ⟨code, p.owed - 1, 0x80, 0xBF⟩
  else .stray

/-- The characters of a byte sequence, with `none` for each ill-formed stretch. -/
def scan : Option Pending → List UInt8 → List (Option Char)
  | none, [] => []
  | some _, [] => [none]
  | none, b :: bs =>
    match lead b with
    | .char c => some c :: scan none bs
    | .more q => scan (some q) bs
    | .stray => none :: scan none bs
  | some p, b :: bs =>
    match p.extend b with
    | .char c => some c :: scan none bs
    | .more q => scan (some q) bs
    | .stray =>
      none :: match lead b with
        | .char c => some c :: scan none bs
        | .more q => scan (some q) bs
        | .stray => none :: scan none bs

/-- The text of well-formed UTF-8, and nothing for any other bytes. -/
def decode? (bs : List UInt8) : Option (List Char) := (scan none bs).mapM id

/-- The text of any bytes, with U+FFFD in place of each ill-formed stretch. -/
def decodeLossy (bs : List UInt8) : List Char := (scan none bs).map (·.getD '\uFFFD')

/-! ## reading what was written -/

/-- A character is no surrogate and at most `10FFFF`. -/
theorem toNat_valid (c : Char) : c.toNat < 0xD800 ∨ (0xDFFF < c.toNat ∧ c.toNat < 0x110000) := by
  have := c.valid
  simpa [UInt32.isValidChar, Nat.isValidChar] using this

/-- A number below 256 is kept by a byte. -/
theorem toNat_byte {n : Nat} (h : n < 256) : (UInt8.ofNat n).toNat = n := by
  simp [UInt8.toNat_ofNat', Nat.mod_eq_of_lt h]

/-- A continuation byte within the bounds, not the last one. -/
theorem extend_more {p : Pending} {m : Nat} (ho : 1 < p.owed) (hm : m < 64)
    (hl : p.low ≤ 0x80 + m) (hh : 0x80 + m ≤ p.high) :
    p.extend (UInt8.ofNat (0x80 + m)) = .more ⟨p.code * 64 + m, p.owed - 1, 0x80, 0xBF⟩ := by
  simp only [Pending.extend, toNat_byte (by omega : 0x80 + m < 256)]
  rw [if_pos ⟨hl, hh⟩, if_neg (by omega), Nat.add_sub_cancel_left]

/-- The last continuation byte, within the bounds. -/
theorem extend_char {p : Pending} {m : Nat} (ho : p.owed = 1) (hm : m < 64)
    (hl : p.low ≤ 0x80 + m) (hh : 0x80 + m ≤ p.high) :
    p.extend (UInt8.ofNat (0x80 + m)) = .char (Char.ofNat (p.code * 64 + m)) := by
  simp only [Pending.extend, toNat_byte (by omega : 0x80 + m < 256)]
  rw [if_pos ⟨hl, hh⟩, if_pos (by omega), Nat.add_sub_cancel_left]

/-- A character is read back from its bytes, whatever follows. -/
theorem scan_encodeChar_append (c : Char) (bs : List UInt8) :
    scan none (encodeChar c ++ bs) = some c :: scan none bs := by
  have hv := toNat_valid c
  have hc : Char.ofNat c.toNat = c := Char.ofNat_toNat c
  unfold encodeChar
  generalize c.toNat = n at hv hc
  dsimp only
  split
  · next h => simp [scan, lead, toNat_byte (by omega : n < 256), h, hc]
  split
  · next h1 h2 =>
    have hlead : lead (UInt8.ofNat (0xC0 + n / 64)) = .more ⟨n / 64, 1, 0x80, 0xBF⟩ := by
      simp only [lead, toNat_byte (by omega : 0xC0 + n / 64 < 256)]
      rw [if_neg (by omega), if_neg (by omega), if_pos (by omega), Nat.add_sub_cancel_left]
    simp only [List.cons_append, List.nil_append, scan, hlead]
    rw [extend_char rfl (by omega) (by dsimp only; omega) (by dsimp only; omega)]
    dsimp only
    rw [show n / 64 * 64 + n % 64 = n by omega, hc]
  split
  · next h1 h2 h3 =>
    have hlead : lead (UInt8.ofNat (0xE0 + n / 4096)) = .more ⟨n / 4096, 2,
        if 0xE0 + n / 4096 = 0xE0 then 0xA0 else 0x80,
        if 0xE0 + n / 4096 = 0xED then 0x9F else 0xBF⟩ := by
      simp only [lead, toNat_byte (by omega : 0xE0 + n / 4096 < 256)]
      rw [if_neg (by omega), if_neg (by omega), if_neg (by omega), if_pos (by omega),
        Nat.add_sub_cancel_left]
    simp only [List.cons_append, List.nil_append, scan, hlead]
    rw [extend_more (by dsimp only; omega) (by omega) (by dsimp only; split <;> omega)
      (by dsimp only; split <;> omega)]
    dsimp only
    rw [extend_char rfl (by omega) (by dsimp only; omega) (by dsimp only; omega)]
    dsimp only
    rw [show (n / 4096 * 64 + n / 64 % 64) * 64 + n % 64 = n by omega, hc]
  · next h1 h2 h3 =>
    have hlead : lead (UInt8.ofNat (0xF0 + n / 262144)) = .more ⟨n / 262144, 3,
        if 0xF0 + n / 262144 = 0xF0 then 0x90 else 0x80,
        if 0xF0 + n / 262144 = 0xF4 then 0x8F else 0xBF⟩ := by
      simp only [lead, toNat_byte (by omega : 0xF0 + n / 262144 < 256)]
      rw [if_neg (by omega), if_neg (by omega), if_neg (by omega), if_neg (by omega),
        if_pos (by omega), Nat.add_sub_cancel_left]
    simp only [List.cons_append, List.nil_append, scan, hlead]
    rw [extend_more (by dsimp only; omega) (by omega) (by dsimp only; split <;> omega)
      (by dsimp only; split <;> omega)]
    dsimp only
    rw [extend_more (by dsimp only; omega) (by omega) (by dsimp only; omega)
      (by dsimp only; omega)]
    dsimp only
    rw [extend_char rfl (by omega) (by dsimp only; omega) (by dsimp only; omega)]
    dsimp only
    rw [show ((n / 262144 * 64 + n / 4096 % 64) * 64 + n / 64 % 64) * 64 + n % 64 = n by omega, hc]

/-- Every character of a text is read back, and nothing else is. -/
theorem scan_encode (cs : List Char) : scan none (encode cs) = cs.map some := by
  induction cs with
  | nil => rfl
  | cons c cs ih => simp [encode, scan_encodeChar_append] at ih ⊢; exact ih

/-- The lenient reader gives the text back too. -/
theorem decodeLossy_encode (cs : List Char) : decodeLossy (encode cs) = cs := by
  simp [decodeLossy, scan_encode, Function.comp_def]

/-- The strict reader accepts what the writer writes. -/
theorem decode?_encode (cs : List Char) : decode? (encode cs) = some cs := by
  rw [decode?, scan_encode]
  induction cs with
  | nil => rfl
  | cons c cs ih => simp [ih]

end ViewFilters.Utf8
