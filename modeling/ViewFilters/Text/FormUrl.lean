import ViewFilters.Text.Hexadecimal
import ViewFilters.Text.Pieces
import ViewFilters.Text.Utf8

/-!
# ViewFilters.Text.FormUrl

Query strings of the `application/x-www-form-urlencoded` form:

```
result=%5Bin%5Dfailed%3Berror&page=2
```

1. A pair is `key=value`; pairs stand between `&`.
2. Key and value are UTF-8.  Letters, digits and `*-._` stand for themselves, a
   space is `+`, and any other byte is `%` and two upper-case digits.
3. Reading is lenient: an empty stretch between `&` is no pair, a pair without
   `=` has an empty value, a `%` without two hexadecimal digits stands for
   itself, and ill-formed UTF-8 is read with replacement characters.

Any pairs at all come back from the query that is written for them (`read_write`).
-/

namespace ViewFilters.FormUrl

/-! ## writing -/

/-- Letters, digits and `*-._` stand for themselves. -/
def isPlain (c : Char) : Bool :=
  c.isAlphanum || c = '*' || c = '-' || c = '.' || c = '_'

/-- One byte as it stands in a query. -/
def escapeByte (b : UInt8) : List Char :=
  if b = 0x20 then ['+']
  else if isPlain (Char.ofNat b.toNat) then [Char.ofNat b.toNat]
  else ['%', Hexadecimal.upper (b.toNat / 16), Hexadecimal.upper (b.toNat % 16)]

/-- A key or a value as it stands in a query. -/
def escape (s : String) : List Char := (Utf8.encode s.toList).flatMap escapeByte

/-- A pair as it stands in a query. -/
def writePair (pair : String × String) : List Char := escape pair.1 ++ '=' :: escape pair.2

/-- The query that holds the pairs in order. -/
def write (pairs : List (String × String)) : String :=
  String.ofList (joined '&' (pairs.map writePair))

/-! ## reading -/

/-- The bytes that an escaped text stands for. -/
def unescape : List Char → List UInt8
  | [] => []
  | '%' :: h :: l :: cs =>
    match Hexadecimal.value? h, Hexadecimal.value? l with
    | some a, some b => UInt8.ofNat (16 * a + b) :: unescape cs
    | _, _ => 0x25 :: unescape (h :: l :: cs)
  | c :: cs => if c = '+' then 0x20 :: unescape cs else Utf8.encodeChar c ++ unescape cs

/-- A key or a value read from its escaped text. -/
def readText (cs : List Char) : String := String.ofList (Utf8.decodeLossy (unescape cs))

/-- A pair read from its stretch of a query. -/
def readPair (cs : List Char) : String × String :=
  (readText (cutAt '=' cs).1, readText (cutAt '=' cs).2)

/-- The pairs of a query, in order. -/
def read (query : String) : List (String × String) :=
  ((pieces '&' query.toList).filter (· ≠ [])).map readPair

/-! ## reading what was written -/

/-- A byte is the one with its number. -/
theorem byte_eq_ofNat (b : UInt8) : b = UInt8.ofNat b.toNat := by simp

/-- A byte that stands for itself is ASCII and neither sign of an escape. -/
theorem isPlain_facts : ∀ n < 256, isPlain (Char.ofNat n) = true →
    n < 0x80 ∧ Char.ofNat n ≠ '%' ∧ Char.ofNat n ≠ '+' ∧ (Char.ofNat n).toNat = n := by
  decide +kernel

/-- A percent sign and two digits stand for a byte. -/
theorem unescape_percent {h l : Char} {a b : Nat} (ha : Hexadecimal.value? h = some a)
    (hb : Hexadecimal.value? l = some b) (cs : List Char) :
    unescape ('%' :: h :: l :: cs) = UInt8.ofNat (16 * a + b) :: unescape cs := by
  simp [unescape, ha, hb]

/-- Any character but a percent sign stands for its bytes, a plus sign for a space. -/
theorem unescape_cons {c : Char} (h : c ≠ '%') (cs : List Char) :
    unescape (c :: cs) =
      if c = '+' then 0x20 :: unescape cs else Utf8.encodeChar c ++ unescape cs := by
  rw [unescape]
  simp [h]

/-- A byte is read back from its escape, whatever follows. -/
theorem unescape_escapeByte_append (b : UInt8) (cs : List Char) :
    unescape (escapeByte b ++ cs) = b :: unescape cs := by
  have hb : b.toNat < 256 := b.toNat_lt
  unfold escapeByte
  split
  · next h => rw [List.singleton_append, unescape_cons (by decide), if_pos rfl, h]
  split
  · next h =>
    obtain ⟨hlt, hp, hs, hn⟩ := isPlain_facts b.toNat hb h
    rw [List.singleton_append, unescape_cons hp, if_neg hs, Utf8.encodeChar, hn]
    simp [hlt]
  · rw [List.cons_append, List.cons_append, List.cons_append, List.nil_append,
      unescape_percent (Hexadecimal.value?_upper (by omega)) (Hexadecimal.value?_upper (by omega)),
      Nat.div_add_mod]
    simp

theorem unescape_flatMap_escapeByte (bs : List UInt8) :
    unescape (bs.flatMap escapeByte) = bs := by
  induction bs with
  | nil => rfl
  | cons b bs ih => rw [List.flatMap_cons, unescape_escapeByte_append, ih]

/-- A text is read back from its escaped form. -/
theorem readText_escape (s : String) : readText (escape s) = s := by
  simp [readText, escape, unescape_flatMap_escapeByte, Utf8.decodeLossy_encode]

/-- No escape holds a character that stands between pairs or inside one. -/
theorem delimiters_notMem_escapeByte : ∀ n < 256,
    '&' ∉ escapeByte (UInt8.ofNat n) ∧ '=' ∉ escapeByte (UInt8.ofNat n) := by
  decide +kernel

theorem notMem_escape (s : String) : '&' ∉ escape s ∧ '=' ∉ escape s := by
  simp only [escape, List.mem_flatMap, not_exists, not_and]
  exact ⟨fun b _ => byte_eq_ofNat b ▸ (delimiters_notMem_escapeByte b.toNat b.toNat_lt).1,
    fun b _ => byte_eq_ofNat b ▸ (delimiters_notMem_escapeByte b.toNat b.toNat_lt).2⟩

theorem readPair_writePair (pair : String × String) : readPair (writePair pair) = pair := by
  simp [readPair, writePair, cutAt_append_cons (notMem_escape pair.1).2, readText_escape]

theorem notMem_writePair (pair : String × String) : '&' ∉ writePair pair := by
  simp [writePair, (notMem_escape pair.1).1, (notMem_escape pair.2).1]

/-- **Round trip**: the pairs of a query that was written are those it was written from. -/
theorem read_write (pairs : List (String × String)) : read (write pairs) = pairs := by
  cases pairs with
  | nil => rfl
  | cons p ps =>
    have hne : (p :: ps).map writePair ≠ [] := by simp
    have hsep : ∀ q ∈ (p :: ps).map writePair, '&' ∉ q := by
      simp only [List.mem_map, forall_exists_index, and_imp]
      rintro _ r _ rfl
      exact notMem_writePair r
    have hfull : ∀ q ∈ (p :: ps).map writePair, q ≠ [] := by
      simp only [List.mem_map, forall_exists_index, and_imp]
      rintro _ r _ rfl
      simp [writePair]
    rw [read, write, String.toList_ofList, pieces_joined hne hsep,
      List.filter_eq_self.2 (by simpa using hfull)]
    simp [readPair_writePair, Function.comp_def]

end ViewFilters.FormUrl
