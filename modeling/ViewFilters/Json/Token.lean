import ViewFilters.Text.Decimal
import ViewFilters.Text.Hexadecimal

/-!
# ViewFilters.Json.Token

The tokens of JSON text.  White space stands between tokens and means nothing.
A string token has the text that the string stands for: escapes are resolved,
and two escapes that name a surrogate pair make one character.
-/

namespace ViewFilters.Json

/-- A token of JSON text. -/
inductive Token where
  | beginArray
  | endArray
  | beginObject
  | endObject
  | colon
  | comma
  | null
  | bool (b : Bool)
  | number (literal : String)
  | string (text : Option String)
  deriving DecidableEq

/-- The four white space characters. -/
def isSpace (c : Char) : Bool := c = ' ' || c = '\n' || c = '\r' || c = '\t'

/-! ## strings -/

/-- The number that four hexadecimal digits stand for. -/
def hexUnit? (a b c d : Char) : Option Nat := do
  let a ← Hexadecimal.value? a
  let b ← Hexadecimal.value? b
  let c ← Hexadecimal.value? c
  let d ← Hexadecimal.value? d
  some (((a * 16 + b) * 16 + c) * 16 + d)

/-- The character that a letter after a backslash stands for. -/
def escaped? (c : Char) : Option Char :=
  match c with
  | '"' => some '"'
  | '\\' => some '\\'
  | '/' => some '/'
  | 'b' => some '\x08'
  | 'f' => some '\x0c'
  | 'n' => some '\n'
  | 'r' => some '\r'
  | 't' => some '\t'
  | _ => none

/-- The code units of a string up to its closing quote, and what follows it.
A character that stands for itself is a unit of its own, of any size. -/
def scanUnits : List Char → Option (List Nat × List Char)
  | '"' :: cs => some ([], cs)
  | '\\' :: 'u' :: a :: b :: c :: d :: cs => do
    let unit ← hexUnit? a b c d
    let (units, rest) ← scanUnits cs
    some (unit :: units, rest)
  | '\\' :: c :: cs => do
    let c ← escaped? c
    let (units, rest) ← scanUnits cs
    some (c.toNat :: units, rest)
  | c :: cs =>
    if c.toNat < 0x20 ∨ c = '\\' then none
    else do
      let (units, rest) ← scanUnits cs
      some (c.toNat :: units, rest)
  | [] => none

/-- The first half of a surrogate pair. -/
def isHigh (unit : Nat) : Bool := 0xD800 ≤ unit && unit < 0xDC00

/-- The second half of a surrogate pair. -/
def isLow (unit : Nat) : Bool := 0xDC00 ≤ unit && unit < 0xE000

/-- The character of a surrogate pair. -/
def pairChar (high low : Nat) : Char :=
  Char.ofNat (0x10000 + (high - 0xD800) * 0x400 + (low - 0xDC00))

/-- The text of code units, unless half a surrogate pair is among them. -/
def assemble? : List Nat → Option (List Char)
  | [] => some []
  | high :: low :: units =>
    if isHigh high then
      if isLow low then (assemble? units).map (pairChar high low :: ·) else none
    else if isLow high then none
    else (assemble? (low :: units)).map (Char.ofNat high :: ·)
  | [unit] => if isHigh unit || isLow unit then none else some [Char.ofNat unit]

/-- The string whose opening quote has been read, and what follows it. -/
def scanString (cs : List Char) : Option (Token × List Char) :=
  (scanUnits cs).map fun (units, rest) => (.string ((assemble? units).map String.ofList), rest)

/-! ## numbers -/

/-- The digits at the start, and what follows them. -/
def scanDigits (cs : List Char) : List Char × List Char :=
  (cs.takeWhile Decimal.isDigit, cs.dropWhile Decimal.isDigit)

/-- At least one digit. -/
def scanSomeDigits (cs : List Char) : Option (List Char × List Char) :=
  if (scanDigits cs).1.isEmpty then none else some (scanDigits cs)

/-- A minus sign, if there is one. -/
def scanMinus : List Char → List Char × List Char
  | '-' :: cs => (['-'], cs)
  | cs => ([], cs)

/-- The whole part of a number: zero, or digits that do not begin with zero. -/
def scanWhole : List Char → Option (List Char × List Char)
  | '0' :: cs => some (['0'], cs)
  | cs => scanSomeDigits cs

/-- A point and digits, if there is a point. -/
def scanFraction : List Char → Option (List Char × List Char)
  | '.' :: cs => (scanSomeDigits cs).map fun (ds, rest) => ('.' :: ds, rest)
  | cs => some ([], cs)

/-- The sign of an exponent, if there is one. -/
def scanSign : List Char → List Char × List Char
  | '+' :: cs => (['+'], cs)
  | cs => scanMinus cs

/-- The letter of an exponent, a sign or none, and digits, if there is the letter. -/
def scanExponent : List Char → Option (List Char × List Char)
  | c :: cs =>
    if c = 'e' ∨ c = 'E' then
      (scanSomeDigits (scanSign cs).2).map fun (ds, rest) => (c :: (scanSign cs).1 ++ ds, rest)
    else some ([], c :: cs)
  | [] => some ([], [])

/-- The longest number at the start, and what follows it. -/
def scanNumber (cs : List Char) : Option (Token × List Char) := do
  let (whole, rest) ← scanWhole (scanMinus cs).2
  let (fraction, rest) ← scanFraction rest
  let (exponent, rest) ← scanExponent rest
  some (.number (String.ofList ((scanMinus cs).1 ++ whole ++ fraction ++ exponent)), rest)

/-! ## all tokens -/

/-- The token at the start, and what follows it. -/
def scanToken : List Char → Option (Token × List Char)
  | '[' :: cs => some (.beginArray, cs)
  | ']' :: cs => some (.endArray, cs)
  | '{' :: cs => some (.beginObject, cs)
  | '}' :: cs => some (.endObject, cs)
  | ':' :: cs => some (.colon, cs)
  | ',' :: cs => some (.comma, cs)
  | '"' :: cs => scanString cs
  | 'n' :: 'u' :: 'l' :: 'l' :: cs => some (.null, cs)
  | 't' :: 'r' :: 'u' :: 'e' :: cs => some (.bool true, cs)
  | 'f' :: 'a' :: 'l' :: 's' :: 'e' :: cs => some (.bool false, cs)
  | cs => scanNumber cs

/-! ### every token takes something -/

theorem length_scanUnits {cs : List Char} {units : List Nat} {rest : List Char}
    (h : scanUnits cs = some (units, rest)) : rest.length < cs.length := by
  fun_induction scanUnits cs generalizing units rest with
  | case1 cs => simp_all
  | case2 a b c d cs ih =>
    simp only [Option.bind_eq_bind, Option.bind_eq_some_iff] at h
    obtain ⟨_, _, ⟨us, r⟩, hr, h⟩ := h
    have := ih hr
    simp_all only [Option.some.injEq, Prod.mk.injEq, List.length_cons]
    omega
  | case3 c cs _ ih =>
    simp only [Option.bind_eq_bind, Option.bind_eq_some_iff] at h
    obtain ⟨_, _, ⟨us, r⟩, hr, h⟩ := h
    have := ih hr
    simp_all only [Option.some.injEq, Prod.mk.injEq, List.length_cons]
    omega
  | case4 => simp at h
  | case5 c cs _ _ _ _ ih =>
    simp only [Option.bind_eq_bind, Option.bind_eq_some_iff] at h
    obtain ⟨⟨us, r⟩, hr, h⟩ := h
    have := ih hr
    simp_all only [Option.some.injEq, Prod.mk.injEq, List.length_cons]
    omega
  | case6 => simp at h

theorem length_scanSomeDigits {cs ds rest : List Char}
    (h : scanSomeDigits cs = some (ds, rest)) : rest.length < cs.length := by
  unfold scanSomeDigits at h
  split at h
  · simp at h
  · next hne =>
    have hlen : ((scanDigits cs).1 ++ (scanDigits cs).2).length = _ := List.length_append
    have hcat : (scanDigits cs).1 ++ (scanDigits cs).2 = cs := List.takeWhile_append_dropWhile
    have hpos : 0 < (scanDigits cs).1.length := by
      simpa [List.length_pos_iff] using hne
    rw [hcat, Option.some.inj h] at hlen
    rw [Option.some.inj h] at hpos
    dsimp only at hlen hpos
    omega

theorem length_scanMinus (cs : List Char) : (scanMinus cs).2.length ≤ cs.length := by
  unfold scanMinus
  split <;> simp

theorem length_scanWhole {cs ds rest : List Char} (h : scanWhole cs = some (ds, rest)) :
    rest.length < cs.length := by
  unfold scanWhole at h
  split at h
  · simp_all
  · exact length_scanSomeDigits h

theorem length_scanFraction {cs ds rest : List Char} (h : scanFraction cs = some (ds, rest)) :
    rest.length ≤ cs.length := by
  unfold scanFraction at h
  split at h
  · obtain ⟨⟨ds', r⟩, hr, h⟩ := Option.map_eq_some_iff.1 h
    have := length_scanSomeDigits hr
    simp only [Prod.mk.injEq] at h
    simp only [List.length_cons, ← h.2]
    omega
  · simp_all

theorem length_scanSign (cs : List Char) : (scanSign cs).2.length ≤ cs.length := by
  unfold scanSign
  split
  · simp
  · exact length_scanMinus _

theorem length_scanExponent {cs ds rest : List Char} (h : scanExponent cs = some (ds, rest)) :
    rest.length ≤ cs.length := by
  unfold scanExponent at h
  split at h
  · next c cs =>
    split at h
    · obtain ⟨⟨ds', r⟩, hr, h⟩ := Option.map_eq_some_iff.1 h
      have := length_scanSomeDigits hr
      have := length_scanSign cs
      simp only [Prod.mk.injEq] at h
      simp only [List.length_cons, ← h.2]
      omega
    · simp_all
  · simp_all

theorem length_scanNumber {cs rest : List Char} {t : Token} (h : scanNumber cs = some (t, rest)) :
    rest.length < cs.length := by
  simp only [scanNumber, Option.bind_eq_bind, Option.bind_eq_some_iff] at h
  obtain ⟨⟨w, r1⟩, h1, ⟨f, r2⟩, h2, ⟨e, r3⟩, h3, h⟩ := h
  have hm := length_scanMinus cs
  have hw := length_scanWhole h1
  have hf := length_scanFraction h2
  have he := length_scanExponent h3
  simp only [Option.some.injEq, Prod.mk.injEq] at h
  rw [← h.2]
  dsimp only at hf he ⊢
  omega

theorem length_scanToken {cs rest : List Char} {t : Token} (h : scanToken cs = some (t, rest)) :
    rest.length < cs.length := by
  unfold scanToken at h
  split at h
  case h_7 cs =>
    obtain ⟨⟨us, r⟩, hr, h⟩ := Option.map_eq_some_iff.1 h
    have := length_scanUnits hr
    simp only [Prod.mk.injEq] at h
    simp only [List.length_cons, ← h.2]
    omega
  case h_11 => exact length_scanNumber h
  all_goals
    simp only [Option.some.injEq, Prod.mk.injEq] at h
    simp only [List.length_cons, ← h.2]
    omega

/-- The tokens of JSON text, if it is nothing but tokens and white space. -/
def tokens? : List Char → Option (List Token)
  | [] => some []
  | c :: cs =>
    if isSpace c then tokens? cs
    else
      match hs : scanToken (c :: cs) with
      | none => none
      | some (t, rest) =>
        have : rest.length < (c :: cs).length := length_scanToken hs
        (tokens? rest).map (t :: ·)
termination_by cs => cs.length
decreasing_by
  · exact Nat.lt_succ_self _
  · assumption

end ViewFilters.Json
