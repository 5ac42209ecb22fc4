import ViewFilters.Json
import ViewFilters.Json.Token
import ViewFilters.Text.Pieces

/-!
# ViewFilters.Proofs.Json.Grammar

JSON text as its format describes it, apart from how it is read.  `Written j cs` says
that `cs` is a way to write the value `j`:

```
value    blank  null | true | false | number | string | array | object  blank
array    [ value , … , value blank ]
object   { key value , … , key value blank }
key      blank string blank :
number   −?  0 | digits without a leading 0  (. digits)?  ((e | E) (+ | −)? digits)?
string   " characters and escapes "
```

A blank is white space, or nothing.  A string is written unit by unit, each as itself or
as an escape (`UnitText`); what it then stands for is a second step (`Spells`), in which
two halves of a surrogate pair make one character.
-/

namespace ViewFilters.Json

/-- White space, or nothing. -/
def IsBlank (cs : List Char) : Prop := ∀ c ∈ cs, isSpace c = true

/-! ## numbers -/

/-- Digits, at least one. -/
def IsDigits (cs : List Char) : Prop := cs ≠ [] ∧ ∀ c ∈ cs, Decimal.isDigit c = true

/-- The whole part of a number. -/
inductive WholeText : List Char → Prop where
  | zero : WholeText ['0']
  | digits {ds : List Char} (h : IsDigits ds) (hzero : ds.head? ≠ some '0') : WholeText ds

/-- The part of a number from its point on, if there is one. -/
inductive FractionText : List Char → Prop where
  | absent : FractionText []
  | present {ds : List Char} (h : IsDigits ds) : FractionText ('.' :: ds)

/-- The part of a number that is its exponent, if there is one. -/
inductive ExponentText : List Char → Prop where
  | absent : ExponentText []
  | present {letter : Char} {sign ds : List Char} (hletter : letter = 'e' ∨ letter = 'E')
      (hsign : sign = [] ∨ sign = ['+'] ∨ sign = ['-']) (h : IsDigits ds) :
      ExponentText (letter :: (sign ++ ds))

/-- A number as it is written. -/
inductive NumberText : List Char → Prop where
  | mk {minus whole fraction exponent : List Char} (hminus : minus = [] ∨ minus = ['-'])
      (hwhole : WholeText whole) (hfraction : FractionText fraction)
      (hexponent : ExponentText exponent) :
      NumberText (minus ++ (whole ++ (fraction ++ exponent)))

/-! ## strings -/

/-- The ways to write a code unit in a string. -/
inductive UnitText : Nat → List Char → Prop where
  /-- As itself. -/
  | plain {c : Char} (hquote : c ≠ '"') (hback : c ≠ '\\') (hprints : 0x20 ≤ c.toNat) :
      UnitText c.toNat [c]
  /-- By the letter that stands for it after a backslash. -/
  | letter {letter c : Char} (h : escaped? letter = some c) : UnitText c.toNat ['\\', letter]
  /-- By its number. -/
  | number {a b c d : Char} {unit : Nat} (h : hexUnit? a b c d = some unit) :
      UnitText unit ['\\', 'u', a, b, c, d]

/-- The ways to write the units of a string, one after another. -/
inductive UnitsText : List Nat → List Char → Prop where
  | nil : UnitsText [] []
  | cons {unit : Nat} {units : List Nat} {cs ds : List Char} (h : UnitText unit cs)
      (hs : UnitsText units ds) : UnitsText (unit :: units) (cs ++ ds)

/-- The units that stand for a text: one for each character, or a surrogate pair. -/
inductive Spells : List Char → List Nat → Prop where
  | nil : Spells [] []
  | char {cs : List Char} {units : List Nat} (c : Char) (h : Spells cs units) :
      Spells (c :: cs) (c.toNat :: units)
  | pair {cs : List Char} {units : List Nat} {high low : Nat} (hhigh : isHigh high = true)
      (hlow : isLow low = true) (h : Spells cs units) :
      Spells (pairChar high low :: cs) (high :: low :: units)

/-- A string in quotes, by its text.  Units that stand for no text leave it without one. -/
inductive QuotedText : Option String → List Char → Prop where
  | text {s : String} {units : List Nat} {cs : List Char} (h : UnitsText units cs)
      (hs : Spells s.toList units) : QuotedText (some s) ('"' :: (cs ++ ['"']))
  | broken {units : List Nat} {cs : List Char} (h : UnitsText units cs)
      (hs : ∀ text, ¬ Spells text units) : QuotedText none ('"' :: (cs ++ ['"']))

/-! ## values -/

/-- A name in quotes, up to the colon after it. -/
inductive KeyText : Option String → List Char → Prop where
  | mk {name : Option String} {before key after : List Char} (hbefore : IsBlank before)
      (h : QuotedText name key) (hafter : IsBlank after) :
      KeyText name (before ++ (key ++ (after ++ [':'])))

/-- A member of an object as it is written: its key, and a text for its value. -/
structure MemberText where
  name : Option String
  key : List Char
  value : Json
  text : List Char
  isKey : KeyText name key

namespace MemberText

/-- The member. -/
def member (m : MemberText) : Option String × Json := (m.name, m.value)

/-- All of its text. -/
def written (m : MemberText) : List Char := m.key ++ m.text

end MemberText

/-- The ways to write a value. -/
inductive Written : Json → List Char → Prop where
  | padded {j : Json} {before cs after : List Char} (hbefore : IsBlank before)
      (h : Written j cs) (hafter : IsBlank after) : Written j (before ++ (cs ++ after))
  | null : Written .null ['n', 'u', 'l', 'l']
  | boolTrue : Written (.bool true) ['t', 'r', 'u', 'e']
  | boolFalse : Written (.bool false) ['f', 'a', 'l', 's', 'e']
  | number {cs : List Char} (h : NumberText cs) : Written (.number (String.ofList cs)) cs
  | string {text : Option String} {cs : List Char} (h : QuotedText text cs) :
      Written (.string text) cs
  | array {items : List (Json × List Char)} {blank : List Char}
      (h : ∀ item ∈ items, Written item.1 item.2) (hblank : IsBlank blank) :
      Written (.array (items.map (·.1)))
        ('[' :: (joined ',' (items.map (·.2)) ++ (blank ++ [']'])))
  | object {members : List MemberText} {blank : List Char}
      (h : ∀ m ∈ members, Written m.value m.text) (hblank : IsBlank blank) :
      Written (.object (members.map MemberText.member))
        ('{' :: (joined ',' (members.map MemberText.written) ++ (blank ++ ['}'])))

/-! ## blanks -/

theorem isBlank_nil : IsBlank [] := by simp [IsBlank]

theorem isBlank_cons {c : Char} {cs : List Char} (h : isSpace c = true) (hs : IsBlank cs) :
    IsBlank (c :: cs) := by
  simpa [IsBlank, h] using hs

end ViewFilters.Json
