import ViewFilters.Json.Printer
import ViewFilters.Proofs.Json.Grammar
import ViewFilters.Proofs.Text.Characters
import ViewFilters.Text.Utf8

/-!
# ViewFilters.Proofs.Json.Token

Strings and numbers as the grammar has them, read by the scanner of tokens.

* A string in quotes is scanned as what it stands for, whatever follows
  (`scanToken_quotedText_append`).
* A number is scanned as it is written if what follows cannot carry it on
  (`scanToken_numberText_append`), and nothing else is scanned as a number
  (`numberText_of_scanNumber`).

What is printed for a string is one of the ways to write it (`quotedText_quote`).
-/

namespace ViewFilters.Json

/-! ## characters of a string -/

theorem scanUnits_letter {letter c : Char} (h : escaped? letter = some c) (cs : List Char) :
    scanUnits ('\\' :: letter :: cs) =
      (scanUnits cs).map fun (units, rest) => (c.toNat :: units, rest) := by
  rw [scanUnits, h]
  · cases scanUnits cs <;> rfl
  · rintro a b c d rest heq
    rw [heq] at h
    contradiction

theorem scanUnits_number {a b c d : Char} {unit : Nat} (h : hexUnit? a b c d = some unit)
    (cs : List Char) : scanUnits ('\\' :: 'u' :: a :: b :: c :: d :: cs) =
      (scanUnits cs).map fun (units, rest) => (unit :: units, rest) := by
  rw [scanUnits, h]
  cases scanUnits cs <;> rfl

theorem scanUnits_plain {c : Char} (hquote : c ≠ '"') (hback : c ≠ '\\') (h : 0x20 ≤ c.toNat)
    (cs : List Char) : scanUnits (c :: cs) =
      (scanUnits cs).map fun (units, rest) => (c.toNat :: units, rest) := by
  rw [scanUnits, if_neg (not_or.2 ⟨by omega, hback⟩)]
  · cases scanUnits cs <;> rfl
  · exact hquote
  · exact fun _ _ _ _ _ h => absurd h hback
  · exact fun _ _ h => absurd h hback

/-- A unit is scanned whichever way it is written. -/
theorem scanUnits_unitText_append {unit : Nat} {ds : List Char} (h : UnitText unit ds)
    (cs : List Char) :
    scanUnits (ds ++ cs) = (scanUnits cs).map fun (units, rest) => (unit :: units, rest) := by
  cases h with
  | plain hquote hback hprints => exact scanUnits_plain hquote hback hprints cs
  | letter h => exact scanUnits_letter h cs
  | number h => exact scanUnits_number h cs

theorem scanUnits_unitsText_append {units : List Nat} {cs : List Char} (h : UnitsText units cs)
    (rest : List Char) : scanUnits (cs ++ '"' :: rest) = some (units, rest) := by
  induction h with
  | nil => simp [scanUnits]
  | cons h hs ih =>
      rw [List.append_assoc, scanUnits_unitText_append h, ih]
      rfl

/-! ## what units stand for -/

/-- No character is half a surrogate pair. -/
theorem isHigh_isLow_toNat (c : Char) : isHigh c.toNat = false ∧ isLow c.toNat = false := by
  have hvalid := Utf8.toNat_valid c
  simp only [isHigh, isLow, Bool.and_eq_false_iff, decide_eq_false_iff_not]
  omega

/-- A character that is a unit of its own is put before what the other units stand for. -/
theorem assemble?_toNat_cons (c : Char) (units : List Nat) :
    assemble? (c.toNat :: units) = (assemble? units).map (c :: ·) := by
  obtain ⟨hhigh, hlow⟩ := isHigh_isLow_toNat c
  cases units <;> simp [assemble?, hhigh, hlow]

theorem assemble?_of_spells {text : List Char} {units : List Nat} (h : Spells text units) :
    assemble? units = some text := by
  induction h with
  | nil => rfl
  | char c h ih => rw [assemble?_toNat_cons, ih, Option.map_some]
  | pair hhigh hlow h ih => rw [assemble?, if_pos hhigh, if_pos hlow, ih, Option.map_some]

/-- The units that a string can be written with: half a surrogate pair, or a character. -/
def IsUnit (unit : Nat) : Prop :=
  isHigh unit = true ∨ isLow unit = true ∨ (Char.ofNat unit).toNat = unit

theorem hexUnit?_lt {a b c d : Char} {unit : Nat} (h : hexUnit? a b c d = some unit) :
    unit < 0x10000 := by
  simp only [hexUnit?, Option.bind_eq_bind, Option.bind_eq_some_iff, Option.some.injEq] at h
  obtain ⟨m, hm, n, hn, p, hp, q, hq, rfl⟩ := h
  have := Hexadecimal.value?_lt hm
  have := Hexadecimal.value?_lt hn
  have := Hexadecimal.value?_lt hp
  have := Hexadecimal.value?_lt hq
  omega

theorem isUnit_toNat (c : Char) : IsUnit c.toNat := by
  exact Or.inr (Or.inr (by rw [Char.ofNat_toNat]))

theorem isUnit_of_lt {unit : Nat} (h : unit < 0x10000) : IsUnit unit := by
  by_cases hhigh : isHigh unit = true
  · exact Or.inl hhigh
  by_cases hlow : isLow unit = true
  · exact Or.inr (Or.inl hlow)
  refine Or.inr (Or.inr ?_)
  have hvalid : unit.isValidChar := by
    simp only [isHigh, isLow, Bool.and_eq_true, decide_eq_true_eq] at hhigh hlow
    simp only [Nat.isValidChar]
    omega
  rw [Char.ofNat, dif_pos hvalid]
  rfl

theorem UnitsText.isUnit {units : List Nat} {cs : List Char} (h : UnitsText units cs) :
    ∀ unit ∈ units, IsUnit unit := by
  induction h with
  | nil => exact fun unit hmem => absurd hmem List.not_mem_nil
  | cons h hs ih =>
      refine List.forall_mem_cons.2 ⟨?_, ih⟩
      cases h with
      | plain hquote hback hprints => exact isUnit_toNat _
      | letter h => exact isUnit_toNat _
      | number h => exact isUnit_of_lt (hexUnit?_lt h)

/-- A unit that is no half of a pair is a character. -/
theorem IsUnit.toNat_ofNat {unit : Nat} (h : IsUnit unit) (hhigh : ¬ isHigh unit = true)
    (hlow : ¬ isLow unit = true) : (Char.ofNat unit).toNat = unit :=
  (h.resolve_left hhigh).resolve_left hlow

theorem spells_of_assemble? {units : List Nat} {text : List Char}
    (hu : ∀ unit ∈ units, IsUnit unit) (h : assemble? units = some text) : Spells text units := by
  fun_induction assemble? units generalizing text with
  | case1 =>
      cases h
      exact .nil
  | case2 high low units hhigh hlow ih =>
      obtain ⟨more, hmore, rfl⟩ := Option.map_eq_some_iff.1 h
      simp only [List.forall_mem_cons] at hu
      exact .pair hhigh hlow (ih hu.2.2 hmore)
  | case3 => contradiction
  | case4 => contradiction
  | case5 high low units hhigh hlow ih =>
      obtain ⟨more, hmore, rfl⟩ := Option.map_eq_some_iff.1 h
      obtain ⟨hunit, hrest⟩ := List.forall_mem_cons.1 hu
      have hspelled : Spells (Char.ofNat high :: more) ((Char.ofNat high).toNat :: low :: units) :=
        .char _ (ih hrest hmore)
      rwa [hunit.toNat_ofNat hhigh hlow] at hspelled
  | case6 => contradiction
  | case7 unit hhalf =>
      cases h
      have hunit : IsUnit unit := hu unit List.mem_cons_self
      have hspelled : Spells [Char.ofNat unit] [(Char.ofNat unit).toNat] := .char _ .nil
      simp only [Bool.or_eq_true, not_or] at hhalf
      rwa [hunit.toNat_ofNat hhalf.1 hhalf.2] at hspelled

/-- **Strings**: a string in quotes is scanned as what it stands for. -/
theorem scanToken_quotedText_append {text : Option String} {cs : List Char}
    (h : QuotedText text cs) (rest : List Char) :
    scanToken (cs ++ rest) = some (.string text, rest) := by
  have hscan : ∀ {units : List Nat} {cs : List Char}, UnitsText units cs →
      scanToken ('"' :: (cs ++ ['"']) ++ rest) =
        some (.string ((assemble? units).map String.ofList), rest) := by
    intro units cs h
    have hunits := scanUnits_unitsText_append h rest
    simp [scanToken, scanString, hunits]
  cases h with
  | text h hs => rw [hscan h, assemble?_of_spells hs, Option.map_some, String.ofList_toList]
  | @broken units cs h hs =>
      have hnone : assemble? units = none := by
        refine Option.eq_none_iff_forall_ne_some.2 fun text htext => ?_
        exact hs text (spells_of_assemble? h.isUnit htext)
      rw [hscan h, hnone, Option.map_none]

/-! ## strings as they are printed -/

theorem hexUnit?_lower {n : Nat} (h : n < 0x100) :
    hexUnit? '0' '0' (Hexadecimal.lower (n / 16)) (Hexadecimal.lower (n % 16)) = some n := by
  have hzero : Hexadecimal.value? '0' = some 0 := by decide
  have hn : n / 16 * 16 + n % 16 = n := by omega
  simp [hexUnit?, hzero, Hexadecimal.value?_lower (by omega : n / 16 < 16),
    Hexadecimal.value?_lower (by omega : n % 16 < 16), hn]

/-- A character is printed in one of the ways to write it. -/
theorem unitText_escapeChar (c : Char) : UnitText c.toNat (escapeChar c) := by
  by_cases hshort : c ∈ ['"', '\\', '\n', '\r', '\t', '\x08', '\x0c']
  · simp only [List.mem_cons, List.not_mem_nil, or_false] at hshort
    rcases hshort with rfl | rfl | rfl | rfl | rfl | rfl | rfl <;> exact .letter rfl
  · simp only [List.mem_cons, List.not_mem_nil, or_false, not_or] at hshort
    obtain ⟨hquote, hback, hn, hr, ht, hb, hf⟩ := hshort
    simp only [escapeChar, hquote, hback, hn, hr, ht, hb, hf, if_false]
    split
    · exact .number (hexUnit?_lower (by omega))
    · exact .plain hquote hback (by omega)

theorem unitsText_flatMap_escapeChar (cs : List Char) :
    UnitsText (cs.map Char.toNat) (cs.flatMap escapeChar) := by
  induction cs with
  | nil => exact .nil
  | cons c cs ih => exact .cons (unitText_escapeChar c) ih

theorem spells_map_toNat (cs : List Char) : Spells cs (cs.map Char.toNat) := by
  induction cs with
  | nil => exact .nil
  | cons c cs ih => exact .char c ih

theorem quotedText_quote (text : Option String) : QuotedText text (quote text) := by
  cases text with
  | some s => exact .text (unitsText_flatMap_escapeChar s.toList) (spells_map_toNat s.toList)
  | none =>
      have hhalf : UnitsText [0xD800] ['\\', 'u', 'd', '8', '0', '0'] :=
        .cons (.number (by decide : hexUnit? 'd' '8' '0' '0' = some 0xD800)) .nil
      refine .broken hhalf fun text hs => ?_
      have hnone : assemble? [0xD800] = none := by decide
      rw [assemble?_of_spells hs] at hnone
      contradiction

/-! ## numbers -/

/-- Whether a character can carry on a number. -/
def carriesOn (c : Char) : Bool :=
  Decimal.isDigit c || c = '.' || c = 'e' || c = 'E' || c = '+' || c = '-'

/-- A text that does not carry on a number before it. -/
def EndsNumber (cs : List Char) : Prop := ∀ c ∈ cs.head?, carriesOn c = false

/-- A text that does not carry on digits before it. -/
def EndsDigits (cs : List Char) : Prop := ∀ c ∈ cs.head?, Decimal.isDigit c = false

/-- A number as the scanner takes it, with nothing left over. -/
def IsNumber (literal : String) : Prop :=
  scanNumber literal.toList = some (.number literal, [])

theorem endsNumber_nil : EndsNumber [] := by simp [EndsNumber]

theorem endsNumber_cons {c : Char} (h : carriesOn c = false) (cs : List Char) :
    EndsNumber (c :: cs) := by
  simpa [EndsNumber] using h

theorem endsDigits_cons {c : Char} (h : Decimal.isDigit c = false) (cs : List Char) :
    EndsDigits (c :: cs) := by
  simpa [EndsDigits] using h

variable {rest : List Char}

theorem EndsNumber.endsDigits (h : EndsNumber rest) : EndsDigits rest := by
  intro c hc
  have hnot := h c hc
  simp only [carriesOn, Bool.or_eq_false_iff] at hnot
  exact hnot.1.1.1.1.1

theorem EndsNumber.head_ne (h : EndsNumber rest) {c : Char} (hc : carriesOn c = true)
    (cs : List Char) : rest ≠ c :: cs := by
  rintro rfl
  have hnot := h c rfl
  rw [hc] at hnot
  contradiction

/-! ### every part is scanned as it is written -/

theorem scanSomeDigits_append {ds : List Char} (h : IsDigits ds) (hrest : EndsDigits rest) :
    scanSomeDigits (ds ++ rest) = some (ds, rest) := by
  obtain ⟨hne, hdigits⟩ := h
  have htake : rest.takeWhile Decimal.isDigit = [] ∧ rest.dropWhile Decimal.isDigit = rest := by
    cases rest with
    | nil => exact ⟨rfl, rfl⟩
    | cons c cs => simp [hrest c rfl]
  simp [scanSomeDigits, scanDigits, List.takeWhile_append_of_pos hdigits,
    List.dropWhile_append_of_pos hdigits, htake, hne]

/-- The first of some digits. -/
theorem IsDigits.exists_cons {ds : List Char} (h : IsDigits ds) :
    ∃ d more, ds = d :: more ∧ Decimal.isDigit d = true := by
  cases ds with
  | nil => exact absurd rfl h.1
  | cons d more => exact ⟨d, more, rfl, h.2 d List.mem_cons_self⟩

theorem scanWhole_append {ds : List Char} (h : WholeText ds) (hrest : EndsDigits rest) :
    scanWhole (ds ++ rest) = some (ds, rest) := by
  cases h with
  | zero => rfl
  | digits h hzero =>
      obtain ⟨d, more, rfl, -⟩ := h.exists_cons
      have hd : d ≠ '0' := by simpa using hzero
      have hwhole : scanWhole (d :: more ++ rest) = scanSomeDigits (d :: more ++ rest) := by
        simp [scanWhole, hd]
      rw [hwhole, scanSomeDigits_append h hrest]

theorem scanMinus_append {minus ds : List Char} (hminus : minus = [] ∨ minus = ['-'])
    (h : ∀ cs, ds ≠ '-' :: cs) : scanMinus (minus ++ ds) = (minus, ds) := by
  obtain rfl | rfl := hminus
  · unfold scanMinus
    split
    · next cs hcs => exact absurd hcs (h cs)
    · rfl
  · rfl

theorem scanFraction_append {fraction : List Char} (h : FractionText fraction)
    (hrest : EndsDigits rest) (hpoint : ∀ cs, rest ≠ '.' :: cs) :
    scanFraction (fraction ++ rest) = some (fraction, rest) := by
  cases h with
  | absent =>
      unfold scanFraction
      split
      · next cs hcs => exact absurd hcs (hpoint cs)
      · rfl
  | present h => simp [scanFraction, scanSomeDigits_append h hrest]

theorem scanSign_append {sign ds : List Char} (hsign : sign = [] ∨ sign = ['+'] ∨ sign = ['-'])
    (h : IsDigits ds) : scanSign (sign ++ (ds ++ rest)) = (sign, ds ++ rest) := by
  obtain ⟨d, more, rfl, hd⟩ := h.exists_cons
  have hplus : d ≠ '+' := by rintro rfl; contradiction
  have hminus : d ≠ '-' := by rintro rfl; contradiction
  obtain rfl | rfl | rfl := hsign
  · simp [scanSign, scanMinus, hplus, hminus]
  · rfl
  · rfl

theorem scanExponent_append {exponent : List Char} (h : ExponentText exponent)
    (hrest : EndsNumber rest) : scanExponent (exponent ++ rest) = some (exponent, rest) := by
  cases h with
  | absent =>
      cases rest with
      | nil => rfl
      | cons c cs =>
          have hc : ¬ (c = 'e' ∨ c = 'E') := by
            rintro (rfl | rfl)
            · exact hrest.head_ne (by decide) cs rfl
            · exact hrest.head_ne (by decide) cs rfl
          simp [scanExponent, hc]
  | present hletter hsign h =>
      simp [scanExponent, hletter, scanSign_append hsign h,
        scanSomeDigits_append h hrest.endsDigits]

/-- What follows a whole part and a fraction does not carry on their digits. -/
theorem ExponentText.endsDigits_append {exponent : List Char} (h : ExponentText exponent)
    (hrest : EndsNumber rest) :
    EndsDigits (exponent ++ rest) ∧ ∀ cs, exponent ++ rest ≠ '.' :: cs := by
  cases h with
  | absent => exact ⟨hrest.endsDigits, fun cs => hrest.head_ne (by decide) cs⟩
  | present hletter hsign h =>
      obtain rfl | rfl := hletter
      · exact ⟨endsDigits_cons (by decide) _, by simp⟩
      · exact ⟨endsDigits_cons (by decide) _, by simp⟩

theorem FractionText.endsDigits_append {fraction : List Char} (h : FractionText fraction)
    (hrest : EndsDigits rest) : EndsDigits (fraction ++ rest) := by
  cases h with
  | absent => exact hrest
  | present h => exact endsDigits_cons (by decide) _

theorem WholeText.ne_minus {whole : List Char} (h : WholeText whole) (cs : List Char) :
    whole ++ rest ≠ '-' :: cs := by
  cases h with
  | zero => simp
  | digits h hzero =>
      obtain ⟨d, more, rfl, hd⟩ := h.exists_cons
      rintro heq
      rw [(List.cons.inj heq).1] at hd
      contradiction

theorem scanNumber_append {cs : List Char} (h : NumberText cs) (hrest : EndsNumber rest) :
    scanNumber (cs ++ rest) = some (.number (String.ofList cs), rest) := by
  obtain ⟨hminus, hwhole, hfraction, hexponent⟩ := h
  obtain ⟨hdigits, hpoint⟩ := hexponent.endsDigits_append hrest
  simp only [scanNumber, List.append_assoc, scanMinus_append hminus hwhole.ne_minus,
    scanWhole_append hwhole (hfraction.endsDigits_append hdigits),
    scanFraction_append hfraction hdigits hpoint, scanExponent_append hexponent hrest,
    Option.bind_eq_bind, Option.bind_some]

/-! ### numbers among tokens -/

/-- A number begins with a digit or a minus sign. -/
theorem scanNumber_cons_eq_none {c : Char} (hdigit : Decimal.isDigit c = false) (hminus : c ≠ '-')
    (cs : List Char) : scanNumber (c :: cs) = none := by
  have hzero : c ≠ '0' := by
    rintro rfl
    contradiction
  simp [scanNumber, scanMinus, scanWhole, scanSomeDigits, scanDigits, hminus, hzero, hdigit]

theorem scanToken_of_scanNumber {cs : List Char} {t : Token}
    (h : scanNumber cs = some (t, rest)) : scanToken cs = some (t, rest) := by
  unfold scanToken
  split
  case h_11 => exact h
  all_goals
    rw [scanNumber_cons_eq_none (by decide) (by decide)] at h
    contradiction

/-- **Numbers**: a number is scanned as it is written, before a text that does not carry it on. -/
theorem scanToken_numberText_append {cs : List Char} (h : NumberText cs)
    (hrest : EndsNumber rest) :
    scanToken (cs ++ rest) = some (.number (String.ofList cs), rest) :=
  scanToken_of_scanNumber (scanNumber_append h hrest)

/-! ### nothing else is scanned as a number -/

variable {cs ds : List Char}

theorem isDigits_of_scanSomeDigits (h : scanSomeDigits cs = some (ds, rest)) :
    IsDigits ds ∧ cs = ds ++ rest := by
  unfold scanSomeDigits at h
  split at h
  · contradiction
  · next hne =>
    cases h
    have hall : (cs.takeWhile Decimal.isDigit).all Decimal.isDigit = true := List.all_takeWhile
    exact ⟨⟨by simpa [scanDigits] using hne, List.all_eq_true.1 hall⟩,
      List.takeWhile_append_dropWhile.symm⟩

theorem scanMinus_cases (cs : List Char) :
    ((scanMinus cs).1 = [] ∨ (scanMinus cs).1 = ['-']) ∧
      cs = (scanMinus cs).1 ++ (scanMinus cs).2 := by
  unfold scanMinus
  split
  · exact ⟨Or.inr rfl, rfl⟩
  · exact ⟨Or.inl rfl, rfl⟩

theorem wholeText_of_scanWhole (h : scanWhole cs = some (ds, rest)) :
    WholeText ds ∧ cs = ds ++ rest := by
  unfold scanWhole at h
  split at h
  · cases h
    exact ⟨.zero, rfl⟩
  · next hzero =>
    obtain ⟨hdigits, rfl⟩ := isDigits_of_scanSomeDigits h
    obtain ⟨d, more, rfl, -⟩ := hdigits.exists_cons
    refine ⟨.digits hdigits fun hhead => ?_, rfl⟩
    exact hzero (more ++ rest) (by rw [Option.some.inj hhead]; rfl)

theorem fractionText_of_scanFraction (h : scanFraction cs = some (ds, rest)) :
    FractionText ds ∧ cs = ds ++ rest := by
  unfold scanFraction at h
  split at h
  · obtain ⟨⟨digits, after⟩, hscan, heq⟩ := Option.map_eq_some_iff.1 h
    obtain ⟨hdigits, rfl⟩ := isDigits_of_scanSomeDigits hscan
    cases heq
    exact ⟨.present hdigits, rfl⟩
  · cases h
    exact ⟨.absent, rfl⟩

theorem scanSign_cases (cs : List Char) :
    ((scanSign cs).1 = [] ∨ (scanSign cs).1 = ['+'] ∨ (scanSign cs).1 = ['-']) ∧
      cs = (scanSign cs).1 ++ (scanSign cs).2 := by
  unfold scanSign
  split
  · exact ⟨Or.inr (Or.inl rfl), rfl⟩
  · obtain ⟨hminus, heq⟩ := scanMinus_cases cs
    exact ⟨hminus.imp_right Or.inr, heq⟩

theorem exponentText_of_scanExponent (h : scanExponent cs = some (ds, rest)) :
    ExponentText ds ∧ cs = ds ++ rest := by
  unfold scanExponent at h
  split at h
  · next letter cs =>
    split at h
    · next hletter =>
      obtain ⟨⟨digits, after⟩, hscan, heq⟩ := Option.map_eq_some_iff.1 h
      obtain ⟨hdigits, hcut⟩ := isDigits_of_scanSomeDigits hscan
      obtain ⟨hsign, hcs⟩ := scanSign_cases cs
      cases heq
      rw [hcut] at hcs
      exact ⟨.present hletter hsign hdigits, by simpa using hcs⟩
    · cases h
      exact ⟨.absent, rfl⟩
  · cases h
    exact ⟨.absent, rfl⟩

/-- A number is scanned only where one is written. -/
theorem numberText_of_scanNumber {t : Token} (h : scanNumber cs = some (t, rest)) :
    ∃ ds, NumberText ds ∧ t = .number (String.ofList ds) ∧ cs = ds ++ rest := by
  simp only [scanNumber, Option.bind_eq_bind, Option.bind_eq_some_iff] at h
  obtain ⟨⟨whole, r1⟩, h1, ⟨fraction, r2⟩, h2, ⟨exponent, r3⟩, h3, h⟩ := h
  obtain ⟨hminus, hcs⟩ := scanMinus_cases cs
  obtain ⟨hwhole, hr⟩ := wholeText_of_scanWhole h1
  obtain ⟨hfraction, rfl⟩ := fractionText_of_scanFraction h2
  obtain ⟨hexponent, rfl⟩ := exponentText_of_scanExponent h3
  cases h
  rw [hr] at hcs
  exact ⟨_, .mk hminus hwhole hfraction hexponent, by simp, by simpa using hcs⟩

theorem IsNumber.numberText {literal : String} (h : IsNumber literal) :
    NumberText literal.toList := by
  obtain ⟨ds, hnumber, -, hds⟩ := numberText_of_scanNumber h
  rwa [hds, List.append_nil]

theorem isNumber_of_numberText (h : NumberText cs) : IsNumber (String.ofList cs) := by
  rw [IsNumber, String.toList_ofList, ← List.append_nil cs, scanNumber_append h endsNumber_nil,
    List.append_nil]

/-! ### numbers as they are printed -/

theorem wholeText_digits (n : Nat) : WholeText (Decimal.digits n) := by
  have hdigits : IsDigits (Decimal.digits n) :=
    ⟨Decimal.digits_ne_nil n, List.all_eq_true.1 (Decimal.all_isDigit_digits n)⟩
  by_cases hzero : (Decimal.digits n).head? = some '0'
  · obtain ⟨more, hmore⟩ : ∃ more, Decimal.digits n = '0' :: more := by
      simpa [List.head?_eq_some_iff] using hzero
    rw [hmore, Decimal.eq_nil_of_digits_eq_zero_cons hmore]
    exact .zero
  · exact .digits hdigits hzero

theorem isNumber_text (n : Nat) : IsNumber (Decimal.text n) := by
  have hnumber : NumberText ([] ++ (Decimal.digits n ++ ([] ++ []))) :=
    .mk (Or.inl rfl) (wholeText_digits n) .absent .absent
  rw [List.append_nil, List.append_nil, List.nil_append] at hnumber
  exact isNumber_of_numberText hnumber

/-! ## tokens and white space -/

/-- No token begins with white space. -/
theorem scanToken_space_cons {c : Char} (h : isSpace c = true) (cs : List Char) :
    scanToken (c :: cs) = none := by
  simp only [isSpace, Bool.or_eq_true, decide_eq_true_eq] at h
  obtain ((rfl | rfl) | rfl) | rfl := h
  all_goals exact scanNumber_cons_eq_none (by decide) (by decide) cs

/-- A token is taken from the front. -/
theorem tokens?_of_scanToken {t : Token} (h : scanToken cs = some (t, rest)) :
    tokens? cs = (tokens? rest).map (t :: ·) := by
  cases cs with
  | nil => contradiction
  | cons c cs =>
      have hspace : ¬ isSpace c = true := by
        intro hspace
        rw [scanToken_space_cons hspace] at h
        contradiction
      rw [tokens?, if_neg hspace]
      split
      · next hnone =>
        rw [h] at hnone
        contradiction
      · next t' rest' hsome =>
        rw [h, Option.some.injEq, Prod.mk.injEq] at hsome
        rw [hsome.1, hsome.2]

theorem tokens?_blank_append {blank : List Char} (h : IsBlank blank) (cs : List Char) :
    tokens? (blank ++ cs) = tokens? cs := by
  induction blank with
  | nil => rfl
  | cons c blank ih =>
      obtain ⟨hspace, hblank⟩ := List.forall_mem_cons.1 h
      rw [List.cons_append, tokens?, if_pos hspace, ih hblank]

end ViewFilters.Json
