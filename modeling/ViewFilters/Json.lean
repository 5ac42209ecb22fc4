import ViewFilters.Text.Decimal

/-!
# ViewFilters.Json

JSON values, with the two things a plain tree would lose:

* a number is kept as it is written, so that `20`, `20.0` and `2e1` differ;
* the text of a string may be missing, when an escape in it names one half of a
  surrogate pair; such a string is well-formed JSON that nothing can use.

Members of objects stay in the order in which they are written, repeated ones
included.  A record is an object with known members or an array of their values
(`record?`).
-/

namespace ViewFilters

/-- A JSON value. -/
inductive Json where
  | null
  | bool (b : Bool)
  | number (literal : String)
  | string (text : Option String)
  | array (items : List Json)
  | object (members : List (Option String × Json))

namespace Json

/-! ## making values -/

/-- A text as a JSON value. -/
def ofText (s : String) : Json := .string (some s)

/-- A list of texts as a JSON value. -/
def ofTexts (items : List String) : Json := .array (items.map ofText)

/-- A natural number as a JSON value. -/
def ofNat (n : Nat) : Json := .number (Decimal.text n)

/-- An object with the given members. -/
def ofMembers (members : List (String × Json)) : Json :=
  .object (members.map fun m => (some m.1, m.2))

/-! ## using values -/

/-- The text of a string. -/
def text? : Json → Option String
  | .string text => text
  | _ => none

/-- The texts of an array of strings. -/
def texts? : Json → Option (List String)
  | .array items => items.mapM text?
  | _ => none

/-- A 32-bit number, written in digits only. -/
def uint32? : Json → Option UInt32
  | .number literal => Decimal.uint32? literal.toList
  | _ => none

/-- A 64-bit number, written in digits only. -/
def uint64? : Json → Option UInt64
  | .number literal => Decimal.uint64? literal.toList
  | _ => none

/-- A value of some kind, or `null` for none. -/
def nullable? {α : Type} (read : Json → Option α) : Json → Option (Option α)
  | .null => some none
  | j => (read j).map some

/-! ## records -/

/-- The value of a member, if there is one.  Two members of one name are refused. -/
def member? (members : List (Option String × Json)) (name : String) : Option (Option Json) :=
  match members.filter fun m => m.1 = some name with
  | [] => some none
  | [m] => some (some m.2)
  | _ => none

/-- The values of a record's members, in the order of `names`; a member may be
missing.  In an object every name has to be readable and each of `names` may
occur once; other members are ignored.  An array gives the values in order. -/
def record? (names : List String) : Json → Option (List (Option Json))
  | .object members =>
    if members.all fun m => m.1.isSome then names.mapM (member? members) else none
  | .array items =>
    if items.length ≤ names.length then
      some (items.map some ++ List.replicate (names.length - items.length) none)
    else none
  | _ => none

/-- A value that may be missing: read, or the standard one. -/
def getD? {α : Type} (read : Json → Option α) (standard : α) : Option Json → Option α
  | none => some standard
  | some j => read j

end Json

end ViewFilters
