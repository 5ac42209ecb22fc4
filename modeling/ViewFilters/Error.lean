import ViewFilters.Field

/-!
# ViewFilters.Error

Why a filter cannot be built or read.  Each cause is a constructor of
`FilterError`; the wording is in `FilterError.message` alone.
-/

namespace ViewFilters

/-- Why a value does not suit its operator. -/
inductive ValueFault where
  /-- Nothing is left to compare with. -/
  | empty
  /-- A text that is neither `true` nor `false`. -/
  | notBoolean (text : String)
  /-- A list where a truth value is wanted. -/
  | listAsBoolean
  deriving DecidableEq

/-- The wording of a value's fault. -/
def ValueFault.message : ValueFault → String
  | .empty => "value is empty"
  | .notBoolean text => "expected true or false, got '" ++ text ++ "'"
  | .listAsBoolean => "a list cannot be used as a boolean"

/-- Why a filter cannot be built or read. -/
inductive FilterError where
  /-- No operator has this name. -/
  | unknownOperator (name : String)
  /-- A value in a link that does not begin with an operator in brackets. -/
  | malformed (field raw : String)
  /-- An operator that the field's family does not take. -/
  | illegalOperator (field : String) (operator : Operator) (family : Family)
  /-- A value that does not suit the operator. -/
  | invalidValue (field : String) (fault : ValueFault)
  /-- A filter on no field. -/
  | emptyField
  /-- A filter on a key that belongs to the pagination. -/
  | reservedField (key : String)
  deriving DecidableEq

/-- The wording of an error. -/
def FilterError.message : FilterError → String
  | unknownOperator name => "Unknown operator: " ++ name
  | malformed field raw => "Malformed filter parameter for '" ++ field ++ "': " ++ raw
  | illegalOperator field operator family =>
    "Operator '" ++ operator.name ++ "' is not allowed on " ++ family.name ++
      " field '" ++ field ++ "'"
  | invalidValue field fault => "Invalid value for '" ++ field ++ "': " ++ fault.message
  | emptyField => "Filter field cannot be empty"
  | reservedField key => "'" ++ key ++ "' is a pagination key and cannot be filtered on"

/-- The operator of a name, or the error that there is none. -/
def Operator.named (name : String) : Except FilterError Operator :=
  match ofName? name with
  | some op => .ok op
  | none => .error (.unknownOperator name)

theorem Operator.named_name (op : Operator) : named op.name = .ok op := by
  simp [named, ofName?_name]

end ViewFilters
