import ViewFilters.Value

/-!
# ViewFilters.Filter

A filter: a field, an operator and a value.  `Filter.build` is the only way in.
It checks, in this order:

1. the field is not empty,
2. the field is not a key of the pagination,
3. the field's family takes the operator,
4. the value can be given the shape that the operator wants,
5. the value is then not empty.
-/

namespace ViewFilters

/-- A condition on one field. -/
structure Filter where
  field : String
  operator : Operator
  value : Value
  deriving DecidableEq

namespace Filter

/-- The filter of the given parts, with its value in the shape of the operator. -/
def build (catalog : Catalog) (field : String) (op : Operator) (value : Value) :
    Except FilterError Filter :=
  if field = "" then .error .emptyField
  else if isReserved field then .error (.reservedField field)
  else if !catalog.isLegal field op then
    .error (.illegalOperator field op (catalog.familyOf field))
  else match value.coerce op.mode with
    | .error fault => .error (.invalidValue field fault)
    | .ok v =>
      if v.isEmpty then .error (.invalidValue field .empty) else .ok ⟨field, op, v⟩

/-- The filter in words. -/
def chip (f : Filter) : String := f.field ++ " " ++ f.operator.label ++ " " ++ f.value.display

/-- The token that stands for the filter in a request to the backend. -/
def token (f : Filter) : String :=
  f.field ++ String.singleton f.operator.mark ++ f.value.render

end Filter

end ViewFilters
