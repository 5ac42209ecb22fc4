import ViewFilters.Event
import ViewFilters.Filter

/-!
# ViewFilters.Filter.Parameter

A filter as a parameter of a link: the key is the field, the value is the
operator's name in brackets and then the text of the filter's value.

```
result=[in]failed;error
```

1. `ofParameter` is strict: brackets, a known operator and a filter that can be
   built, or the first of these that fails.
2. `recover` is lenient: a value without brackets is compared as it stands, an
   unknown operator is read as equality, and what still gives no filter is
   dropped.  Each recovery is reported; an empty value is dropped in silence,
   because it is how a link says that there is no filter.
-/

namespace ViewFilters.Filter

/-- The key and the value of the parameter that stands for a filter. -/
def parameter (f : Filter) : String × String :=
  (f.field, "[" ++ f.operator.name ++ "]" ++ f.value.render)

/-- The name between a bracket at the start and the first bracket that closes
it, and everything after that. -/
def splitBrackets? (raw : String) : Option (String × String) :=
  match raw.toList with
  | '[' :: cs =>
    if ']' ∈ cs then
      some (String.ofList (cutAt ']' cs).1, String.ofList (cutAt ']' cs).2)
    else none
  | _ => none

/-- The filter that a parameter stands for, or why there is none. -/
def ofParameter (catalog : Catalog) (key raw : String) : Except FilterError Filter :=
  match splitBrackets? raw with
  | none => .error (.malformed key raw)
  | some (name, rest) =>
    match Operator.named name with
    | .error e => .error e
    | .ok op => build catalog key op (Value.parse op.mode rest)

/-- The operator and the text that a parameter is taken to hold. -/
def guess (key raw : String) : Operator × String × List Event :=
  match splitBrackets? raw with
  | none => (.fallback, raw, [.operatorMissing key raw])
  | some (name, rest) =>
    match Operator.ofName? name with
    | some op => (op, rest, [])
    | none => (.fallback, rest, [.operatorMisread key name])

/-- The filter that a parameter can be taken to stand for, if any. -/
def recover (catalog : Catalog) (key raw : String) : Option Filter × List Event :=
  let (op, rest, events) := guess key raw
  let value := Value.parse op.mode rest
  if value.isEmpty then (none, events)
  else match build catalog key op value with
    | .ok f => (some f, events)
    | .error e => (none, events ++ [.parameterDropped key raw e])

end ViewFilters.Filter
