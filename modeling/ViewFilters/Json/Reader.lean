import ViewFilters.Json
import ViewFilters.Json.Token

/-!
# ViewFilters.Json.Reader

JSON text read by a machine that takes one token at a time.  Its state says
what may come next, and a stack holds the arrays and objects that are open:

```
value    a value                    after     a value has ended
firstItem  a value or the end       firstKey  a key or the end
key      a key                      colon     the colon after a key
```

Since the stack is a list, nesting has no limit.
-/

namespace ViewFilters.Json

/-- The members of an object. -/
abbrev Members := List (Option String × Json)

/-- An array or object that is open, its parts so far in reverse order.  An
object waits for the value of `key`. -/
inductive Frame where
  | items (done : List Json)
  | members (done : Members) (key : Option String)

/-- What may come next. -/
inductive Reader where
  | value (stack : List Frame)
  | firstItem (stack : List Frame)
  | firstKey (stack : List Frame)
  | key (done : Members) (stack : List Frame)
  | colon (done : Members) (key : Option String) (stack : List Frame)
  | after (v : Json) (stack : List Frame)

namespace Reader

/-- Take the first token of a value. -/
def begin? (stack : List Frame) : Token → Option Reader
  | .beginArray => some (.firstItem stack)
  | .beginObject => some (.firstKey stack)
  | .null => some (.after .null stack)
  | .bool b => some (.after (.bool b) stack)
  | .number literal => some (.after (.number literal) stack)
  | .string text => some (.after (.string text) stack)
  | _ => none

/-- Take a token after a value that belongs to an open array or object. -/
def continue? (v : Json) : List Frame → Token → Option Reader
  | .items done :: stack, .comma => some (.value (.items (v :: done) :: stack))
  | .items done :: stack, .endArray => some (.after (.array (v :: done).reverse) stack)
  | .members done k :: stack, .comma => some (.key ((k, v) :: done) stack)
  | .members done k :: stack, .endObject =>
    some (.after (.object ((k, v) :: done).reverse) stack)
  | _, _ => none

/-- Take a token. -/
def take? (r : Reader) (t : Token) : Option Reader :=
  match r with
  | .value stack => begin? stack t
  | .firstItem stack =>
    if t = .endArray then some (.after (.array []) stack) else begin? (.items [] :: stack) t
  | .firstKey stack =>
    match t with
    | .endObject => some (.after (.object []) stack)
    | .string k => some (.colon [] k stack)
    | _ => none
  | .key done stack =>
    match t with
    | .string k => some (.colon done k stack)
    | _ => none
  | .colon done k stack =>
    if t = .colon then some (.value (.members done k :: stack)) else none
  | .after v stack => continue? v stack t

/-- The value that has been read, if nothing is open. -/
def result? : Reader → Option Json
  | .after v [] => some v
  | _ => none

end Reader

/-- The value of tokens. -/
def ofTokens? (ts : List Token) : Option Json :=
  (ts.foldlM Reader.take? (.value [])).bind Reader.result?

/-- The value of JSON text. -/
def read? (text : String) : Option Json := (tokens? text.toList).bind ofTokens?

end ViewFilters.Json
