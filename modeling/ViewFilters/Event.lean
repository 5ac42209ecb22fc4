import ViewFilters.Error

/-!
# ViewFilters.Event

What the library reports while it works: recoveries from unreadable input as
warnings, and steps that someone debugging a view wants to see.  An event is
its cause; level, wording and attached data are read off it.
-/

namespace ViewFilters

/-- How much an event matters. -/
inductive Level where
  | debug
  | warn
  deriving DecidableEq

/-- The name of a level. -/
def Level.name : Level → String
  | .debug => "debug"
  | .warn => "warn"

/-- Something worth reporting. -/
inductive Event where
  /-- An unknown operator was named in a control, and equality is used. -/
  | operatorReplaced (name : String)
  /-- An unknown operator stands in a link, and equality is read. -/
  | operatorMisread (field name : String)
  /-- A value in a link has no operator, and equality is read. -/
  | operatorMissing (field raw : String)
  /-- A parameter of a link gives no filter. -/
  | parameterDropped (field raw : String) (cause : FilterError)
  /-- A page number or size in a link cannot be used. -/
  | countIgnored (key raw : String)
  /-- A filter that must stay was to be removed. -/
  | removalRefused (field : String)
  /-- A query became the newest entry of the history. -/
  | committed (query : String)
  /-- A view cannot be kept to its project. -/
  | scopeFailed (project : String) (cause : FilterError)
  /-- A response came for a state that has passed. -/
  | staleDiscarded (generation : Nat)
  /-- A request failed. -/
  | fetchFailed (reason : String)
  deriving DecidableEq

/-- A piece of data attached to an event. -/
inductive Datum where
  | text (s : String)
  | number (n : Nat)
  deriving DecidableEq

namespace Event

/-- Recoveries and failures are warnings, the rest is for debugging. -/
def level : Event → Level
  | operatorReplaced _ | operatorMisread _ _ | operatorMissing _ _ | parameterDropped _ _ _
  | countIgnored _ _ | scopeFailed _ _ | fetchFailed _ => .warn
  | removalRefused _ | committed _ | staleDiscarded _ => .debug

/-- The wording of an event. -/
def message : Event → String
  | operatorReplaced name =>
    (FilterError.unknownOperator name).message ++ "; falling back to '" ++
      Operator.fallback.name ++ "'"
  | operatorMisread _ name =>
    (FilterError.unknownOperator name).message ++ "; reading as '" ++
      Operator.fallback.name ++ "'"
  | operatorMissing _ _ => "no [operator] prefix; reading as equality"
  | parameterDropped _ _ cause => "dropping filter parameter: " ++ cause.message
  | countIgnored _ _ => "ignoring invalid pagination value"
  | removalRefused _ => "remove ignored for protected field"
  | committed _ => "committing filter state to URL"
  | scopeFailed project cause =>
    "cannot scope view to project " ++ project ++ ": " ++ cause.message
  | staleDiscarded _ => "discarding stale response"
  | fetchFailed reason => "fetch failed: " ++ reason

/-- The data attached to an event, by name. -/
def data : Event → List (String × Datum)
  | operatorReplaced name => [("operator", .text name)]
  | operatorMisread field _ => [("field", .text field)]
  | operatorMissing field raw => [("field", .text field), ("raw", .text raw)]
  | parameterDropped field raw _ => [("field", .text field), ("raw", .text raw)]
  | countIgnored key raw => [("key", .text key), ("raw", .text raw)]
  | removalRefused field => [("field", .text field)]
  | committed query => [("query", .text query)]
  | scopeFailed _ _ => []
  | staleDiscarded generation => [("generation", .number generation)]
  | fetchFailed _ => []

end Event

/-- The operator of a name, or equality with a warning when there is none. -/
def Operator.orFallback (name : String) : Operator × List Event :=
  match ofName? name with
  | some op => (op, [])
  | none => (fallback, [.operatorReplaced name])

end ViewFilters
