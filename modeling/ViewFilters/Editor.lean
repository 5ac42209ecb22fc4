import ViewFilters.Criteria.Link
import ViewFilters.Step

/-!
# ViewFilters.Editor

The criteria of a view while someone edits them, with the filter that is being
typed in and the history of links.

1. After every change the link to the new criteria is pushed onto the history,
   unless it is the one being shown.
2. Any change of the filters goes back to the first page.  Changes of the page
   leave the filters alone.
3. A protected filter is not removed on its own; a pinned one is not cleared
   either.
4. An operation that fails leaves everything as it was.
-/

namespace ViewFilters

/-- A filter that is being typed in. -/
structure Draft where
  field : Option String := none
  operator : Option Operator := none
  value : Option String := none
  deriving DecidableEq

/-- A draft in which nothing was entered. -/
def Draft.blank : Draft := {}

/-- Whether nothing was entered. -/
def Draft.isBlank (d : Draft) : Bool := d = blank

/-- Criteria being edited. -/
structure Editor where
  criteria : Criteria
  draft : Draft
  history : History
  deriving DecidableEq

namespace Editor

/-! ## opening -/

/-- An editor without filters. -/
def blank (ctx : Context) (history : History) : Editor :=
  ⟨Criteria.blank ctx, Draft.blank, history⟩

/-- An editor with the criteria of a query.  The history stays as it is. -/
def ofQuery (ctx : Context) (query : String) (history : History) : Editor × List Event :=
  let (criteria, events) := Criteria.ofQuery ctx query
  (⟨criteria, Draft.blank, history⟩, events)

/-- An editor with the criteria of the link being shown. -/
def mount (ctx : Context) (history : History) : Editor × List Event :=
  ofQuery ctx history.current history

theorem criteria_ofQuery (ctx : Context) (text : String) (h : History) :
    (ofQuery ctx text h).1.criteria = (Criteria.ofQuery ctx text).1 := by
  simp only [ofQuery]

/-! ## the link -/

/-- The query of the link to the criteria. -/
def query (ctx : Context) (e : Editor) : String := e.criteria.query ctx.policy

/-- Push the link to the criteria, unless it is the one being shown. -/
def commit (ctx : Context) (e : Editor) : Editor × List Event :=
  if e.query ctx = e.history.current then (e, [])
  else ({ e with history := e.history.push (e.query ctx) }, [.committed (e.query ctx)])

/-- Show other criteria, and answer whether this is a change. -/
def settle (ctx : Context) (e : Editor) (criteria : Criteria) (changed : Bool) :
    Step Editor Bool :=
  let (e', events) := commit ctx { e with criteria }
  ⟨e', events, changed⟩

/-- Do nothing, and answer that nothing changed. -/
def stay (e : Editor) : Step Editor Bool := ⟨e, [], false⟩

/-! ## filters -/

/-- Remove the filter on a field, unless the field is protected. -/
def remove (ctx : Context) (e : Editor) (field : String) : Step Editor Bool :=
  if ctx.policy.isProtected field then ⟨e, [.removalRefused field], false⟩
  else match e.criteria.on? field with
    | none => e.stay
    | some _ => e.settle ctx ((e.criteria.without field).withPage 1) true

/-- Filter on a field.  Without a value, or with an empty one, remove its filter. -/
def update (ctx : Context) (e : Editor) (field : String) (op : Operator) (value : Option Value) :
    Step Editor (Except FilterError Bool) :=
  match value.filter (!·.isEmpty) with
  | none => (e.remove ctx field).map .ok
  | some v =>
    match Filter.build ctx.catalog field op v with
    | .error err => ⟨e, [], .error err⟩
    | .ok f =>
      let changed := e.criteria.on? field ≠ some f || e.criteria.page ≠ 1
      (e.settle ctx ((e.criteria.put f).withPage 1) changed).map .ok

/-- Filter on a field with the name of an operator and raw input.  An unknown
name is taken for equality. -/
def updateNamed (ctx : Context) (e : Editor) (field name : String) (raw : Option String) :
    Step Editor (Except FilterError Bool) :=
  let (op, events) := Operator.orFallback name
  let step := e.update ctx field op (raw.map (Value.parse op.mode))
  { step with events := events ++ step.events }

/-- Remove all filters but the pinned ones, and empty the draft. -/
def clearAll (ctx : Context) (e : Editor) : Step Editor Bool :=
  let kept := e.criteria.pinnedOnly ctx.policy
  let changed := kept.filters.length ≠ e.criteria.filters.length || e.criteria.page ≠ 1
  { e with draft := Draft.blank }.settle ctx (kept.withPage 1) changed

/-! ## pages -/

/-- Go to a page. -/
def setPage (ctx : Context) (e : Editor) (page : UInt32) : Step Editor Bool :=
  if e.criteria.page = page then e.stay
  else e.settle ctx (e.criteria.withPage page) true

/-- Change the page size, and go to the first page. -/
def setPageSize (ctx : Context) (e : Editor) (size : UInt32) : Step Editor Bool :=
  if e.criteria.pageSize = size ∧ e.criteria.page = 1 then e.stay
  else e.settle ctx ((e.criteria.withPageSize size).withPage 1) true

/-! ## the draft -/

/-- Choose the field of the draft.  An operator that the field does not take is
dropped. -/
def setDraftField (ctx : Context) (e : Editor) (field : String) : Editor :=
  { e with draft := { e.draft with
      field := some field
      operator := e.draft.operator.filter (ctx.catalog.isLegal field) } }

/-- Choose the operator of the draft. -/
def setDraftOperator (e : Editor) (op : Operator) : Editor :=
  { e with draft := { e.draft with operator := some op } }

/-- Enter the value of the draft. -/
def setDraftValue (e : Editor) (value : String) : Editor :=
  { e with draft := { e.draft with value := some value } }

/-- Filter by the draft and empty it.  The answer is whether the draft was
complete; one that fails is kept. -/
def applyDraft (ctx : Context) (e : Editor) : Step Editor (Except FilterError Bool) :=
  match e.draft.field, e.draft.value with
  | some field, some raw =>
    let op := e.draft.operator.getD .fallback
    let step := e.update ctx field op (some (Value.parse op.mode raw))
    match step.result with
    | .error err => { step with result := .error err }
    | .ok _ => ⟨{ step.state with draft := Draft.blank }, step.events, .ok true⟩
  | _, _ => e.stay.map .ok

end Editor

end ViewFilters
