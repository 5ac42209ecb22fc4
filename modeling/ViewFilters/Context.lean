import ViewFilters.Field

/-!
# ViewFilters.Context

What a view is told about its surroundings: the catalog of fields, which fields
are treated specially, the project it is kept to, and two defaults.
-/

namespace ViewFilters

/-- The fields that are treated specially. -/
structure Policy where
  /-- Kept when everything is cleared, and never removed. -/
  pinned : List String
  /-- Never removed on their own, but cleared with everything. -/
  blockRemove : List String
  /-- Left out of links. -/
  hidden : List String

namespace Policy

/-- Whether a field's filter stays when everything is cleared. -/
def isPinned (policy : Policy) (field : String) : Bool := field ∈ policy.pinned

/-- Whether a field's filter cannot be removed on its own. -/
def isProtected (policy : Policy) (field : String) : Bool :=
  policy.isPinned field || field ∈ policy.blockRemove

/-- Whether a field's filter is left out of links. -/
def isHidden (policy : Policy) (field : String) : Bool := field ∈ policy.hidden

/-- Pinned fields are protected. -/
theorem isProtected_of_isPinned {policy : Policy} {field : String}
    (h : policy.isPinned field = true) : policy.isProtected field = true := by
  simp [isProtected, h]

end Policy

/-- What a view is told about its surroundings. -/
structure Context where
  catalog : Catalog
  policy : Policy
  /-- The project that the view is kept to. -/
  project : Option String
  defaultPageSize : UInt32
  /-- The quiet time after a change before a request, in milliseconds. -/
  debounce : Nat

namespace Context

/-- The same surroundings, for one project. -/
def withProject (ctx : Context) (project : String) : Context :=
  { ctx with project := some project }

/-- The same surroundings, with other fields that cannot be removed. -/
def withBlockRemove (ctx : Context) (fields : List String) : Context :=
  { ctx with policy := { ctx.policy with blockRemove := fields } }

end Context

end ViewFilters
