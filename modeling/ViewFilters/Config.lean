import ViewFilters.Context
import ViewFilters.Json

/-!
# ViewFilters.Config

The configuration of a view: which fields are special, two defaults and the
project.  As JSON it is a record in which every member may be missing; a missing
one has its standard value.
-/

namespace ViewFilters

/-- The configuration of a view. -/
structure Config where
  /-- Fields whose filters are always kept. -/
  pinnedFields : List String
  /-- Fields whose filters are not removed on their own. -/
  blockRemove : List String
  /-- Fields whose filters are not shown in links. -/
  hiddenFields : List String
  defaultPageSize : UInt32
  /-- The quiet time after a change before a request, in milliseconds. -/
  debounceMs : UInt64
  /-- Numeric fields besides those known from the start. -/
  numericFields : List String
  /-- Array fields besides those known from the start. -/
  arrayFields : List String
  /-- Boolean fields besides those known from the start. -/
  booleanFields : List String
  /-- The project that views are kept to. -/
  projectId : Option String
  deriving DecidableEq

namespace Config

/-- The configuration when nothing is configured. -/
def standard : Config where
  pinnedFields := ["project_id"]
  blockRemove := []
  hiddenFields := []
  defaultPageSize := 20
  debounceMs := 100
  numericFields := []
  arrayFields := []
  booleanFields := []
  projectId := none

/-- The surroundings that a configuration makes. -/
def context (config : Config) : Context where
  catalog := Catalog.builtin.extend config.numericFields config.arrayFields config.booleanFields
  policy := ⟨config.pinnedFields, config.blockRemove, config.hiddenFields⟩
  project := config.projectId
  defaultPageSize := config.defaultPageSize
  debounce := config.debounceMs.toNat

/-! ## as JSON -/

/-- The members of a configuration, in order. -/
def memberNames : List String :=
  ["pinned_fields", "block_remove", "hidden_fields", "default_page_size", "debounce_ms",
    "numeric_fields", "array_fields", "boolean_fields", "project_id"]

/-- The configuration of a JSON record.  Only the project may be `null`. -/
def ofJson? (j : Json) : Option Config :=
  match j.record? memberNames with
  | some [pinned, block, hidden, size, debounce, numeric, array, boolean, project] => do
    let pinnedFields ← Json.getD? Json.texts? standard.pinnedFields pinned
    let blockRemove ← Json.getD? Json.texts? standard.blockRemove block
    let hiddenFields ← Json.getD? Json.texts? standard.hiddenFields hidden
    let defaultPageSize ← Json.getD? Json.uint32? standard.defaultPageSize size
    let debounceMs ← Json.getD? Json.uint64? standard.debounceMs debounce
    let numericFields ← Json.getD? Json.texts? standard.numericFields numeric
    let arrayFields ← Json.getD? Json.texts? standard.arrayFields array
    let booleanFields ← Json.getD? Json.texts? standard.booleanFields boolean
    let projectId ← Json.getD? (Json.nullable? Json.text?) standard.projectId project
    some { pinnedFields, blockRemove, hiddenFields, defaultPageSize, debounceMs, numericFields,
           arrayFields, booleanFields, projectId }
  | _ => none

/-- A configuration as a JSON record.  Without a project there is no member for it. -/
def toJson (config : Config) : Json :=
  Json.ofMembers ([
    ("pinned_fields", Json.ofTexts config.pinnedFields),
    ("block_remove", Json.ofTexts config.blockRemove),
    ("hidden_fields", Json.ofTexts config.hiddenFields),
    ("default_page_size", Json.ofNat config.defaultPageSize.toNat),
    ("debounce_ms", Json.ofNat config.debounceMs.toNat),
    ("numeric_fields", Json.ofTexts config.numericFields),
    ("array_fields", Json.ofTexts config.arrayFields),
    ("boolean_fields", Json.ofTexts config.booleanFields)] ++
    match config.projectId with
    | some project => [("project_id", Json.ofText project)]
    | none => [])

end Config

end ViewFilters
