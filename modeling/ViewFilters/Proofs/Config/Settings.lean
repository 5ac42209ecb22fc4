import ViewFilters.Config.File
import ViewFilters.Proofs.Json.ReadBack

/-!
# ViewFilters.Proofs.Config.Settings

A configuration as its nine settings (`Config.settings`).  A `Setting` is a member with a
value of its kind; `Config.override` puts settings in the places of others.

1. Settings of different names all take their places, in whatever order they come
   (`mem_settings_override`).
2. As members of a record they are read as the standard configuration with them in place
   (`ofJson?_members`): each of the nine values is found under its name, or it is the
   standard one.
3. The record of a configuration has all of its settings, but for a project that is missing
   (`toJson_eq_ofMembers`).
-/

namespace ViewFilters.Config

/-! ## settings -/

/-- A member of a configuration, with a value of its kind. -/
inductive Setting where
  | pinnedFields (fields : List String)
  | blockRemove (fields : List String)
  | hiddenFields (fields : List String)
  | defaultPageSize (size : UInt32)
  | debounceMs (time : UInt64)
  | numericFields (fields : List String)
  | arrayFields (fields : List String)
  | booleanFields (fields : List String)
  | projectId (project : Option String)
  deriving DecidableEq

namespace Setting

/-- The name of the member. -/
def name : Setting → String
  | pinnedFields _ => "pinned_fields"
  | blockRemove _ => "block_remove"
  | hiddenFields _ => "hidden_fields"
  | defaultPageSize _ => "default_page_size"
  | debounceMs _ => "debounce_ms"
  | numericFields _ => "numeric_fields"
  | arrayFields _ => "array_fields"
  | booleanFields _ => "boolean_fields"
  | projectId _ => "project_id"

/-- The value as JSON.  No project is `null`. -/
def value : Setting → Json
  | pinnedFields fields | blockRemove fields | hiddenFields fields | numericFields fields
  | arrayFields fields | booleanFields fields => Json.ofTexts fields
  | defaultPageSize size => Json.ofNat size.toNat
  | debounceMs time => Json.ofNat time.toNat
  | projectId none => .null
  | projectId (some project) => Json.ofText project

/-- The member as it stands in an object. -/
def member (setting : Setting) : String × Json := (setting.name, setting.value)

end Setting

/-- The configuration with a setting in place of its own. -/
def set (config : Config) : Setting → Config
  | .pinnedFields pinnedFields => { config with pinnedFields }
  | .blockRemove blockRemove => { config with blockRemove }
  | .hiddenFields hiddenFields => { config with hiddenFields }
  | .defaultPageSize defaultPageSize => { config with defaultPageSize }
  | .debounceMs debounceMs => { config with debounceMs }
  | .numericFields numericFields => { config with numericFields }
  | .arrayFields arrayFields => { config with arrayFields }
  | .booleanFields booleanFields => { config with booleanFields }
  | .projectId projectId => { config with projectId }

/-- The configuration with settings in place of its own. -/
def override (config : Config) (given : List Setting) : Config := given.foldl set config

/-- All settings of a configuration. -/
def settings (config : Config) : List Setting :=
  [.pinnedFields config.pinnedFields, .blockRemove config.blockRemove,
    .hiddenFields config.hiddenFields, .defaultPageSize config.defaultPageSize,
    .debounceMs config.debounceMs, .numericFields config.numericFields,
    .arrayFields config.arrayFields, .booleanFields config.booleanFields,
    .projectId config.projectId]

variable {config : Config} {setting s : Setting} {given : List Setting}

theorem names_settings (config : Config) : config.settings.map Setting.name = memberNames := rfl

theorem Setting.name_mem_memberNames (setting : Setting) : setting.name ∈ memberNames := by
  cases setting <;> simp [name, memberNames]

/-! ## settings in place of others -/

/-- A setting takes the place of the one with its name. -/
theorem settings_set (config : Config) (s : Setting) :
    (config.set s).settings = config.settings.map fun t => if t.name = s.name then s else t := by
  cases s <;> rfl

theorem mem_settings_set :
    setting ∈ (config.set s).settings ↔
      setting = s ∨ setting ∈ config.settings ∧ setting.name ≠ s.name := by
  rw [settings_set, List.mem_map]
  constructor
  · rintro ⟨t, ht, rfl⟩
    split
    · exact Or.inl rfl
    · next hne => exact Or.inr ⟨ht, hne⟩
  · rintro (rfl | ⟨hmem, hne⟩)
    · have hname : setting.name ∈ config.settings.map Setting.name := by
        rw [names_settings]
        exact setting.name_mem_memberNames
      obtain ⟨t, ht, hname⟩ := List.mem_map.1 hname
      exact ⟨t, ht, if_pos hname⟩
    · exact ⟨setting, hmem, if_neg hne⟩

/-- Settings of different names all take their places, in whatever order they come. -/
theorem mem_settings_override (hdistinct : (given.map Setting.name).Nodup) :
    setting ∈ (config.override given).settings ↔
      setting ∈ given ∨ setting ∈ config.settings ∧ setting.name ∉ given.map Setting.name := by
  induction given generalizing config with
  | nil => simp [override]
  | cons s given ih =>
      obtain ⟨hs, hgiven⟩ := List.nodup_cons.1 hdistinct
      have hstep : config.override (s :: given) = (config.set s).override given := rfl
      rw [hstep, ih hgiven, mem_settings_set, List.mem_cons, List.map_cons, List.mem_cons, not_or]
      constructor
      · rintro (hmem | ⟨rfl | ⟨hmem, hne⟩, hnot⟩)
        · exact Or.inl (Or.inr hmem)
        · exact Or.inl (Or.inl rfl)
        · exact Or.inr ⟨hmem, hne, hnot⟩
      · rintro ((rfl | hmem) | ⟨hmem, hne, hnot⟩)
        · exact Or.inr ⟨Or.inl rfl, hs⟩
        · exact Or.inl hmem
        · exact Or.inr ⟨Or.inr ⟨hmem, hne⟩, hnot⟩

/-! ## the record -/

theorem lookup_member_of_mem (hdistinct : (given.map Setting.name).Nodup) (h : setting ∈ given) :
    (given.map Setting.member).lookup setting.name = some setting.value := by
  induction given with
  | nil => contradiction
  | cons s given ih =>
      obtain ⟨hs, hgiven⟩ := List.nodup_cons.1 hdistinct
      obtain rfl | hmem := List.mem_cons.1 h
      · simp [Setting.member]
      · have hne : setting.name ≠ s.name := fun heq => hs (heq ▸ List.mem_map_of_mem hmem)
        rw [List.map_cons, Setting.member, List.lookup_cons, beq_false_of_ne hne]
        exact ih hgiven hmem

theorem lookup_member_eq_none {name : String} (h : name ∉ given.map Setting.name) :
    (given.map Setting.member).lookup name = none := by
  simp only [List.lookup_eq_none_iff, List.mem_map, bne_iff_ne]
  rintro _ ⟨s, hs, rfl⟩ rfl
  exact h (List.mem_map_of_mem hs)

/-- A value of the record is that of the setting: it is given, or it is the standard one. -/
theorem getD?_lookup_member {α : Type} {read : Json → Option α} {name : String}
    (hdistinct : (given.map Setting.name).Nodup) (make : α → Setting) (get : Config → α)
    (hname : ∀ a, (make a).name = name) (hread : ∀ a, read (make a).value = some a)
    (hget : ∀ config a, make a ∈ config.settings ↔ a = get config) :
    Json.getD? read (get standard) ((given.map Setting.member).lookup name) =
      some (get (standard.override given)) := by
  have hmem : make (get (standard.override given)) ∈ (standard.override given).settings :=
    (hget _ _).2 rfl
  obtain hgiven | ⟨hstandard, hnot⟩ := (mem_settings_override hdistinct).1 hmem
  · have hlookup := lookup_member_of_mem hdistinct hgiven
    rw [hname] at hlookup
    rw [hlookup, Json.getD?_some, hread]
  · rw [hname] at hnot
    rw [lookup_member_eq_none hnot, (hget _ _).1 hstandard]
    rfl

theorem nullable?_value_projectId (project : Option String) :
    Json.nullable? Json.text? (Setting.projectId project).value = some project := by
  cases project <;> rfl

/-- **Records**: settings of different names are read as a record of the standard
configuration with these in place. -/
theorem ofJson?_members (hdistinct : (given.map Setting.name).Nodup) :
    ofJson? (Json.ofMembers (given.map Setting.member)) = some (standard.override given) := by
  have hnames : ((given.map Setting.member).map (·.1)).Nodup := by
    simpa [Setting.member, Function.comp_def] using hdistinct
  have htexts {name : String} (make : List String → Setting) (get : Config → List String)
      (hname : ∀ a, (make a).name = name) (hvalue : ∀ a, (make a).value = Json.ofTexts a) :=
    getD?_lookup_member hdistinct make get hname fun a => hvalue a ▸ Json.texts?_ofTexts a
  rw [ofJson?, Json.record?_ofMembers hnames]
  simp only [memberNames, List.map_cons, List.map_nil]
  rw [htexts .pinnedFields pinnedFields (fun _ => rfl) (fun _ => rfl) (by simp [settings]),
    htexts .blockRemove blockRemove (fun _ => rfl) (fun _ => rfl) (by simp [settings]),
    htexts .hiddenFields hiddenFields (fun _ => rfl) (fun _ => rfl) (by simp [settings]),
    getD?_lookup_member hdistinct .defaultPageSize defaultPageSize (fun _ => rfl)
      Json.uint32?_ofNat (by simp [settings]),
    getD?_lookup_member hdistinct .debounceMs debounceMs (fun _ => rfl)
      Json.uint64?_ofNat (by simp [settings]),
    htexts .numericFields numericFields (fun _ => rfl) (fun _ => rfl) (by simp [settings]),
    htexts .arrayFields arrayFields (fun _ => rfl) (fun _ => rfl) (by simp [settings]),
    htexts .booleanFields booleanFields (fun _ => rfl) (fun _ => rfl) (by simp [settings]),
    getD?_lookup_member hdistinct .projectId projectId (fun _ => rfl)
      nullable?_value_projectId (by simp [settings])]
  rfl

/-! ## the record of a configuration -/

/-- The settings that are written: a project that is missing is left out. -/
def stated (config : Config) : List Setting := config.settings.filter (· ≠ .projectId none)

theorem toJson_eq_ofMembers (config : Config) :
    config.toJson = Json.ofMembers (config.stated.map Setting.member) := by
  cases hproject : config.projectId <;>
    simp [toJson, stated, settings, Setting.member, Setting.name, Setting.value, hproject]

theorem nodup_names_stated (config : Config) : (config.stated.map Setting.name).Nodup := by
  have hnames : memberNames.Nodup := by decide
  rw [← names_settings config] at hnames
  exact hnames.sublist (List.filter_sublist.map Setting.name)

theorem override_stated (config : Config) : standard.override config.stated = config := by
  obtain ⟨_, _, _, _, _, _, _, _, project⟩ := config
  cases project <;> rfl

theorem Setting.wellFormed_value (setting : Setting) : setting.value.WellFormed := by
  cases setting with
  | pinnedFields fields | blockRemove fields | hiddenFields fields | numericFields fields
  | arrayFields fields | booleanFields fields => exact Json.wellFormed_ofTexts fields
  | defaultPageSize size => exact Json.wellFormed_ofNat size.toNat
  | debounceMs time => exact Json.wellFormed_ofNat time.toNat
  | projectId project =>
      cases project with
      | none => exact .null
      | some project => exact Json.wellFormed_ofText project

theorem wellFormed_ofMembers_settings (given : List Setting) :
    (Json.ofMembers (given.map Setting.member)).WellFormed := by
  refine Json.wellFormed_ofMembers (List.forall_mem_map.2 fun setting _ => ?_)
  exact setting.wellFormed_value

end ViewFilters.Config
