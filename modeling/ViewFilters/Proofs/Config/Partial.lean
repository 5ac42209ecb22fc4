import ViewFilters.Proofs.Config.Settings

/-!
# ViewFilters.Proofs.Config.Partial

A file with some of the members of a configuration.  Those that it gives take the
place of the standard ones, and the others stay:

```
{"debounce_ms": 7, "theme": {"dark": true}, "pinned_fields": []}
   =  the standard configuration, but for the quiet time and the pinned fields
```

What is loaded has the settings that are given, and the standard ones of other names
(`load_of_written`).  Neither their order nor the members with other names have a part
in this.
-/

namespace ViewFilters.Config

variable {given : List Setting}

/-! ## the file -/

theorem validate_override (hdistinct : (given.map Setting.name).Nodup) :
    (standard.override given).validate =
      if .defaultPageSize 0 ∈ given then .error .zeroPageSize
      else .ok (standard.override given) := by
  have hzero : (standard.override given).defaultPageSize = 0 ↔ .defaultPageSize 0 ∈ given := by
    have hmem := @mem_settings_override standard (.defaultPageSize 0) given hdistinct
    have hstandard : standard.defaultPageSize ≠ 0 := by decide
    simpa [hstandard, settings, eq_comm] using hmem
  simp only [validate, hzero]

/-- **Partial files**: a file that is an object with some settings, of different names,
and with any members of other names among them is loaded as the standard configuration with
these settings in place, or refused when they leave pages without room.  The configuration
has the settings that are given, and of the other names the standard ones.

The object may be written in any way that JSON allows.  Its names are texts; the values of the
members of other names are any JSON, strings that have no text among them. -/
theorem load_of_written {members : List (String × Json)} {text : List Char}
    (hdistinct : (given.map Setting.name).Nodup)
    (hgiven : members.filter (fun m => m.1 ∈ memberNames) = given.map Setting.member)
    (htext : Json.Written (Json.ofMembers members) text) :
    load (.file (Utf8.encode text)) =
        (if .defaultPageSize 0 ∈ given then .error .zeroPageSize
          else .ok (standard.override given)) ∧
      ∀ setting, setting ∈ (standard.override given).settings ↔
        setting ∈ given ∨ setting ∈ standard.settings ∧ setting.name ∉ given.map Setting.name := by
  refine ⟨?_, fun setting => mem_settings_override hdistinct⟩
  have hjson : ofJson? (Json.ofMembers members) = some (standard.override given) := by
    rw [← ofJson?_members hdistinct, ← hgiven, ofJson?, ofJson?, Json.record?_ofMembers_filter]
  rw [load, Utf8.decode?_encode]
  dsimp only
  rw [ofText, Json.read?_of_written htext, Option.bind_some, hjson]
  exact validate_override hdistinct

/-! ## a file with white space and escapes -/

/-- The members of a file, out of order and among others. -/
def intertwined : List (String × Json) :=
  [("x", .array [.null, .string none]), ("project_id", .null), ("x", .bool true),
    ("debounce_ms", Json.ofNat 7)]

/-- The text of the file.  There is an escape in a name, and half a surrogate pair in a value. -/
def intertwinedText : List Char :=
  '{' :: (joined ',' ["\"x\": [null, \"\\ud800\"]".toList, "\"\\u0070roject_id\":null".toList,
    "\"x\":true".toList, "\"debounce_ms\":7".toList] ++ (['\n'] ++ ['}']))

open Json in
/-- Each part is one of the ways to write it. -/
theorem written_intertwined : Written (ofMembers intertwined) intertwinedText := by
  have hspace : IsBlank [' '] := isBlank_cons rfl isBlank_nil
  have hkey (name : String) : KeyText (some name) (quote (some name) ++ [':']) :=
    .mk isBlank_nil (quotedText_quote (some name)) isBlank_nil
  have hproject : KeyText (some "project_id") "\"\\u0070roject_id\":".toList := by
    have hescape : UnitText 'p'.toNat "\\u0070".toList := .number rfl
    exact .mk isBlank_nil (.text (.cons hescape (unitsText_flatMap_escapeChar "roject_id".toList))
      (spells_map_toNat "project_id".toList)) isBlank_nil
  have hhalf : Written (.string none) " \"\\ud800\"".toList :=
    .padded hspace (.string (quotedText_quote none)) isBlank_nil
  have hitems : ∀ item ∈ [(Json.null, "null".toList), (.string none, " \"\\ud800\"".toList)],
      Written item.1 item.2 :=
    List.forall_mem_cons.2 ⟨.null, List.forall_mem_singleton.2 hhalf⟩
  have harray : Written (.array [.null, .string none]) " [null, \"\\ud800\"]".toList :=
    .padded hspace (.array hitems isBlank_nil) isBlank_nil
  have hseven : Written (.ofNat 7) "7".toList := by
    have hdigits : Decimal.digits 7 = ['7'] := by
      rw [Decimal.digits, if_pos (by decide)]
      rfl
    have hnumber : Written (.ofNat 7) (Decimal.text 7).toList :=
      written_layout (wellFormed_ofNat 7) 0
    rwa [Decimal.text, String.toList_ofList, hdigits] at hnumber
  have hmembers : ∀ m ∈ ([
      ⟨some "x", _, .array [.null, .string none], " [null, \"\\ud800\"]".toList, hkey "x"⟩,
      ⟨some "project_id", _, .null, "null".toList, hproject⟩,
      ⟨some "x", _, .bool true, "true".toList, hkey "x"⟩,
      ⟨some "debounce_ms", _, .ofNat 7, "7".toList, hkey "debounce_ms"⟩] : List MemberText),
      Written m.value m.text := by
    simp only [List.forall_mem_cons]
    exact ⟨harray, .null, .boolTrue, hseven, fun _ h => absurd h List.not_mem_nil⟩
  exact .object hmembers (isBlank_cons rfl isBlank_nil : IsBlank ['\n'])

theorem load_of_written_of_intertwined :
    let zero := Json.ofMembers [("default_page_size", .ofNat 0)]
    load (.file (Utf8.encode intertwinedText)) = .ok { standard with debounceMs := 7 } ∧
      load (.file (Utf8.encode (Json.layout 0 zero))) = .error .zeroPageSize := by
  intro zero
  have hgiven : intertwined.filter (fun m => m.1 ∈ memberNames) =
      [Setting.projectId none, .debounceMs 7].map Setting.member := rfl
  have hzero : [("default_page_size", Json.ofNat 0)].filter (fun m => m.1 ∈ memberNames) =
      [Setting.defaultPageSize 0].map Setting.member := rfl
  have hwritten := Json.written_layout (wellFormed_ofMembers_settings [.defaultPageSize 0]) 0
  have hfirst := (load_of_written (by decide) hgiven written_intertwined).1
  have hsecond := (load_of_written (by decide) hzero hwritten).1
  rw [if_neg (by simp)] at hfirst
  rw [if_pos (by simp)] at hsecond
  exact ⟨hfirst, hsecond⟩

end ViewFilters.Config
