import ViewFilters.Proofs.Config.Settings

/-!
# ViewFilters.Proofs.Config.ReadBack

A configuration is read back as it was saved, in three layers:

* the record that it makes gives it back (`ofJson?_toJson`);
* its text is that record, so the text gives back the configuration, or the
  error that its pages have no room (`ofText_toText`);
* so does the file, and what is loaded is saved as the same file
  (`saved_reads_back`).
-/

namespace ViewFilters.Config

/-! ## the record -/

theorem wellFormed_toJson (config : Config) : config.toJson.WellFormed := by
  rw [toJson_eq_ofMembers]
  exact wellFormed_ofMembers_settings config.stated

/-- **Records**: the record of a configuration gives it back. -/
theorem ofJson?_toJson (config : Config) : ofJson? config.toJson = some config := by
  rw [toJson_eq_ofMembers, ofJson?_members config.nodup_names_stated, override_stated]

/-! ## the text -/

/-- **Texts**: the text of a configuration gives it back, if its pages have room. -/
theorem ofText_toText (config : Config) : ofText config.toText = config.validate := by
  rw [ofText, toText, Json.read?_pretty config.wellFormed_toJson, Option.bind_some, ofJson?_toJson]

/-! ## the file -/

theorem load_toText (config : Config) :
    load (.file (Utf8.encode config.toText.toList)) = config.validate := by
  rw [load, Utf8.decode?_encode]
  dsimp only
  rw [String.ofList_toList, ofText_toText]

/-- **Files**: where a file can be written, every configuration is saved.  A page
size of at least one is read back with all the rest, and saving again writes the
same text; a page size of zero is refused when the file is loaded. -/
theorem saved_reads_back (config : Config) (place : ConfigFile)
    (hplace : place = .vacant ∨ ∃ bytes, place = .file bytes) :
    ∃ file, config.save place = .ok file ∧
      (1 ≤ config.defaultPageSize → load file = .ok config) ∧
      (config.defaultPageSize = 0 → load file = .error .zeroPageSize) ∧
      ∀ loaded, load file = .ok loaded →
        loaded.toText = config.toText ∧ loaded.save file = .ok file := by
  have hsave : config.save place = .ok (.file (Utf8.encode config.toText.toList)) := by
    obtain rfl | ⟨bytes, rfl⟩ := hplace
    · rfl
    · rfl
  refine ⟨_, hsave, fun hsize => ?_, fun hsize => ?_, fun loaded hload => ?_⟩
  · have hne : config.defaultPageSize ≠ 0 := by
      intro hzero
      rw [hzero] at hsize
      contradiction
    rw [load_toText, validate, if_neg hne]
  · rw [load_toText, validate, if_pos hsize]
  · have hloaded : loaded = config := by
      rw [load_toText, validate] at hload
      split at hload
      · contradiction
      · exact (Except.ok.inj hload).symm
    rw [hloaded]
    exact ⟨rfl, rfl⟩

/-- A configuration with quotes, control characters, characters beyond ASCII and the
largest numbers. -/
def intricate : Config :=
  { standard with
    pinnedFields := ["a\"b\\c/", "\x01\n\t"]
    hiddenFields := ["", "é", "😀"]
    defaultPageSize := 4294967295
    debounceMs := 18446744073709551615
    projectId := some "null" }

theorem saved_reads_back_of_intricate :
    (∃ file, intricate.save .vacant = .ok file ∧ load file = .ok intricate) ∧
      ∃ file, { intricate with defaultPageSize := 0 }.save (.file []) = .ok file ∧
        load file = .error .zeroPageSize := by
  obtain ⟨file, hsave, hload, -⟩ := saved_reads_back intricate .vacant (Or.inl rfl)
  obtain ⟨file', hsave', -, hload', -⟩ :=
    saved_reads_back { intricate with defaultPageSize := 0 } (.file []) (Or.inr ⟨[], rfl⟩)
  exact ⟨⟨file, hsave, hload (by decide)⟩, file', hsave', hload' rfl⟩

end ViewFilters.Config
