import TrustRoles.Proofs.Toml.Document
import TrustRoles.Settings.Document

namespace TrustRoles

namespace Settings

def lines (s : Settings) : List Toml.Line :=
  [⟨"certificate_paths", Toml.writtenArray (s.certificatePaths.map fun p => written p.text),
      .array (s.certificatePaths.map fun p => .text p.text)⟩,
    ⟨"output_format", written s.format.name, .text s.format.name⟩,
    ⟨"log_level", written s.logLevel, .text s.logLevel⟩,
    ⟨"list_certificates", Toml.writtenBoolean s.listed, .boolean s.listed⟩]

theorem toList_toText (s : Settings) : s.toText.toList = s.lines.flatMap Toml.Line.written := by
  simp [toText, lines, Toml.Line.written]

theorem spells_written (depth : Nat) (s : String) : Toml.Spells depth (written s) (.text s) := by
  have spells := Toml.spells_text depth s.toList
  rwa [String.ofList_toList] at spells

theorem spells_paths (ps : List Path) : Toml.Spells Toml.depthLimit
    (Toml.writtenArray (ps.map fun p => written p.text))
    (.array (ps.map fun p => .text p.text)) := by
  have items : ∀ i ∈ ps.map fun p => (written p.text, Toml.Value.text p.text),
      Toml.Spells 78 i.1 i.2 := by
    simp only [List.forall_mem_map]
    exact fun p _ => spells_written 78 p.text
  have array := Toml.spells_array items
  rwa [List.map_map, List.map_map] at array

def keys : List String := ["certificate_paths", "output_format", "log_level", "list_certificates"]

theorem map_key_lines (s : Settings) : s.lines.map Toml.Line.key = keys := rfl

theorem bare_keys : ∀ k ∈ keys, k ≠ "" ∧ k.toList.all Toml.isBareKeyChar = true := by
  decide

theorem legal_lines (s : Settings) : ∀ l ∈ s.lines, l.Legal := by
  intro l mem
  obtain ⟨named, bare⟩ := bare_keys l.key (s.map_key_lines ▸ List.mem_map_of_mem mem)
  refine ⟨named, List.all_eq_true.mp bare, ?_⟩
  simp only [lines, List.mem_cons, List.not_mem_nil, or_false] at mem
  rcases mem with rfl | rfl | rfl | rfl
  · exact spells_paths s.certificatePaths
  · exact spells_written _ s.format.name
  · exact spells_written _ s.logLevel
  · exact Toml.spells_boolean _ s.listed

theorem paths?_texts (ps : List Path) :
    paths? (.array (ps.map fun p => .text p.text)) = some ps := by
  induction ps with
  | nil => rfl
  | cons p ps ih =>
      simp only [paths?] at ih
      simp [paths?, ih]

theorem ofEntries?_lines (s : Settings) : ofEntries? (s.lines.map Toml.Line.entry) = some s := by
  simp [ofEntries?, field?, lines, Toml.Line.entry, List.lookup_cons, paths?_texts, format?, text?,
    boolean?]

theorem ofText_toText (s : Settings) : ofText s.toText = .ok s := by
  have distinct : (s.lines.map Toml.Line.key).Nodup := by
    rw [map_key_lines]
    decide
  rw [ofText, toList_toText, Toml.document?_written s.legal_lines distinct, Option.bind_some,
    ofEntries?_lines]

end Settings

end TrustRoles
