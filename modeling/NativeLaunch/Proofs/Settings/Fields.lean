import Mathlib.Data.List.Forall2
import NativeLaunch.Settings

/-!
# Settings field by field

A mapping may leave out any of the four fields, give the others in any order, and hold what is no
field of settings.  This file defines:

* `Settings.Field` with its key, and `Field.Agrees` — two settings have the same value in a field;
* `Settings.StandsForText` and its like — what a node of a document stands for;
* `Settings.Holds` — pairs of a mapping hold some fields of settings, among others with other keys.

Each pair sets its own field or none (`Given.add?_field`, `Given.add?_other`), so that what is read is
known field by field (`exists_ofDocument?`).
-/

namespace NativeLaunch
namespace Settings

open Yaml (Node Document)

/-! ## Fields -/

/-- A field of settings. -/
inductive Field
  | dataDirectory
  | programName
  | extraArguments
  | nativesDirectory
deriving DecidableEq, Repr

namespace Field

/-- The key of a field in a settings file. -/
def key : Field → String
  | .dataDirectory => "data_dir"
  | .programName => "program_name"
  | .extraArguments => "extra_args"
  | .nativesDirectory => "natives_dir"

/-- Two settings have the same value in a field. -/
def Agrees (settings other : Settings) : Field → Prop
  | .dataDirectory => settings.dataDirectory = other.dataDirectory
  | .programName => settings.programName = other.programName
  | .extraArguments => settings.extraArguments = other.extraArguments
  | .nativesDirectory => settings.nativesDirectory = other.nativesDirectory

variable {settings other third : Settings} {field : Field}

theorem Agrees.refl (settings : Settings) (field : Field) : field.Agrees settings settings := by
  cases field <;> rfl

theorem Agrees.symm (h : field.Agrees settings other) : field.Agrees other settings := by
  cases field <;> exact Eq.symm h

theorem Agrees.trans (h : field.Agrees settings other) (h' : field.Agrees other third) :
    field.Agrees settings third := by
  cases field <;> exact Eq.trans h h'

/-- Settings are their fields. -/
theorem eq_of_agrees (h : ∀ field : Field, field.Agrees settings other) : settings = other := by
  obtain ⟨_, _, _, _⟩ := settings
  obtain ⟨_, _, _, _⟩ := other
  cases h .dataDirectory
  cases h .programName
  cases h .extraArguments
  cases h .nativesDirectory
  rfl

end Field

/-! ## What nodes stand for -/

section Nodes

variable (document : Document)

/-- A node stands for a text: it is a scalar or an alias of one, whatever its style and tag. -/
def StandsForText (node : Node) (text : String) : Prop :=
  ∃ label tag plain, document.resolve? node = some (.scalar label tag plain text.toList)

/-- A node stands for a list of texts. -/
def StandsForTexts (node : Node) (texts : List String) : Prop :=
  ∃ label items, document.resolve? node = some (.sequence label items) ∧
    List.Forall₂ (StandsForText document) items texts

/-- A node stands for nothing: it is empty or a word for null, without quotes, and with no tag or
with that of null. -/
def StandsForNull (node : Node) : Prop :=
  (∃ label text, document.resolve? node = some (.scalar label none true text) ∧
      (text = [] ∨ Yaml.Schema.isNull text = true)) ∨
    ∃ label text, document.resolve? node = some (.scalar label (some nullTag) true text) ∧
      Yaml.Schema.isNull text = true

/-- A node stands for a text where there might be none: it has quotes, or a tag other than that of
null, or it is no word for null. -/
def StandsForSomeText (node : Node) (text : String) : Prop :=
  ∃ label tag plain, document.resolve? node = some (.scalar label tag plain text.toList) ∧
    (plain = false ∨ (∃ other, tag = some other ∧ other ≠ nullTag) ∨
      tag = none ∧ text.toList ≠ [] ∧ Yaml.Schema.isNull text.toList = false)

end Nodes

/-- The value of a field of settings. -/
inductive HoldsValue (document : Document) (settings : Settings) : Field → Node → Prop
  | dataDirectory {node : Node} {text : String} (htext : StandsForText document node text)
      (hpath : settings.dataDirectory = .ofString text) :
      HoldsValue document settings .dataDirectory node
  | programName {node : Node} (htext : StandsForText document node settings.programName) :
      HoldsValue document settings .programName node
  | extraArguments {node : Node} (htexts : StandsForTexts document node settings.extraArguments) :
      HoldsValue document settings .extraArguments node
  | noNatives {node : Node} (hnull : StandsForNull document node)
      (hnone : settings.nativesDirectory = none) : HoldsValue document settings .nativesDirectory node
  | natives {node : Node} {text : String} (htext : StandsForSomeText document node text)
      (hpath : settings.nativesDirectory = some (.ofString text)) :
      HoldsValue document settings .nativesDirectory node

/-- Pairs hold some fields of settings, in this order, and among them values of any kind under keys
that are texts other than those of fields. -/
inductive Holds (document : Document) (settings : Settings) : List Field → List (Node × Node) → Prop
  | nil : Holds document settings [] []
  | field {field : Field} {chosen : List Field} {key value : Node} {pairs : List (Node × Node)}
      (hkey : StandsForText document key field.key) (hvalue : HoldsValue document settings field value)
      (hrest : Holds document settings chosen pairs) :
      Holds document settings (field :: chosen) ((key, value) :: pairs)
  | other {name : String} {chosen : List Field} {key value : Node} {pairs : List (Node × Node)}
      (hkey : StandsForText document key name) (hother : ∀ field : Field, name ≠ field.key)
      (hrest : Holds document settings chosen pairs) :
      Holds document settings chosen ((key, value) :: pairs)

/-! ## Reading nodes -/

section Reading

variable {document : Document} {settings : Settings} {node key value : Node} {text : String}

theorem StandsForText.text?_eq (h : StandsForText document node text) :
    text? document node = some text := by
  rcases h with ⟨label, tag, plain, hnode⟩
  simp [text?, hnode]

theorem StandsForTexts.texts?_eq {texts : List String} (h : StandsForTexts document node texts) :
    texts? document node = some texts := by
  rcases h with ⟨label, items, hnode, hitems⟩
  have hread : items.mapM (text? document) = some texts := by
    clear hnode
    induction hitems with
    | nil =>
        rfl
    | cons hitem _ ih =>
        rw [List.mapM_cons, hitem.text?_eq, ih]
        rfl
  simp [texts?, hnode, hread]

theorem StandsForNull.optionalText?_eq (h : StandsForNull document node) :
    optionalText? document node = some none := by
  rcases h with ⟨label, text, hnode, hnull⟩ | ⟨label, text, hnode, hnull⟩
  · rcases hnull with rfl | hnull
    · simp [optionalText?, hnode]
    · simp [optionalText?, hnode, hnull]
  · simp [optionalText?, hnode, hnull]

theorem StandsForSomeText.optionalText?_eq (h : StandsForSomeText document node text) :
    optionalText? document node = some (some text) := by
  rcases h with ⟨label, tag, plain, hnode, rfl | ⟨other, rfl, hother⟩ | ⟨rfl, hsome, hnull⟩⟩
  · simp [optionalText?, hnode]
  · cases plain <;> simp [optionalText?, hnode, hother]
  · cases plain <;> simp_all [optionalText?]

end Reading

/-! ## Taking fields -/

namespace Given

variable {document : Document} {settings : Settings} {given : Given} {field other : Field}
  {key value : Node}

/-- A field has not been given yet. -/
def Lacks (given : Given) : Field → Prop
  | .dataDirectory => given.dataDirectory = none
  | .programName => given.programName = none
  | .extraArguments => given.extraArguments = none
  | .nativesDirectory => given.nativesDirectory = none

/-- Takes a field from settings. -/
def take (given : Given) (settings : Settings) : Field → Given
  | .dataDirectory => { given with dataDirectory := some settings.dataDirectory }
  | .programName => { given with programName := some settings.programName }
  | .extraArguments => { given with extraArguments := some settings.extraArguments }
  | .nativesDirectory => { given with nativesDirectory := some settings.nativesDirectory }

theorem lacks_empty (field : Field) : Lacks {} field := by
  cases field <;> rfl

theorem Lacks.take (h : given.Lacks other) (hother : other ≠ field) :
    (given.take settings field).Lacks other := by
  cases field <;> cases other <;> simp_all [Lacks, Given.take]

/-- The field that is taken is as in the settings. -/
theorem agrees_take (given : Given) (settings : Settings) (field : Field) :
    field.Agrees settings (given.take settings field).complete := by
  cases field <;> rfl

/-- The other fields are as they were. -/
theorem agrees_take_ne (hother : other ≠ field) :
    other.Agrees given.complete (given.take settings field).complete := by
  cases field <;> cases other <;> simp_all [Field.Agrees, take, complete]

/-- A pair with the key of a field sets that field. -/
theorem add?_field (hlacks : given.Lacks field) (hkey : StandsForText document key field.key)
    (hvalue : HoldsValue document settings field value) :
    given.add? document (key, value) = some (given.take settings field) := by
  have hname := hkey.text?_eq
  unfold Lacks at hlacks
  cases hvalue with
  | dataDirectory htext hpath =>
      simp [add?, hname, Field.key, hlacks, htext.text?_eq, take, hpath]
  | programName htext =>
      simp [add?, hname, Field.key, hlacks, htext.text?_eq, take]
  | extraArguments htexts =>
      simp [add?, hname, Field.key, hlacks, htexts.texts?_eq, take]
  | noNatives hnull hnone =>
      simp [add?, hname, Field.key, hlacks, hnull.optionalText?_eq, take, hnone]
  | natives htext hpath =>
      simp [add?, hname, Field.key, hlacks, htext.optionalText?_eq, take, hpath]

/-- A pair with any other key sets none, whatever its value is. -/
theorem add?_other {name : String} (hkey : StandsForText document key name)
    (hother : ∀ field : Field, name ≠ field.key) : given.add? document (key, value) = some given := by
  have hdata := hother .dataDirectory
  have hprogram := hother .programName
  have hextra := hother .extraArguments
  have hnatives := hother .nativesDirectory
  simp only [Field.key] at hdata hprogram hextra hnatives
  simp only [add?, hkey.text?_eq, Option.bind_some]

/-- What comes of pairs that hold fields which have not been given yet. -/
theorem exists_foldlM {chosen : List Field} {pairs : List (Node × Node)}
    (h : Holds document settings chosen pairs) (honce : chosen.Nodup)
    (hlacks : ∀ field ∈ chosen, given.Lacks field) :
    ∃ after, pairs.foldlM (add? document) given = some after ∧
      (∀ field ∈ chosen, field.Agrees settings after.complete) ∧
      ∀ field ∉ chosen, field.Agrees given.complete after.complete := by
  -- Pair by pair; a field that was taken is among the absent ones of the pairs that remain.
  induction h generalizing given with
  | nil =>
      exact ⟨given, rfl, fun _ hfield => absurd hfield List.not_mem_nil, fun field _ => .refl _ field⟩
  | @field field chosen key value pairs hkey hvalue _ ih =>
      rw [List.nodup_cons] at honce
      have hrest : ∀ other ∈ chosen, (given.take settings field).Lacks other := fun other hother =>
        (hlacks other (List.mem_cons_of_mem _ hother)).take fun hsame => honce.1 (hsame ▸ hother)
      rcases ih honce.2 hrest with ⟨after, hfold, hgiven, habsent⟩
      refine ⟨after, ?_, ?_, ?_⟩
      · rw [List.foldlM_cons, add?_field (hlacks field List.mem_cons_self) hkey hvalue]
        exact hfold
      · intro other hother
        rcases List.mem_cons.1 hother with rfl | hother
        · exact (agrees_take given settings other).trans (habsent other honce.1)
        · exact hgiven other hother
      · intro other hother
        rw [List.mem_cons, not_or] at hother
        exact (agrees_take_ne hother.1).trans (habsent other hother.2)
  | other hkey hother _ ih =>
      rcases ih honce hlacks with ⟨after, hfold, hagrees⟩
      refine ⟨after, ?_, hagrees⟩
      rw [List.foldlM_cons, add?_other hkey hother]
      exact hfold

end Given

/-- What is read from a mapping that holds some fields. -/
theorem exists_ofDocument? {document : Document} {settings : Settings} {chosen : List Field}
    {root : Node} {label : Option Nat} {pairs : List (Node × Node)}
    (h : Holds document settings chosen pairs) (honce : chosen.Nodup)
    (hroot : document.root = some root)
    (hmapping : document.resolve? root = some (.mapping label pairs)) :
    ∃ loaded, ofDocument? document = some loaded ∧
      (∀ field ∈ chosen, field.Agrees settings loaded) ∧
      ∀ field ∉ chosen, field.Agrees {} loaded := by
  have hlacks : ∀ field ∈ chosen, Given.Lacks {} field := fun field _ => Given.lacks_empty field
  rcases Given.exists_foldlM h honce hlacks with ⟨after, hfold, hagrees⟩
  refine ⟨after.complete, ?_, hagrees⟩
  simp [ofDocument?, hroot, hmapping, hfold]

end Settings
end NativeLaunch
