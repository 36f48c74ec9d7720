import NativeLaunch.Proofs.Settings.RoundTrip

/-!
# Settings files with some of the fields

A settings file may leave out any of the four fields, give the others in any order, and hold what is
no field of settings.  `Settings.HoldsFields` says that a file does, read as the document that its text
denotes.  What is loaded from it is known field by field (`completed`).  Whatever fields are chosen, and
in whatever order, there is a text that holds them (`exists_holdsFields`).
-/

namespace NativeLaunch
namespace Settings

open Yaml (Entry Node Document)

variable {settings : Settings} {chosen : List Field} {world : World} {path : Path}

/-- A file holds some fields of settings, in this order: its text denotes a mapping that does. -/
def HoldsFields (settings : Settings) (chosen : List Field) (world : World) (path : Path) : Prop :=
  ∃ text document root label pairs, world.read path = .ok (Utf8.encode text) ∧
    Document.ofText? text.toList = some document ∧ document.root = some root ∧
    document.resolve? root = some (.mapping label pairs) ∧ Holds document settings chosen pairs

theorem load_of_holdsFields (honce : chosen.Nodup) (h : HoldsFields settings chosen world path) :
    ∃ loaded, load world path = .ok loaded ∧ (∀ field ∈ chosen, field.Agrees settings loaded) ∧
      ∀ field ∉ chosen, field.Agrees {} loaded := by
  rcases h with ⟨text, document, root, label, pairs, hread, htext, hroot, hmapping, hpairs⟩
  rcases exists_ofDocument? hpairs honce hroot hmapping with ⟨loaded, hdocument, hagrees⟩
  refine ⟨loaded, ?_, hagrees⟩
  have hdecode : Utf8.decode? (Utf8.encode text) = some text := Utf8.decode?_eq_some_iff.2 rfl
  have hsettings : ofText? text = some loaded := by
    rw [ofText?, htext, Option.bind_some, hdocument]
  simp [load, hread, hdecode, hsettings]

/-- Two files agree in a field that both have alike or that neither has. -/
theorem agrees_of_load {settings' : Settings} {chosen' : List Field} {world' : World} {path' : Path}
    {loaded loaded' : Settings} {field : Field} (honce : chosen.Nodup)
    (h : HoldsFields settings chosen world path) (hload : load world path = .ok loaded)
    (honce' : chosen'.Nodup) (h' : HoldsFields settings' chosen' world' path')
    (hload' : load world' path' = .ok loaded') (hboth : field ∈ chosen ↔ field ∈ chosen')
    (hvalue : field ∈ chosen → field.Agrees settings settings') : field.Agrees loaded loaded' := by
  rcases load_of_holdsFields honce h with ⟨first, hfirst, hgiven, habsent⟩
  rcases load_of_holdsFields honce' h' with ⟨second, hsecond, hgiven', habsent'⟩
  obtain rfl : first = loaded := Except.ok.inj (hfirst.symm.trans hload)
  obtain rfl : second = loaded' := Except.ok.inj (hsecond.symm.trans hload')
  by_cases hfield : field ∈ chosen
  · have hsettings := (hgiven field hfield).symm.trans (hvalue hfield)
    exact hsettings.trans (hgiven' field (hboth.1 hfield))
  · exact (habsent field hfield).symm.trans (habsent' field (mt hboth.2 hfield))

/-- A file with some fields of settings is loaded field by field. -/
structure Completed (settings : Settings) (chosen : List Field) (world : World) (path : Path) :
    Prop where
  /-- The fields in the file are as in the settings, and the absent ones are at their defaults. -/
  loaded : ∃ loaded, load world path = .ok loaded ∧
    (∀ field ∈ chosen, field.Agrees settings loaded) ∧ ∀ field ∉ chosen, field.Agrees {} loaded
  /-- Neither the order of the fields nor what other keys the file has makes a difference. -/
  unordered : ∀ {chosen' : List Field} {world' : World} {path' : Path}, chosen'.Perm chosen →
    HoldsFields settings chosen' world' path' → load world' path' = load world path
  /-- A field that two files have alike, or that neither has, is loaded alike from both, whichever
  the other fields are and whatever their values. -/
  apart : ∀ {settings' : Settings} {chosen' : List Field} {world' : World} {path' : Path},
    chosen'.Nodup → HoldsFields settings' chosen' world' path' →
      ∀ field : Field, (field ∈ chosen ↔ field ∈ chosen') →
        (field ∈ chosen → field.Agrees settings settings') →
          ∃ loaded loaded', load world path = .ok loaded ∧ load world' path' = .ok loaded' ∧
            field.Agrees loaded loaded'

theorem completed (honce : chosen.Nodup) (h : HoldsFields settings chosen world path) :
    Completed settings chosen world path where
  loaded := load_of_holdsFields honce h
  unordered hperm h' := by
    have honce' := hperm.nodup_iff.2 honce
    rcases load_of_holdsFields honce h with ⟨loaded, hload, -⟩
    rcases load_of_holdsFields honce' h' with ⟨loaded', hload', -⟩
    have hsame : loaded' = loaded := Field.eq_of_agrees fun field =>
      agrees_of_load honce' h' hload' honce h hload hperm.mem_iff fun _ => .refl settings field
    rw [hload, hload', hsame]
  apart honce' h' field hboth hvalue := by
    rcases load_of_holdsFields honce h with ⟨loaded, hload, -⟩
    rcases load_of_holdsFields honce' h' with ⟨loaded', hload', -⟩
    exact ⟨loaded, loaded', hload, hload',
      agrees_of_load honce h hload honce' h' hload' hboth hvalue⟩

/-- Two fields of settings, after another key with a value of its own. -/
def notes : String := "more:\n- ~\n- a: b\nextra_args: [-v]\ndata_dir: /srv\n"

/-- The pairs in those notes. -/
def notedPairs : List (Node × Node) :=
  [(.scalar none none true "more".toList,
      .sequence none [.scalar none none true "~".toList,
        .mapping none [(.scalar none none true "a".toList, .scalar none none true "b".toList)]]),
    (.scalar none none true "extra_args".toList,
      .sequence none [.scalar none none true "-v".toList]),
    (.scalar none none true "data_dir".toList, .scalar none none true "/srv".toList)]

/-- Settings with the values in those notes, and with a program name that is not in them. -/
def noted : Settings where
  dataDirectory := .ofString "/srv"
  programName := "other"
  extraArguments := ["-v"]

theorem holds_notedPairs (document : Document) :
    Holds document noted [.extraArguments, .dataDirectory] notedPairs := by
  have htext (text : String) : StandsForText document (.scalar none none true text.toList) text :=
    ⟨none, none, true, rfl⟩
  have htexts : StandsForTexts document (.sequence none [.scalar none none true "-v".toList]) ["-v"] :=
    ⟨none, _, rfl, .cons (htext "-v") .nil⟩
  refine .other (htext "more") (fun field => by cases field <;> decide) ?_
  refine .field (htext "extra_args") (.extraArguments htexts) ?_
  exact .field (htext "data_dir") (.dataDirectory (htext "/srv") rfl) .nil

theorem completed_notes :
    ∃ world : World, HoldsFields noted [.extraArguments, .dataDirectory] world (.ofString "/s.yaml") ∧
      Completed noted [.extraArguments, .dataDirectory] world (.ofString "/s.yaml") := by
  let world : World :=
    { files := FileTree.insert {} [Utf8.encode "s.yaml"] (.file (Utf8.encode notes)) }
  have hread : world.read (.ofString "/s.yaml") = .ok (Utf8.encode notes) := by cbv
  have hdocument : Document.ofText? notes.toList = some ⟨some (.mapping none notedPairs)⟩ := by cbv
  have hfields : HoldsFields noted [.extraArguments, .dataDirectory] world (.ofString "/s.yaml") :=
    ⟨notes, _, _, none, notedPairs, hread, hdocument, rfl, rfl, holds_notedPairs _⟩
  exact ⟨world, hfields, completed (by decide) hfields⟩

/-- Any fields of settings whose paths are text can be held, in any order. -/
theorem exists_holdsFields (htext : settings.HasText) (chosen : List Field) :
    ∃ text, ∀ {world : World} {path : Path}, world.read path = .ok (Utf8.encode text) →
      HoldsFields settings chosen world path := by
  obtain ⟨_, hrender⟩ := Option.isSome_iff_exists.1 (render?_isSome_iff.2 htext)
  rcases render?_eq_some_iff.1 hrender with ⟨dataDirectory, natives, hspells, -⟩
  have hvalid : ∀ entry ∈ chosen.map (Field.entry settings dataDirectory natives), entry.IsValid := by
    intro entry hentry
    rcases List.mem_map.1 hentry with ⟨field, -, rfl⟩
    exact isValid_entries _ field.entry_mem
  cases chosen with
  | nil =>
      have hbraces : Document.ofText? "\x7b\x7d\n".toList = some ⟨some (.mapping none [])⟩ := by cbv
      exact ⟨"\x7b\x7d\n", fun hread => ⟨_, _, _, none, [], hread, hbraces, rfl, rfl, .nil⟩⟩
  | cons field chosen =>
      have hdocument := Document.ofText?_lines (List.cons_ne_nil _ _) hvalid
      rw [← String.toList_ofList (l := List.flatMap _ _)] at hdocument
      exact ⟨_, fun hread => ⟨_, _, _, none, _, hread, hdocument, rfl, rfl,
        holds_entries _ hspells (field :: chosen)⟩⟩

end Settings
end NativeLaunch
