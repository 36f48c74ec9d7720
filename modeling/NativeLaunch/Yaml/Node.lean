import NativeLaunch.Yaml.Token

/-!
# Nodes of a YAML document

A document is a tree of scalars, sequences and mappings, in which an alias stands for a labelled
node elsewhere.  This file defines:

* `Node` and `Document`;
* the grammar, from tokens to the one document that they spell, as `Document.ofTokens?`;
* `Document.ofText?` — the document of a text, and `Document.resolve?`, which follows an alias.

A label is the number of different anchor names seen before its anchor.  An anchor name that is
used again therefore shares its new label with the next new name, and an alias stands for the last
node under its label.
-/

namespace NativeLaunch

namespace Yaml

/-- A node of a document. -/
inductive Node
  | scalar (label : Option Nat) (tag : Option Bytes) (plain : Bool) (text : List Char)
  | sequence (label : Option Nat) (items : List Node)
  | mapping (label : Option Nat) (pairs : List (Node × Node))
  | alias (label : Nat)
deriving Repr

namespace Node

/-- The scalar that stands where nothing is written. -/
def empty : Node := .scalar none none true []

/-- The label of a node. -/
def label? : Node → Option Nat
  | .scalar label _ _ _ => label
  | .sequence label _ => label
  | .mapping label _ => label
  | .alias _ => none

mutual

/-- A node and all nodes in it, in the order in which they start. -/
def preorder : Node → List Node
  | .scalar label tag plain text => [.scalar label tag plain text]
  | .sequence label items => .sequence label items :: preorderItems items
  | .mapping label pairs => .mapping label pairs :: preorderPairs pairs
  | .alias label => [.alias label]

/-- All nodes in some items. -/
def preorderItems : List Node → List Node
  | [] => []
  | item :: items => item.preorder ++ preorderItems items

/-- All nodes in some pairs. -/
def preorderPairs : List (Node × Node) → List Node
  | [] => []
  | (key, value) :: pairs => key.preorder ++ value.preorder ++ preorderPairs pairs

end

end Node

/-- A document; one without a root is an empty text. -/
structure Document where
  root : Option Node
deriving Repr

namespace Document

/-- The node that a node stands for: itself, or the last one under an alias's label. -/
def resolve? (document : Document) : Node → Option Node
  | .alias label =>
    document.root.bind fun root => (root.preorder.filter (·.label? = some label)).getLast?
  | node => some node

end Document

/-! ## Grammar -/

namespace Grammar

/-- The tokens still to be read, and the anchor names with their labels. -/
structure State where
  tokens : List Token
  names : List (List Char × Nat) := []
deriving Repr

namespace State

/-- The state after the first token. -/
def next (state : State) : State := { state with tokens := state.tokens.tail }

/-- Gives a label to an anchor name. -/
def label (state : State) (name : List Char) : Nat × State :=
  let number := state.names.length
  (number, { state with names := (name, number) :: state.names.filter (·.1 ≠ name) })

end State

/-- What tag handles stand for. -/
abbrev Handles := List (List Char × Bytes)

namespace Handles

/-- The handles that need no directive. -/
def standard : Handles :=
  [("!".toList, Utf8.encode "!"), ("!!".toList, Utf8.encode "tag:yaml.org,2002:")]

/-- The full tag for a handle and suffix; an empty handle adds nothing. -/
def expand? (handles : Handles) (handle : List Char) (suffix : Bytes) : Option Bytes :=
  if handle = [] then some suffix else (handles.lookup handle).map (· ++ suffix)

end Handles

/-- Anchor and tag of a node. -/
structure Properties where
  anchor : Option (List Char) := none
  tag : Option Bytes := none
deriving Repr

/-- Reads an anchor and a tag in either order, both optional. -/
def properties (handles : Handles) (tokens : List Token) : Option (Properties × List Token) :=
  match tokens with
  | .anchor name :: .tag handle suffix :: rest =>
    (handles.expand? handle suffix).map fun tag => (⟨some name, some tag⟩, rest)
  | .tag handle suffix :: .anchor name :: rest =>
    (handles.expand? handle suffix).map fun tag => (⟨some name, some tag⟩, rest)
  | .anchor name :: rest => some (⟨some name, none⟩, rest)
  | .tag handle suffix :: rest =>
    (handles.expand? handle suffix).map fun tag => (⟨none, some tag⟩, rest)
  | _ => some ({}, tokens)

/-- Whether a block's item or value is left out before a token. -/
def endsBlockItem (inMapping : Bool) : Option Token → Bool
  | some .blockEnd => true
  | some .blockEntry => !inMapping
  | some .key => inMapping
  | some .value => inMapping
  | _ => false

/-- Whether an item of an unindented sequence is left out before a token. -/
def endsIndentlessItem : Option Token → Bool
  | some .blockEntry => true
  | token => endsBlockItem true token

mutual

/-- Reads a node.  `inBlock` tells whether blocks may start here, `indentless` whether a sequence
may stand without being indented. -/
def node (handles : Handles) : (fuel : Nat) → (inBlock indentless : Bool) → State →
    Option (Node × State)
  | 0, _, _, _ => none
  | fuel + 1, inBlock, indentless, state =>
    match state.tokens with
    | .alias name :: _ =>
      (state.names.lookup name).map fun label => (.alias label, state.next)
    | _ =>
      match properties handles state.tokens with
      | none => none
      | some (given, tokens) =>
        let bare : State := { state with tokens := tokens }
        let (label, state) : Option Nat × State :=
          match given.anchor with
          | none => (none, bare)
          | some name => let (number, labelled) := bare.label name; (some number, labelled)
        let sequenceOf : Option (List Node × State) → Option (Node × State) :=
          Option.map fun (items, state) => (.sequence label items, state)
        let mappingOf : Option (List (Node × Node) × State) → Option (Node × State) :=
          Option.map fun (pairs, state) => (.mapping label pairs, state)
        let absent : Option (Node × State) :=
          if given.anchor.isSome || given.tag.isSome then
            some (.scalar label given.tag true [], state)
          else none
        match tokens.head? with
        | some (.scalar text plain) => some (.scalar label given.tag plain text, state.next)
        | some .flowSequenceStart => sequenceOf (flowItems handles fuel true state.next)
        | some .flowMappingStart => mappingOf (flowPairs handles fuel true state.next)
        | some .blockSequenceStart =>
          if inBlock then sequenceOf (blockItems handles fuel state.next) else absent
        | some .blockMappingStart =>
          if inBlock then mappingOf (blockPairs handles fuel state.next) else absent
        | some .blockEntry =>
          if indentless then sequenceOf (indentlessItems handles fuel state) else absent
        | _ => absent

/-- Reads the items of a block sequence and its end. -/
def blockItems (handles : Handles) : (fuel : Nat) → State → Option (List Node × State)
  | 0, _ => none
  | fuel + 1, state =>
    match state.tokens with
    | .blockEntry :: rest =>
      let item := if endsBlockItem false rest.head? then some (Node.empty, state.next)
        else node handles fuel true false state.next
      item.bind fun (item, state) =>
        (blockItems handles fuel state).map fun (items, state) => (item :: items, state)
    | .blockEnd :: _ => some ([], state.next)
    | _ => none

/-- Reads the items of a sequence that is not indented; it ends before any other token. -/
def indentlessItems (handles : Handles) : (fuel : Nat) → State → Option (List Node × State)
  | 0, _ => none
  | fuel + 1, state =>
    match state.tokens with
    | .blockEntry :: rest =>
      let item := if endsIndentlessItem rest.head? then some (Node.empty, state.next)
        else node handles fuel true false state.next
      item.bind fun (item, state) =>
        (indentlessItems handles fuel state).map fun (items, state) => (item :: items, state)
    | _ => some ([], state)

/-- Reads the pairs of a block mapping and its end. -/
def blockPairs (handles : Handles) : (fuel : Nat) → State → Option (List (Node × Node) × State)
  | 0, _ => none
  | fuel + 1, state =>
    match state.tokens with
    | .key :: rest =>
      let key := if endsBlockItem true rest.head? then some (Node.empty, state.next)
        else node handles fuel true true state.next
      key.bind fun (key, state) =>
        let value := match state.tokens with
          | .value :: rest =>
            if endsBlockItem true rest.head? then some (Node.empty, state.next)
            else node handles fuel true true state.next
          | _ => some (Node.empty, state)
        value.bind fun (value, state) =>
          (blockPairs handles fuel state).map fun (pairs, state) => ((key, value) :: pairs, state)
    | .blockEnd :: _ => some ([], state.next)
    | _ => none

/-- Reads the items of a bracketed sequence and its end; an item may be a single pair. -/
def flowItems (handles : Handles) : (fuel : Nat) → (first : Bool) → State →
    Option (List Node × State)
  | 0, _, _ => none
  | fuel + 1, first, state =>
    let started : Option State :=
      if first || state.tokens.head? = some .flowSequenceEnd then some state
      else if state.tokens.head? = some .flowEntry then some state.next
      else none
    started.bind fun state =>
      match state.tokens with
      | .flowSequenceEnd :: _ => some ([], state.next)
      | .key :: _ =>
        (pairItem handles fuel state.next).bind fun (item, state) =>
          (flowItems handles fuel false state).map fun (items, state) => (item :: items, state)
      | _ =>
        (node handles fuel false false state).bind fun (item, state) =>
          (flowItems handles fuel false state).map fun (items, state) => (item :: items, state)

/-- Reads a single pair in a bracketed sequence.  Where its key is left out, the token in the key's
place is passed over. -/
def pairItem (handles : Handles) : (fuel : Nat) → State → Option (Node × State)
  | 0, _ => none
  | fuel + 1, state =>
    let key := match state.tokens with
      | .value :: _ => some (Node.empty, state.next)
      | .flowEntry :: _ => some (Node.empty, state.next)
      | .flowSequenceEnd :: _ => some (Node.empty, state.next)
      | _ => node handles fuel false false state
    key.bind fun (key, state) =>
      let value := match state.tokens with
        | .value :: rest =>
          if rest.head? = some Token.flowEntry || rest.head? = some Token.flowSequenceEnd then
            some (Node.empty, state.next)
          else node handles fuel false false state.next
        | _ => some (Node.empty, state)
      value.map fun (value, state) => (.mapping none [(key, value)], state)

/-- Reads the pairs of a bracketed mapping and its end; a value may be left out. -/
def flowPairs (handles : Handles) : (fuel : Nat) → (first : Bool) → State →
    Option (List (Node × Node) × State)
  | 0, _, _ => none
  | fuel + 1, first, state =>
    let started : Option State :=
      if first || state.tokens.head? = some .flowMappingEnd then some state
      else if state.tokens.head? = some .flowEntry then some state.next
      else none
    let isOmitted : Option Token → Bool
      | some .flowEntry => true
      | some .flowMappingEnd => true
      | _ => false
    started.bind fun state =>
      match state.tokens with
      | .flowMappingEnd :: _ => some ([], state.next)
      | .key :: rest =>
        let key := if isOmitted rest.head? || rest.head? = some .value then
            some (Node.empty, state.next)
          else node handles fuel false false state.next
        key.bind fun (key, state) =>
          let value := match state.tokens with
            | .value :: rest =>
              if isOmitted rest.head? then some (Node.empty, state.next)
              else node handles fuel false false state.next
            | _ => some (Node.empty, state)
          value.bind fun (value, state) =>
            (flowPairs handles fuel false state).map fun (pairs, state) =>
              ((key, value) :: pairs, state)
      | _ =>
        (node handles fuel false false state).bind fun (key, state) =>
          (flowPairs handles fuel false state).map fun (pairs, state) =>
            ((key, Node.empty) :: pairs, state)

end

/-! ## Documents -/

/-- Reads directives; each handle and the version may be given once, and the version has to be
known. -/
def directives : (version : Bool) → Handles → List Token → Option (Handles × List Token)
  | version, handles, .versionDirective major minor :: rest =>
    if version || major ≠ 1 || (minor ≠ 1 && minor ≠ 2) then none
    else directives true handles rest
  | version, handles, .tagDirective handle lead :: rest =>
    if (handles.lookup handle).isSome then none
    else directives version (handles ++ [(handle, lead)]) rest
  | _, handles, tokens => some (handles, tokens)

/-- Whether a document that was opened has no root before a token. -/
def isRootless : Option Token → Bool
  | none => true
  | some (.versionDirective _ _) => true
  | some (.tagDirective _ _) => true
  | some .documentStart => true
  | some .documentEnd => true
  | _ => false

/-- Reads the root of a document. -/
def root (handles : Handles) (tokens : List Token) : Option (Node × State) :=
  node handles (4 * tokens.length + 4) true false { tokens := tokens }

/-- Reads the root of the first document. -/
def firstRoot (tokens : List Token) : Option (Node × State) :=
  match tokens.head? with
  | some (.versionDirective _ _) => opened
  | some (.tagDirective _ _) => opened
  | some .documentStart => opened
  | _ => root Handles.standard tokens
where
  opened : Option (Node × State) :=
    (directives false [] tokens).bind fun (handles, rest) =>
      match rest with
      | .documentStart :: rest =>
        if isRootless rest.head? then some (Node.empty, { tokens := rest })
        else root (handles ++ Handles.standard) rest
      | _ => none

end Grammar

namespace Document

/-- The document that tokens spell; there may be no second one after it. -/
def ofTokens? (tokens : List Token) : Option Document :=
  if tokens = [] then some ⟨none⟩
  else
    (Grammar.firstRoot tokens).bind fun (root, state) =>
      if state.tokens.all (· = .documentEnd) then some ⟨some root⟩ else none

/-- The document of a text; nothing if the text is ill formed or holds several. -/
def ofText? (text : List Char) : Option Document :=
  (Token.ofText? text).bind ofTokens?

end Document

end Yaml

end NativeLaunch
