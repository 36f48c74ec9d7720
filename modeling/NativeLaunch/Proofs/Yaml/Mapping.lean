import NativeLaunch.Proofs.Yaml.Reader
import NativeLaunch.Yaml.Node

/-!
# Mappings of written values, read back

The document of a text whose lines are names with written values.  This file defines:

* `Written` — a value in its written form, with its tokens and its node;
* `Entry` — a name with such a value, as lines, tokens and nodes.

The main result is `Document.ofText?_entries`: the lines of entries are read as one mapping of their
nodes.
-/

namespace NativeLaunch
namespace Yaml

/-! ## Written values -/

/-- A value as it is written in a line of a mapping. -/
inductive Written
  /-- A text that may need quotes. -/
  | scalar (text : List Char)
  /-- A word that stands for something other than text, such as null. -/
  | bare (text : List Char)
  | list (texts : List (List Char))

namespace Written

/-- The scalar node of a text. -/
def textNode (text : List Char) : Node := .scalar none none (Style.choose text = .plain) text

/-- What stands after the colon, up to the start of the next line. -/
def lines : Written → List Char
  | .scalar text => ' ' :: Scalar.write text
  | .bare text => ' ' :: (text ++ ['\n'])
  | .list texts => if texts = [] then " []\n".toList else '\n' :: Reader.itemLines texts

def tokens : Written → List Token
  | .scalar text => [.scalar text (Style.choose text = .plain)]
  | .bare text => [.scalar text true]
  | .list texts =>
    if texts = [] then [.flowSequenceStart, .flowSequenceEnd] else Reader.itemTokens texts

def node : Written → Node
  | .scalar text => textNode text
  | .bare text => .scalar none none true text
  | .list texts => .sequence none (texts.map textNode)

/-- Whether a value can be written: a bare word has to do without quotes. -/
def IsValid : Written → Prop
  | .bare text => Style.canBePlain text = true ∧ text ≠ []
  | _ => True

variable {rest : List Char} {place : Position} {tokens : List Token}

theorem separated_lines (value : Written) (rest : List Char) :
    separated (value.lines ++ rest) = true := by
  cases value with
  | scalar text =>
      exact (by decide : isSeparator ' ' = true)
  | bare text =>
      exact (by decide : isSeparator ' ' = true)
  | list texts =>
      rw [lines]
      split
      · exact (by decide : isSeparator ' ' = true)
      · exact (by decide : isSeparator '\n' = true)

/-- A value is read to the start of the next line. -/
theorem readsTo_lines {value : Written} (hvalid : value.IsValid) (hrest : StartsLine rest) :
    (Reader.within false (value.lines ++ rest) place tokens).ReadsTo rest
      (value.tokens.reverse ++ tokens) := by
  cases value with
  | scalar text =>
      exact Reader.readsTo_write text hrest
  | bare text =>
      rw [lines, List.cons_append, List.append_assoc]
      exact Reader.readsTo_plain hvalid.1 hvalid.2 hrest
  | list texts =>
      rw [lines, Written.tokens]
      split
      · exact Reader.readsTo_brackets hrest
      · exact Reader.readsTo_items (Reader.comesTo_nextLine (Reader.startsLine_itemLines hrest)
          (fun _ h => by cases h) (Nat.le_refl _)) (Position.after_of_isBreak _ (by decide)).2 hrest

theorem isPrintable_lines {value : Written} (hvalid : value.IsValid) {c : Char}
    (hc : c ∈ value.lines) : Style.isPrintable c = true := by
  have hspace : Style.isPrintable ' ' = true := by decide
  have hfeed : Style.isPrintable '\n' = true := by decide
  cases value with
  | scalar text =>
      rcases List.mem_cons.1 hc with rfl | hc
      · exact hspace
      · exact Scalar.isPrintable_write hc
  | bare text =>
      rcases List.mem_cons.1 hc with rfl | hc
      · exact hspace
      · rcases List.mem_append.1 hc with hc | hc
        · exact (Plain.carries_of_canBePlain hvalid.1).printable c hc
        · rcases List.mem_singleton.1 hc with rfl
          exact hfeed
  | list texts =>
      rw [lines] at hc
      split at hc
      · have hbrackets : " []\n".toList.all Style.isPrintable = true := by decide
        exact List.all_eq_true.1 hbrackets c hc
      · rcases List.mem_cons.1 hc with rfl | hc
        · exact hfeed
        · rcases List.mem_flatMap.1 hc with ⟨text, -, hc⟩
          rcases List.mem_cons.1 hc with rfl | hc
          · decide
          · rcases List.mem_cons.1 hc with rfl | hc
            · exact hspace
            · exact Scalar.isPrintable_write hc

end Written

/-! ## Entries -/

/-- A name with a written value. -/
structure Entry where
  name : List Char
  value : Written

namespace Entry

/-- Whether an entry can be written. -/
structure IsValid (entry : Entry) : Prop where
  name : Reader.IsName entry.name
  value : entry.value.IsValid

def lines (entry : Entry) : List Char := entry.name ++ ':' :: entry.value.lines

def tokens (entry : Entry) : List Token :=
  .key :: .scalar entry.name true :: .value :: entry.value.tokens

/-- The pair of an entry. -/
def pair (entry : Entry) : Node × Node := (.scalar none none true entry.name, entry.value.node)

theorem startsLine_lines {entry : Entry} (hname : Reader.IsName entry.name) (rest : List Char) :
    StartsLine (entry.lines ++ rest) := by
  rcases hname.head with ⟨d, hhead, -⟩
  intro c hc
  rw [lines, List.append_assoc, List.head?_append, hhead] at hc
  cases hc
  exact hname.chars d (List.mem_of_head? hhead)

theorem startsLine_flatMap {entries : List Entry} (hvalid : ∀ entry ∈ entries, entry.IsValid) :
    StartsLine (entries.flatMap lines) := by
  cases entries with
  | nil =>
      exact fun _ h => by cases h
  | cons entry entries =>
      exact startsLine_lines (hvalid entry List.mem_cons_self).name _

section Reading

variable {reader : Reader} {entry : Entry} {entries : List Entry}
variable {rest : List Char} {place : Position} {tokens : List Token}

theorem readsTo_lines (inside : Bool) (hvalid : entry.IsValid) (hrest : StartsLine rest)
    (h : reader.ComesTo (Reader.atName inside (entry.lines ++ rest) place tokens))
    (hcolumn : place.column = 0) :
    reader.ReadsTo rest
      (entry.value.tokens.reverse ++ ((Reader.keyTokens inside entry.name).reverse ++ tokens)) := by
  rw [lines, List.append_assoc, List.cons_append] at h
  rcases Reader.readAll_name hvalid.name (entry.value.separated_lines rest) h hcolumn with
    ⟨place', hname⟩
  exact (Written.readsTo_lines hvalid.value hrest).of_readAll hname

/-- The lines of entries inside the mapping, to its end. -/
theorem readAll_within (hvalid : ∀ entry ∈ entries, entry.IsValid)
    (h : reader.ReadsTo (entries.flatMap lines) tokens) :
    reader.readAll = some (tokens.reverse ++ (entries.flatMap Entry.tokens ++ [.blockEnd])) := by
  -- Each entry is read to the start of the next line, where the reader is as it was for this one.
  induction entries generalizing reader tokens with
  | nil =>
      rcases h with ⟨next, place, hnext, hcomes, -⟩
      rw [hnext, Reader.readAll_end hcomes]
      rfl
  | cons entry entries ih =>
      have hvalid' : ∀ entry ∈ entries, entry.IsValid :=
        fun entry hentry => hvalid entry (List.mem_cons_of_mem _ hentry)
      rcases h with ⟨next, place, hnext, hcomes, hcolumn⟩
      have hentry := readsTo_lines true (hvalid entry List.mem_cons_self)
        (startsLine_flatMap hvalid') hcomes hcolumn
      rw [hnext, ih hvalid' hentry]
      simp [Reader.keyTokens, Entry.tokens]

/-- The lines of entries are the tokens of one mapping. -/
theorem readAll_lines (hvalid : ∀ e ∈ entry :: entries, e.IsValid) :
    Reader.readAll { cursor := ⟨(entry :: entries).flatMap lines, {}⟩ } =
      some (.blockMappingStart :: ((entry :: entries).flatMap Entry.tokens ++ [.blockEnd])) := by
  have hvalid' : ∀ entry ∈ entries, entry.IsValid :=
    fun entry hentry => hvalid entry (List.mem_cons_of_mem _ hentry)
  have hfirst := hvalid entry List.mem_cons_self
  have hentry := readsTo_lines false hfirst (startsLine_flatMap hvalid')
    (Reader.comesTo_atName (startsLine_lines hfirst.name _)) rfl
  rw [List.flatMap_cons, readAll_within hvalid' hentry]
  simp [Reader.keyTokens, Entry.tokens]

end Reading

/-! ### Tokens -/

theorem isPrintable_lines {entry : Entry} (hvalid : entry.IsValid) {c : Char}
    (hc : c ∈ entry.lines) : Style.isPrintable c = true := by
  rcases List.mem_append.1 hc with hc | hc
  · exact isPrintable_of_isNameChar (hvalid.name.chars c hc)
  · rcases List.mem_cons.1 hc with rfl | hc
    · decide
    · exact entry.value.isPrintable_lines hvalid.value hc

/-- The tokens of a text of entries. -/
theorem ofText?_lines {entries : List Entry} (hentries : entries ≠ [])
    (hvalid : ∀ entry ∈ entries, entry.IsValid) :
    Token.ofText? (entries.flatMap lines) =
      some (.blockMappingStart :: (entries.flatMap Entry.tokens ++ [.blockEnd])) := by
  have hprintable : ∀ c ∈ entries.flatMap lines, Style.isPrintable c = true := by
    intro c hc
    rcases List.mem_flatMap.1 hc with ⟨entry, hentry, hc⟩
    exact isPrintable_lines (hvalid entry hentry) hc
  have hallowed : (entries.flatMap lines).all isAllowed = true :=
    List.all_eq_true.2 fun c hc => isAllowed_of_isPrintable (hprintable c hc)
  rw [Token.ofText?, if_pos hallowed, unifyBreaks_of_isPrintable hprintable]
  cases entries with
  | nil =>
      exact absurd rfl hentries
  | cons entry entries =>
      exact readAll_lines hvalid

end Entry

/-! ## Grammar -/

namespace Grammar

variable {handles : Handles} {fuel : Nat} {inBlock indentless : Bool} {more : List Token}

theorem node_scalar {text : List Char} {plain : Bool} :
    node handles (fuel + 1) inBlock indentless { tokens := .scalar text plain :: more } =
      some (.scalar none none plain text, { tokens := more }) := by
  simp [node, properties, State.next]

theorem node_brackets :
    node handles (fuel + 2) inBlock indentless
        { tokens := .flowSequenceStart :: .flowSequenceEnd :: more } =
      some (.sequence none [], { tokens := more }) := by
  simp [node, properties, State.next, flowItems]

theorem indentlessItems_end (hmore : more.head? ≠ some .blockEntry) :
    indentlessItems handles (fuel + 1) { tokens := more } = some ([], { tokens := more }) := by
  rw [indentlessItems]
  split
  · next heq =>
      exact absurd (congrArg List.head? heq) hmore
  · rfl

theorem indentlessItems_item {text : List Char} {plain : Bool} :
    indentlessItems handles (fuel + 2) { tokens := .blockEntry :: .scalar text plain :: more } =
      (indentlessItems handles (fuel + 1) { tokens := more }).map fun (items, state) =>
        (.scalar none none plain text :: items, state) := by
  rw [indentlessItems]
  simp only [List.head?_cons, endsIndentlessItem, endsBlockItem, Bool.false_eq_true, if_false,
    State.next, List.tail_cons, node_scalar, Option.bind_some]

theorem indentlessItems_itemTokens {texts : List (List Char)} (hfuel : texts.length + 2 ≤ fuel)
    (hmore : more.head? ≠ some .blockEntry) :
    indentlessItems handles fuel { tokens := Reader.itemTokens texts ++ more } =
      some (texts.map Written.textNode, { tokens := more }) := by
  induction texts generalizing fuel with
  | nil =>
      obtain ⟨fuel, rfl⟩ : ∃ n, fuel = n + 1 := ⟨fuel - 1, by omega⟩
      exact indentlessItems_end hmore
  | cons text texts ih =>
      obtain ⟨fuel, rfl⟩ : ∃ n, fuel = n + 2 := ⟨fuel - 2, by omega⟩
      have hitems := @ih (fuel + 1) (by simp only [List.length_cons] at hfuel; omega)
      simp only [Reader.itemTokens, List.flatMap_cons, List.cons_append, List.nil_append] at hitems ⊢
      rw [indentlessItems_item, hitems]
      rfl

theorem length_itemTokens (texts : List (List Char)) :
    (Reader.itemTokens texts).length = 2 * texts.length := by
  induction texts with
  | nil =>
      rfl
  | cons text texts ih =>
      simp only [Reader.itemTokens, List.flatMap_cons, List.length_append, List.length_cons,
        List.length_nil] at ih ⊢
      omega

theorem node_written {value : Written} (hfuel : value.tokens.length + 3 ≤ fuel)
    (hmore : more.head? ≠ some .blockEntry) :
    node handles fuel true true { tokens := value.tokens ++ more } =
      some (value.node, { tokens := more }) := by
  obtain ⟨fuel, rfl⟩ : ∃ n, fuel = n + 2 := ⟨fuel - 2, by omega⟩
  cases value with
  | scalar text =>
      exact node_scalar
  | bare text =>
      exact node_scalar
  | list texts =>
      cases texts with
      | nil =>
          exact node_brackets
      | cons text texts =>
          have hlength : (text :: texts).length + 2 ≤ fuel + 1 := by
            simp only [Written.tokens, if_neg (List.cons_ne_nil _ _), length_itemTokens] at hfuel
            omega
          have hitems := @indentlessItems_itemTokens handles _ more _ hlength hmore
          rw [Written.tokens, if_neg (List.cons_ne_nil _ _)]
          simp only [Reader.itemTokens, List.flatMap_cons, List.cons_append,
            List.nil_append] at hitems ⊢
          rw [node]
          simp [properties, hitems, Written.node]

/-- No value starts like one that is left out. -/
theorem endsBlockItem_tokens (value : Written) :
    endsBlockItem true (value.tokens ++ more).head? = false := by
  cases value with
  | scalar text =>
      rfl
  | bare text =>
      rfl
  | list texts =>
      cases texts <;> rfl

theorem blockPairs_entry {entry : Entry} (hfuel : entry.tokens.length ≤ fuel)
    (hmore : more.head? ≠ some .blockEntry) :
    blockPairs handles (fuel + 1) { tokens := entry.tokens ++ more } =
      (blockPairs handles fuel { tokens := more }).map fun (pairs, state) =>
        (entry.pair :: pairs, state) := by
  simp only [Entry.tokens, List.length_cons] at hfuel
  have hvalue := @node_written handles fuel more entry.value (by omega) hmore
  obtain ⟨fuel, rfl⟩ : ∃ n, fuel = n + 1 := ⟨fuel - 1, by omega⟩
  have hname : endsBlockItem true (some (.scalar entry.name true)) = false := rfl
  simp only [Entry.tokens, List.cons_append]
  rw [blockPairs]
  simp only [List.head?_cons, hname, Bool.false_eq_true, if_false, State.next, List.tail_cons,
    node_scalar, Option.bind_some, endsBlockItem_tokens, hvalue]
  rfl

theorem blockPairs_entries {entries : List Entry}
    (hfuel : (entries.flatMap Entry.tokens).length + 1 ≤ fuel) :
    blockPairs handles fuel { tokens := entries.flatMap Entry.tokens ++ [.blockEnd] } =
      some (entries.map Entry.pair, { tokens := [] }) := by
  induction entries generalizing fuel with
  | nil =>
      obtain ⟨fuel, rfl⟩ : ∃ n, fuel = n + 1 := ⟨fuel - 1, by omega⟩
      simp [blockPairs, State.next]
  | cons entry entries ih =>
      rw [List.flatMap_cons, List.length_append] at hfuel
      -- An entry uses up one unit of fuel and gives back its tokens, of which there are three or more.
      have hthree : 3 ≤ entry.tokens.length := by
        simp only [Entry.tokens, List.length_cons]
        omega
      obtain ⟨fuel, rfl⟩ : ∃ n, fuel = n + 1 := ⟨fuel - 1, by omega⟩
      have hmore : (entries.flatMap Entry.tokens ++ [Token.blockEnd]).head? ≠
          some .blockEntry := by
        cases entries <;> simp [Entry.tokens]
      have hentry : entry.tokens.length ≤ fuel := by omega
      rw [List.flatMap_cons, List.append_assoc, blockPairs_entry hentry hmore, ih (by omega)]
      rfl

theorem root_entries (entries : List Entry) :
    root handles (.blockMappingStart :: (entries.flatMap Entry.tokens ++ [.blockEnd])) =
      some (.mapping none (entries.map Entry.pair), { tokens := [] }) := by
  let tokens := Token.blockMappingStart :: (entries.flatMap Entry.tokens ++ [Token.blockEnd])
  have hlength : tokens.length = (entries.flatMap Entry.tokens).length + 2 := by
    rw [List.length_cons, List.length_append]
    rfl
  obtain ⟨fuel, hfuel⟩ : ∃ n, 4 * tokens.length + 4 = n + 1 := ⟨4 * tokens.length + 3, rfl⟩
  have hpairs := @blockPairs_entries handles fuel entries (by omega)
  rw [root, hfuel, node]
  simp [properties, State.next, hpairs]

end Grammar

namespace Document

/-- The lines of entries are read as one mapping. -/
theorem ofText?_lines {entries : List Entry} (hentries : entries ≠ [])
    (hvalid : ∀ entry ∈ entries, entry.IsValid) :
    Document.ofText? (entries.flatMap Entry.lines) =
      some ⟨some (.mapping none (entries.map Entry.pair))⟩ := by
  rw [Document.ofText?, Entry.ofText?_lines hentries hvalid, Option.bind_some, ofTokens?,
    if_neg (List.cons_ne_nil _ _)]
  simp only [Grammar.firstRoot, List.head?_cons]
  rw [Grammar.root_entries]
  rfl

end Document
end Yaml
end NativeLaunch
