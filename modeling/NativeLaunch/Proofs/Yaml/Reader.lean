import NativeLaunch.Proofs.Yaml.Block
import NativeLaunch.Yaml.Token

/-!
# Lines of a block mapping, read back as tokens

A mapping written line by line, each line a name and a value, gives the tokens of its names and
values.  This file defines:

* `Reader.ComesTo` — what a reader finds when it moves on to the next token;
* `Reader.within` — the reader inside the outermost mapping.

The reader's own loop is opened in one place (`readAll_of_takeToken`).  A written piece is then read
by a lemma that says to which reader the loop comes after it, always at the start of the next line.
-/

namespace NativeLaunch
namespace Yaml
namespace Reader

variable {reader near next : Reader} {c : Char} {rest text : List Char} {place : Position}
variable {tokens : List Token} {keyAllowed : Bool}

/-! ## The loop -/

/-- Moving on, the reader comes to another place of the same text. -/
structure ComesTo (reader near : Reader) : Prop where
  approach : reader.approach = some near
  shorter : near.cursor.rest.length ≤ reader.cursor.rest.length

theorem readAll_of_takeToken (h : reader.ComesTo near) (hrest : near.cursor.rest = c :: rest)
    (htake : near.takeToken c rest = some next)
    (hshorter : next.cursor.rest.length ≤ rest.length) :
    reader.readAll = next.readAll := by
  have hlength := h.shorter
  rw [hrest, List.length_cons] at hlength
  rw [readAll, h.approach]
  simp only [hrest, htake]
  -- The loop goes on only with less of the text than it had.
  rw [if_pos (by omega)]

theorem readAll_of_finish (h : reader.ComesTo near) (hrest : near.cursor.rest = []) :
    reader.readAll = near.finish := by
  rw [readAll, h.approach]
  simp only [hrest]

/-! ## Moving on -/

/-- No block is left at a place that lies no less deep than its lines. -/
theorem closeBlocksTo_of_le {margin : Nat} (h : reader.margin ≤ margin) :
    reader.closeBlocksTo margin = reader := by
  unfold closeBlocksTo
  split
  · rfl
  · cases houter : reader.outerMargins with
    | nil =>
        rw [closeBlocksTo.close, ← houter]
    | cons next rest =>
        rw [closeBlocksTo.close, if_neg (by omega), ← houter]

theorem approach_of_skipFiller {cursor : Cursor} {allowed : Bool} {key : Option PossibleKey}
    (hflow : reader.outerKeys = [])
    (hskip : skipFiller false reader.cursor.rest reader.cursor.place reader.keyAllowed false =
      (cursor, allowed))
    (hkey : expire cursor.place reader.possibleKey = some key)
    (hmargin : reader.margin ≤ cursor.place.column + 1) :
    reader.approach =
      some { reader with cursor := cursor, keyAllowed := allowed, possibleKey := key } := by
  have hinFlow : reader.inFlow = false := by simp [inFlow, hflow]
  simp only [approach, hinFlow, hskip, expireKeys, hkey, hflow, Option.bind_some,
    List.mapM_nil, Option.pure_def, Option.map_some, Option.some.injEq]
  exact closeBlocksTo_of_le hmargin

/-- What stops the passing over filler. -/
def StopsFiller (c : Char) : Prop :=
  isSeparator c = false ∧ c ≠ byteOrderMark ∧ c ≠ '#'

theorem stopsFiller_of_isNameChar (h : isNameChar c = true) : StopsFiller c := by
  refine ⟨isSeparator_of_isNameChar h, ?_, ?_⟩
  · rintro rfl
    exact absurd h (by decide)
  · rintro rfl
    exact absurd h (by decide)

theorem skipFiller_stop (h : StopsFiller c) :
    skipFiller false (c :: rest) place keyAllowed false = (⟨c :: rest, place⟩, keyAllowed) := by
  rcases h with ⟨hword, hmark, hcomment⟩
  simp only [isSeparator, isSpaceOrTab, Bool.or_eq_false_iff, decide_eq_false_iff_not] at hword
  rw [skipFiller]
  simp [hword, hmark, hcomment]

theorem skipFiller_line (hrest : StartsLine rest) :
    skipFiller false rest place keyAllowed false = (⟨rest, place⟩, keyAllowed) := by
  cases rest with
  | nil =>
      rw [skipFiller]
  | cons c rest =>
      exact skipFiller_stop (stopsFiller_of_isNameChar (hrest c rfl))

theorem skipFiller_space :
    skipFiller false (' ' :: rest) place keyAllowed false =
      skipFiller false rest (place.after ' ') keyAllowed false := by
  have hbreak : isBreak ' ' = false := by decide
  rw [skipFiller]
  simp [hbreak]

theorem skipFiller_break :
    skipFiller false ('\n' :: rest) place keyAllowed false =
      skipFiller false rest (place.after '\n') true false := by
  have hbreak : isBreak '\n' = true := by decide
  rw [skipFiller]
  simp [hbreak]

/-! ## Inside the mapping -/

/-- The reader inside the outermost mapping. -/
def within (keyAllowed : Bool) (rest : List Char) (place : Position) (tokens : List Token)
    (key : Option PossibleKey := none) : Reader :=
  { cursor := ⟨rest, place⟩
    tokens := tokens
    margin := 1
    outerMargins := [0]
    keyAllowed := keyAllowed
    possibleKey := key }

/-- A possible key, if there is one, need not be a key, and can only be one on the given line. -/
def Spare (key : Option PossibleKey) (line : Nat) : Prop :=
  ∀ k, key = some k → k.required = false ∧ k.place.line = line

theorem expire_of_spare {key : Option PossibleKey} {line : Nat} (hspare : Spare key line)
    (hline : line < place.line) : expire place key = some none := by
  cases key with
  | none =>
      rfl
  | some k =>
      -- A key cannot go over a line's end, and to drop this one is no fault.
      rcases hspare k rfl with ⟨hrequired, hplace⟩
      have hstale : k.isStale place = true := by simp [PossibleKey.isStale, hplace, hline]
      simp [expire, hstale, hrequired]

variable {key : Option PossibleKey} {line : Nat}

theorem comesTo_line (hrest : StartsLine rest) (hspare : Spare key line) (hline : line < place.line) :
    (within true rest place tokens key).ComesTo (within true rest place tokens) where
  approach := approach_of_skipFiller rfl (skipFiller_line hrest) (expire_of_spare hspare hline)
    (Nat.le_add_left 1 _)
  shorter := Nat.le_refl _

theorem comesTo_nextLine (hrest : StartsLine rest) (hspare : Spare key line)
    (hline : line ≤ place.line) :
    (within keyAllowed ('\n' :: rest) place tokens key).ComesTo
      (within true rest (place.after '\n') tokens) where
  approach := by
    have hafter := Position.after_of_isBreak place (by decide : isBreak '\n' = true)
    exact approach_of_skipFiller rfl (skipFiller_break.trans (skipFiller_line hrest))
      (expire_of_spare hspare (by omega : line < (place.after '\n').line)) (Nat.le_add_left 1 _)
  shorter := Nat.le_succ _

theorem comesTo_afterSpace (hstop : StopsFiller c) :
    (within keyAllowed (' ' :: c :: rest) place tokens).ComesTo
      (within keyAllowed (c :: rest) (place.after ' ') tokens) where
  approach := approach_of_skipFiller rfl (skipFiller_space.trans (skipFiller_stop hstop)) rfl
    (Nat.le_add_left 1 _)
  shorter := Nat.le_succ _

/-- Inside a line no key is required. -/
theorem noteKey_within (hcolumn : 0 < place.column) :
    ∃ key, (within keyAllowed rest place tokens).noteKey =
        some (within keyAllowed rest place tokens key) ∧ Spare key place.line := by
  cases keyAllowed with
  | false =>
      exact ⟨none, rfl, fun _ h => by cases h⟩
  | true =>
      refine ⟨some ⟨false, tokens.length, place⟩, ?_, ?_⟩
      · simp [noteKey, within, dropKey, inFlow, Nat.ne_of_gt hcolumn]
      · intro k hk
        cases hk
        exact ⟨rfl, rfl⟩

/-! ## Where plain scalars start -/

/-- Where a plain scalar starts: at no indicator but one that a word goes on from. -/
structure StartsPlain (c : Char) (rest : List Char) : Prop where
  word : isSeparator c = false
  lead : c ∉ Style.leadingIndicators
  goes : c = '-' ∨ c = '?' ∨ c = ':' → separated rest = false

namespace StartsPlain

theorem indicators_eq : Style.leadingIndicators = ['#', ',', '[', ']', '\x7b', '\x7d', '&', '*', '!',
    '|', '>', '\'', '"', '%', '@', '`'] := by
  decide

theorem startsPlain (h : StartsPlain c rest) : Reader.startsPlain false c rest = true := by
  have hlead := h.lead
  have hindicators : "-?:,[]\x7b\x7d#&*!|>'\"%@`".toList =
      '-' :: '?' :: ':' :: ',' :: '[' :: ']' :: '\x7b' :: '\x7d' :: '#' ::
        ['&', '*', '!', '|', '>', '\'', '"', '%', '@', '`'] := by
    decide
  simp only [indicators_eq, List.mem_cons, List.not_mem_nil, or_false, not_or] at hlead
  by_cases hgoes : c = '-' ∨ c = '?' ∨ c = ':'
  · have hrest := h.goes hgoes
    have hblank : (rest.head?.map isSpaceOrTab).getD false = false := by
      cases rest with
      | nil =>
          rfl
      | cons d rest =>
          simp only [separated, isSeparator, Bool.or_eq_false_iff] at hrest
          exact hrest.1
    rcases hgoes with rfl | rfl | rfl <;> simp [Reader.startsPlain, hrest, hblank]
  · simp only [not_or] at hgoes
    simp [Reader.startsPlain, hindicators, h.word, hlead, hgoes]

theorem takeToken (h : StartsPlain c rest) (hflow : reader.inFlow = false)
    (hline : reader.cursor.place.column = 0 → startsDocumentMark (c :: rest) = false) :
    reader.takeToken c rest = reader.takePlain := by
  have hlead := h.lead
  simp only [indicators_eq, List.mem_cons, List.not_mem_nil, or_false, not_or] at hlead
  have hmark : ¬((decide (reader.cursor.place.column = 0) &&
      startsDocumentMark (c :: rest)) = true) := by
    simpa using hline
  have hgoes (d : Char) (hd : d = '-' ∨ d = '?' ∨ d = ':') : ¬(c = d ∧ separated rest = true) := by
    rintro ⟨rfl, hseparated⟩
    rw [h.goes hd] at hseparated
    cases hseparated
  rw [Reader.takeToken]
  simp [hlead, hflow, hmark, h.startsPlain, hgoes]

end StartsPlain

/-! ## Taking scalars -/

theorem takePlain_within {scanned : Plain.Scanned} (hcolumn : 0 < place.column)
    (hscan : Plain.scan false 1 rest place {} true = some scanned) :
    ∃ key, (within keyAllowed rest place tokens).takePlain =
        some (within scanned.brokenAfter scanned.after.rest scanned.after.place
          (.scalar scanned.text true :: tokens) key) ∧
      Spare key place.line := by
  rcases @noteKey_within rest place tokens keyAllowed hcolumn with ⟨key, hnote, hspare⟩
  refine ⟨key, ?_, hspare⟩
  rw [takePlain, hnote, Option.bind_some]
  simp only [within, inFlow, List.isEmpty_nil, Bool.not_true, hscan]
  rfl

theorem takeQuoted_within {scan : List Char → Position → Gap → Option ScannedText}
    {scanned : ScannedText} (hcolumn : 0 < place.column)
    (hscan : scan rest (place.after c) {} = some scanned) :
    ∃ key, (within keyAllowed (c :: rest) place tokens).takeQuoted scan =
        some (within false scanned.after.rest scanned.after.place
          (.scalar scanned.text false :: tokens) key) ∧
      Spare key place.line := by
  rcases @noteKey_within (c :: rest) place tokens keyAllowed hcolumn with ⟨key, hnote, hspare⟩
  have hopened : scan (Cursor.skip ⟨c :: rest, place⟩ 1).rest (Cursor.skip ⟨c :: rest, place⟩ 1).place
      {} = some scanned := hscan
  refine ⟨key, ?_, hspare⟩
  rw [takeQuoted, takeNode, hnote, Option.bind_some]
  simp only [within, hopened]
  rfl

theorem takeBlockScalar_within {scanned : Block.Scanned}
    (hscan : Block.scan true 1 ⟨rest, place.after c⟩ = some scanned) :
    (within keyAllowed (c :: rest) place tokens).takeBlockScalar true =
      some (within true scanned.after.rest scanned.after.place
        (.scalar scanned.text false :: tokens)) := by
  have hopened : Block.scan true 1 (Cursor.skip ⟨c :: rest, place⟩ 1) = some scanned := hscan
  simp only [takeBlockScalar, within, dropKey, Option.bind_some, hopened]
  rfl

/-! ## Values -/

/-- Reading on, the reader comes to the start of a line. -/
def ReadsTo (reader : Reader) (rest : List Char) (tokens : List Token) : Prop :=
  ∃ (next : Reader) (place : Position), reader.readAll = next.readAll ∧
    next.ComesTo (within true rest place tokens) ∧ place.column = 0

theorem startsLikeIndicator_cons (h : Style.startsLikeIndicator (c :: text) = false) :
    c ∉ Style.leadingIndicators ∧ (c = '?' ∨ c = '-' → separated text = false) := by
  unfold Style.startsLikeIndicator at h
  split at h
  · cases h
  · cases h
  · next heq =>
      cases heq
      simp only [Bool.or_eq_false_iff, Bool.and_eq_false_iff, decide_eq_false_iff_not] at h
      refine ⟨by simpa using h.1, fun hc => h.2.resolve_left ?_⟩
      rcases hc with rfl | rfl <;> simp
  · next heq =>
      cases heq

theorem startsPlain_of_canBePlain (h : Style.canBePlain (c :: text) = true) :
    StartsPlain c (text ++ '\n' :: rest) := by
  have hcarries := Plain.carries_of_canBePlain h
  simp only [Style.canBePlain, Bool.not_eq_true', Bool.or_eq_false_iff, decide_eq_false_iff_not] at h
  rcases h with ⟨⟨⟨⟨⟨-, hspace⟩, -⟩, hstarts⟩, hkeyless⟩, -⟩
  rcases startsLikeIndicator_cons hstarts with ⟨hlead, hgoes⟩
  simp only [Style.hasKeyColon, Bool.or_eq_false_iff, Bool.and_eq_false_iff,
    decide_eq_false_iff_not] at hkeyless
  refine ⟨?_, hlead, fun hc => Plain.separated_append ?_⟩
  · rw [← Bool.not_eq_true]
    intro hseparator
    refine hspace (congrArg some ?_)
    exact eq_space_of_isSeparator (hcarries.printable c List.mem_cons_self)
      (hcarries.unbroken c List.mem_cons_self) hseparator
  · rcases hc with hc | hc | hc
    · exact hgoes (.inr hc)
    · exact hgoes (.inl hc)
    · exact hkeyless.1.resolve_left (not_not_intro hc)

theorem StartsPlain.stopsFiller (h : StartsPlain c rest) (hprintable : Style.isPrintable c = true) :
    StopsFiller c := by
  refine ⟨h.word, ?_, ?_⟩
  · rintro rfl
    exact absurd hprintable (by decide)
  · rintro rfl
    exact absurd h.lead (by decide)

theorem readsTo_plain (hplain : Style.canBePlain text = true) (htext : text ≠ [])
    (hrest : StartsLine rest) :
    ReadsTo (within keyAllowed (' ' :: (text ++ '\n' :: rest)) place tokens) rest
      (.scalar text true :: tokens) := by
  cases text with
  | nil =>
      exact absurd rfl htext
  | cons c text =>
      have hcarries := Plain.carries_of_canBePlain hplain
      have hstarts : StartsPlain c (text ++ '\n' :: rest) := startsPlain_of_canBePlain hplain
      have hafter := Position.after_of_not_isBreak place (by decide : isBreak ' ' = false)
      have hcolumn : 1 ≤ (place.after ' ').column := by omega
      rcases Plain.scan_plain hrest Nat.one_pos hcarries hcolumn rfl (fun _ => rfl)
        (fun hfalse : true = false => by cases hfalse) with ⟨place', hscan, hzero, hline⟩
      rcases @takePlain_within _ _ tokens keyAllowed _ hcolumn hscan with ⟨key, htaken, hspare⟩
      have hinside (hzero : (place.after ' ').column = 0) :
          startsDocumentMark (c :: (text ++ '\n' :: rest)) = false := by omega
      have hshorter : rest.length ≤ (text ++ '\n' :: rest).length := by
        rw [List.length_append, List.length_cons]
        omega
      have hstops := hstarts.stopsFiller (hcarries.printable c List.mem_cons_self)
      exact ⟨_, _, readAll_of_takeToken (comesTo_afterSpace hstops) rfl
        ((hstarts.takeToken rfl hinside).trans htaken) hshorter,
        comesTo_line hrest hspare hline, hzero⟩

theorem readsTo_quoted {scan : List Char → Position → Gap → Option ScannedText} {quote : Char}
    {body : List Char} {place' : Position} (hquote : StopsFiller quote)
    (htake : ∀ {reader : Reader}, reader.takeToken quote body = reader.takeQuoted scan)
    (hscan : scan body ((place.after ' ').after quote) {} =
      some ⟨text, ⟨'\n' :: rest, place'⟩⟩)
    (hline : (place.after ' ').line ≤ place'.line) (hshorter : ('\n' :: rest).length ≤ body.length)
    (hrest : StartsLine rest) :
    ReadsTo (within keyAllowed (' ' :: quote :: body) place tokens) rest
      (.scalar text false :: tokens) := by
  have hafter := Position.after_of_not_isBreak place (by decide : isBreak ' ' = false)
  rcases @takeQuoted_within quote body (place.after ' ') tokens keyAllowed _ _ (by omega) hscan with
    ⟨key, htaken, hspare⟩
  refine ⟨_, _, readAll_of_takeToken (comesTo_afterSpace hquote) rfl (htake.trans htaken) hshorter,
    comesTo_nextLine hrest hspare hline, ?_⟩
  exact (Position.after_of_isBreak place' (by decide)).2

theorem takeToken_singleQuote : reader.takeToken '\'' rest = reader.takeQuoted Quoted.scanSingle := by
  simp [takeToken, startsDocumentMark]

theorem takeToken_doubleQuote : reader.takeToken '"' rest = reader.takeQuoted Quoted.scanDouble := by
  simp [takeToken, startsDocumentMark]

theorem takeToken_bar (hflow : reader.inFlow = false) :
    reader.takeToken '|' rest = reader.takeBlockScalar true := by
  simp [takeToken, startsDocumentMark, hflow]

theorem readsTo_literal (hprintable : ∀ c ∈ text, Style.isPrintable c = true) (htext : text ≠ [])
    (hrest : StartsLine rest) :
    ReadsTo (within keyAllowed (' ' :: (Scalar.writeIn .literal text ++ rest)) place tokens) rest
      (.scalar text false :: tokens) := by
  let body := (Scalar.writeIn .literal text).tail ++ rest
  have hwritten : Scalar.writeIn .literal text ++ rest = '|' :: body := by
    simp [body, Scalar.writeIn, Scalar.literalHeader]
  have hbar : StopsFiller '|' := by
    refine ⟨?_, ?_, ?_⟩ <;> decide
  have hshorter : rest.length ≤ body.length := by
    rw [List.length_append]
    exact Nat.le_add_left _ _
  rcases Block.scan_literal ((place.after ' ').after '|') hprintable htext hrest with
    ⟨place', hscan, hzero, hline⟩
  have htaken := @takeBlockScalar_within '|' body (place.after ' ') tokens keyAllowed _ hscan
  rw [hwritten]
  exact ⟨_, _, readAll_of_takeToken (comesTo_afterSpace hbar) rfl ((takeToken_bar rfl).trans htaken)
    hshorter, comesTo_line hrest (fun _ h => by cases h) hline, hzero⟩

theorem readsTo_singleQuoted (hcarries : Quoted.Carries text) (hrest : StartsLine rest) :
    ReadsTo (within keyAllowed (' ' :: (Scalar.writeIn .singleQuoted text ++ rest)) place tokens) rest
      (.scalar text false :: tokens) := by
  let body := Scalar.singleQuotedBody false text ++ '\'' :: '\n' :: rest
  have hwritten : Scalar.writeIn .singleQuoted text ++ rest = '\'' :: body := by
    simp [body, Scalar.writeIn]
  have hquote : StopsFiller '\'' := by
    refine ⟨?_, ?_, ?_⟩ <;> decide
  have hafter := Position.after_of_not_isBreak (place.after ' ') (by decide : isBreak '\'' = false)
  have hshorter : ('\n' :: rest).length ≤ body.length := by
    simp only [body, List.length_append, List.length_cons]
    omega
  rcases Quoted.scanSingle_body rest ((place.after ' ').after '\'') hcarries (Gap.Kept.blanks [])
    (fun _ _ _ _ => rfl) (fun h => by cases h) (fun _ => by omega) with ⟨place', hscan, hline⟩
  rw [hwritten]
  exact readsTo_quoted hquote takeToken_singleQuote hscan (by omega) hshorter hrest

theorem readsTo_doubleQuoted (hrest : StartsLine rest) :
    ReadsTo (within keyAllowed (' ' :: (Scalar.writeIn .doubleQuoted text ++ rest)) place tokens) rest
      (.scalar text false :: tokens) := by
  let body := text.flatMap Scalar.doubleQuotedChar ++ '"' :: '\n' :: rest
  have hwritten : Scalar.writeIn .doubleQuoted text ++ rest = '"' :: body := by
    simp [body, Scalar.writeIn]
  have hquote : StopsFiller '"' := by
    refine ⟨?_, ?_, ?_⟩ <;> decide
  have hafter := Position.after_of_not_isBreak (place.after ' ') (by decide : isBreak '"' = false)
  have hshorter : ('\n' :: rest).length ≤ body.length := by
    simp only [body, List.length_append, List.length_cons]
    omega
  rcases Quoted.scanDouble_body text ('\n' :: rest) ((place.after ' ').after '"')
    (Gap.Kept.blanks []) (by omega) with ⟨place', hscan, hline⟩
  rw [hwritten]
  exact readsTo_quoted hquote takeToken_doubleQuote hscan (by omega) hshorter hrest

/-- A written text is read as the scalar that it was. -/
theorem readsTo_write (text : List Char) (hrest : StartsLine rest) :
    ReadsTo (within keyAllowed (' ' :: (Scalar.write text ++ rest)) place tokens) rest
      (.scalar text (Style.choose text = .plain) :: tokens) := by
  rw [Scalar.write]
  rcases Style.choose_cases text with ⟨hstyle, hcan, htyped⟩ | ⟨hstyle, hcan, hfeed⟩ |
    ⟨hstyle, hcan, hfeed⟩ | hstyle <;> rw [hstyle]
  · have htext : text ≠ [] := by
      rintro rfl
      exact absurd htyped (by decide)
    rw [Scalar.writeIn, List.append_assoc]
    exact readsTo_plain hcan htext hrest
  · exact readsTo_singleQuoted (Quoted.carries_of_canBeSingleQuoted hcan hfeed) hrest
  · simp only [Style.canBeLiteral, Bool.not_eq_true', Bool.or_eq_false_iff] at hcan
    exact readsTo_literal (fun _ => Style.isPrintable_of_hasSpecial hcan.1.1)
      (List.ne_nil_of_mem hfeed) hrest
  · exact readsTo_doubleQuoted hrest

/-! ## Lists -/

theorem ReadsTo.of_readAll (hread : reader.readAll = next.readAll) (h : next.ReadsTo rest tokens) :
    reader.ReadsTo rest tokens := by
  rcases h with ⟨last, place, hnext, hcomes, hcolumn⟩
  exact ⟨last, place, hread.trans hnext, hcomes, hcolumn⟩

/-- A dash at the start of a line is an entry, and does not open a block there. -/
theorem readAll_dash (h : reader.ComesTo (within true ('-' :: ' ' :: rest) place tokens))
    (hcolumn : place.column = 0) :
    reader.readAll =
      (within true (' ' :: rest) (place.after '-') (.blockEntry :: tokens)).readAll := by
  refine readAll_of_takeToken h rfl ?_ (Nat.le_refl _)
  have hseparated : separated (' ' :: rest) = true := by rw [separated]; decide
  have hmark : startsDocumentMark ('-' :: ' ' :: rest) = false := by simp [startsDocumentMark]
  simp [takeToken, hseparated, hmark, takeBlockIndicator, within, inFlow, openBlock, hcolumn, dropKey,
    allowKey, skip, emit, Cursor.skip]

/-- The lines of a list. -/
def itemLines (texts : List (List Char)) : List Char :=
  texts.flatMap fun text => '-' :: ' ' :: Scalar.write text

/-- The tokens of a list. -/
def itemTokens (texts : List (List Char)) : List Token :=
  texts.flatMap fun text => [.blockEntry, .scalar text (Style.choose text = .plain)]

theorem startsLine_itemLines {texts : List (List Char)} (hrest : StartsLine rest) :
    StartsLine (itemLines texts ++ rest) := by
  cases texts with
  | nil =>
      exact hrest
  | cons text texts =>
      intro c hc
      cases hc
      decide

theorem readsTo_items {texts : List (List Char)}
    (h : reader.ComesTo (within true (itemLines texts ++ rest) place tokens))
    (hcolumn : place.column = 0) (hrest : StartsLine rest) :
    reader.ReadsTo rest ((itemTokens texts).reverse ++ tokens) := by
  induction texts generalizing reader place tokens with
  | nil =>
      exact ⟨reader, place, rfl, h, hcolumn⟩
  | cons text texts ih =>
      rw [itemLines, List.flatMap_cons, List.append_assoc, ← itemLines, List.cons_append,
        List.cons_append] at h
      have hitem := (readsTo_write text (startsLine_itemLines hrest)).of_readAll
        (readAll_dash h hcolumn)
      rcases hitem with ⟨next, place', hnext, hcomes, hzero⟩
      have hitems := (ih hcomes hzero).of_readAll hnext
      simpa [itemTokens] using hitems

/-- The reader inside the brackets of a value. -/
def inBrackets (rest : List Char) (place : Position) (tokens : List Token) : Reader :=
  { within true rest place tokens with outerKeys := [none] }

theorem comesTo_inBrackets :
    (inBrackets (']' :: rest) place tokens).ComesTo (inBrackets (']' :: rest) place tokens) where
  approach := by
    have hbreak : isBreak ']' = false := by decide
    have hmark : ']' ≠ byteOrderMark := by decide
    simp [approach, inBrackets, within, inFlow, skipFiller, hbreak, hmark, expireKeys, expire,
      closeBlocksTo]
  shorter := Nat.le_refl _

/-- Brackets with nothing in them. -/
theorem readsTo_brackets (hrest : StartsLine rest) :
    ReadsTo (within false (' ' :: '[' :: ']' :: '\n' :: rest) place tokens) rest
      (.flowSequenceEnd :: .flowSequenceStart :: tokens) := by
  have hbracket : StopsFiller '[' := by
    refine ⟨?_, ?_, ?_⟩ <;> decide
  have hopening : (within false ('[' :: ']' :: '\n' :: rest) (place.after ' ') tokens).takeToken '['
      (']' :: '\n' :: rest) = some (inBrackets (']' :: '\n' :: rest)
        ((place.after ' ').after '[') (.flowSequenceStart :: tokens)) := by
    simp [takeToken, startsDocumentMark, takeOpening, noteKey, within, inBrackets, allowKey, skip,
      emit, Cursor.skip]
  have hclosing : (inBrackets (']' :: '\n' :: rest) ((place.after ' ').after '[')
      (.flowSequenceStart :: tokens)).takeToken ']' ('\n' :: rest) = some (within false ('\n' :: rest)
        (((place.after ' ').after '[').after ']')
        (.flowSequenceEnd :: .flowSequenceStart :: tokens)) := by
    simp [takeToken, startsDocumentMark, takeClosing, dropKey, within, inBrackets, allowKey, skip,
      emit, Cursor.skip]
  refine ⟨_, _, (readAll_of_takeToken (comesTo_afterSpace hbracket) rfl hopening
    (Nat.le_refl _)).trans (readAll_of_takeToken comesTo_inBrackets rfl hclosing (Nat.le_refl _)),
    comesTo_nextLine hrest (fun _ h => by cases h) (Nat.le_refl _), ?_⟩
  exact (Position.after_of_isBreak _ (by decide)).2

/-! ## Names -/

/-- Names that a key can be written as. -/
structure IsName (name : List Char) : Prop where
  chars : ∀ c ∈ name, isNameChar c = true
  head : ∃ c, name.head? = some c ∧ c ≠ '-'
  short : name.length ≤ 128

theorem not_mem_leadingIndicators (h : isNameChar c = true) : c ∉ Style.leadingIndicators := by
  intro hmem
  have hnone : Style.leadingIndicators.all (!isNameChar ·) = true := by decide
  have hc := List.all_eq_true.1 hnone c hmem
  simp [h] at hc

theorem startsPlain_of_isNameChar (rest : List Char) (h : isNameChar c = true) (hdash : c ≠ '-') :
    StartsPlain c rest := by
  refine ⟨isSeparator_of_isNameChar h, not_mem_leadingIndicators h, ?_⟩
  rintro (rfl | rfl | rfl)
  · exact absurd rfl hdash
  · exact absurd h (by decide)
  · exact absurd h (by decide)

theorem startsDocumentMark_of_isNameChar (h : isNameChar c = true) (hdash : c ≠ '-') :
    startsDocumentMark (c :: rest) = false := by
  have hdot : c ≠ '.' := by
    rintro rfl
    exact absurd h (by decide)
  unfold startsDocumentMark
  split <;> simp_all

/-- A name takes its characters of the line. -/
theorem place_of_name {name : List Char} (hname : ∀ c ∈ name, isNameChar c = true)
    (place : Position) :
    (name.foldl Position.after place).line = place.line ∧
      (name.foldl Position.after place).column = place.column + name.length ∧
      (name.foldl Position.after place).index ≤ place.index + 4 * name.length := by
  induction name generalizing place with
  | nil =>
      exact ⟨rfl, rfl, Nat.le_refl _⟩
  | cons c name ih =>
      have hbreak := isBreak_of_isSeparator (isSeparator_of_isNameChar (hname c List.mem_cons_self))
      have hafter := Position.after_of_not_isBreak place hbreak
      have hindex : (place.after c).index ≤ place.index + 4 := by
        have hsize := c.utf8Size_le_four
        simp only [Position.after, hbreak, Bool.false_eq_true, if_false]
        omega
      rcases ih (fun d hd => hname d (List.mem_cons_of_mem _ hd)) (place.after c) with
        ⟨hline, hcolumn, hindex'⟩
      simp only [List.foldl_cons, List.length_cons]
      omega

/-- The reader at the start of a line with a name, inside the mapping or before it. -/
def atName (inside : Bool) (rest : List Char) (place : Position) (tokens : List Token) : Reader :=
  if inside then within true rest place tokens else { cursor := ⟨rest, place⟩, tokens := tokens }

/-- The reader after a name, which may be a key. -/
def afterName (inside : Bool) (name rest : List Char) (place place' : Position)
    (tokens : List Token) : Reader :=
  { atName inside rest place' (.scalar name true :: tokens) with
    keyAllowed := false
    possibleKey := some ⟨inside, tokens.length, place⟩ }

variable {inside : Bool} {name : List Char} {place' : Position}

@[simp] theorem atName_cursor : (atName inside rest place tokens).cursor = ⟨rest, place⟩ := by
  cases inside <;> rfl

@[simp] theorem afterName_cursor :
    (afterName inside name rest place place' tokens).cursor = ⟨rest, place'⟩ := by
  cases inside <;> rfl

theorem takePlain_atName (hname : ∀ c ∈ name, isNameChar c = true) (hrest : separated rest = true)
    (hcolumn : place.column = 0) :
    (atName inside (name ++ ':' :: rest) place tokens).takePlain =
      some (afterName inside name (':' :: rest) place (name.foldl Position.after place) tokens) := by
  cases inside with
  | false =>
      have hscan := @Plain.scan_name 0 rest place name hname hrest
      simp [takePlain, atName, afterName, noteKey, dropKey, inFlow, hscan, allowKey, emit]
  | true =>
      have hscan := @Plain.scan_name 1 rest place name hname hrest
      simp [takePlain, atName, within, afterName, noteKey, dropKey, inFlow, hscan, allowKey, emit,
        hcolumn]

theorem comesTo_afterName (hline : place'.line = place.line)
    (hindex : place'.index ≤ place.index + PossibleKey.maxLength) :
    (afterName inside name (':' :: rest) place place' tokens).ComesTo
      (afterName inside name (':' :: rest) place place' tokens) where
  approach := by
    have hcolon : StopsFiller ':' := by
      refine ⟨?_, ?_, ?_⟩ <;> decide
    have hstale : PossibleKey.isStale ⟨inside, tokens.length, place⟩ place' = false := by
      simp only [PossibleKey.isStale, Bool.or_eq_false_iff, decide_eq_false_iff_not]
      omega
    cases inside with
    | false =>
        exact approach_of_skipFiller rfl (skipFiller_stop hcolon)
          (by simp [expire, afterName, atName, hstale]) (Nat.zero_le _)
    | true =>
        exact approach_of_skipFiller rfl (skipFiller_stop hcolon)
          (by simp [expire, afterName, atName, within, hstale]) (Nat.le_add_left 1 _)
  shorter := Nat.le_refl _

/-- The tokens of a name that is a key; the first one opens the mapping. -/
def keyTokens (inside : Bool) (name : List Char) : List Token :=
  (if inside then [] else [.blockMappingStart]) ++ [.key, .scalar name true, .value]

theorem takeToken_colon (hrest : separated rest = true) (hcolumn : place.column = 0) :
    (afterName inside name (':' :: rest) place place' tokens).takeToken ':' rest =
      some (within false rest (place'.after ':') ((keyTokens inside name).reverse ++ tokens)) := by
  cases inside with
  | false =>
      -- The key and the start of the mapping come late, and go before the name already emitted.
      have hlate : tokens.length + 1 + 1 - tokens.length = 2 := by omega
      simp [takeToken, startsDocumentMark, hrest, takeValue, afterName, atName, within, keyTokens,
        emitAt, openBlock, inFlow, allowKey, skip, emit, Cursor.skip, hcolumn, hlate]
  | true =>
      simp [takeToken, startsDocumentMark, hrest, takeValue, afterName, atName, within, keyTokens,
        emitAt, openBlock, inFlow, allowKey, skip, emit, Cursor.skip, hcolumn]

/-- A name and a colon at the start of a line are a key. -/
theorem readAll_name (hname : IsName name) (hrest : separated rest = true)
    (h : reader.ComesTo (atName inside (name ++ ':' :: rest) place tokens))
    (hcolumn : place.column = 0) :
    ∃ place', reader.readAll =
      (within false rest place' ((keyTokens inside name).reverse ++ tokens)).readAll := by
  have hflow : (atName inside (name ++ ':' :: rest) place tokens).inFlow = false := by
    cases inside <;> rfl
  have htaken := @takePlain_atName rest place tokens inside name hname.chars hrest hcolumn
  rcases place_of_name hname.chars place with ⟨hline, -, hindex⟩
  have hshort := hname.short
  have hcomes := @comesTo_afterName rest place tokens inside name _ hline
    (Nat.le_trans hindex (Nat.add_le_add_left (by simp only [PossibleKey.maxLength]; omega) _))
  rcases hname.head with ⟨c, hhead, hdash⟩
  cases name with
  | nil =>
      cases hhead
  | cons c name =>
      cases hhead
      have hc := hname.chars c List.mem_cons_self
      have htake := ((startsPlain_of_isNameChar (name ++ ':' :: rest) hc hdash).takeToken hflow
        fun _ => startsDocumentMark_of_isNameChar hc hdash).trans htaken
      have hshorter : (':' :: rest).length ≤ (name ++ ':' :: rest).length := by
        rw [List.length_append]
        exact Nat.le_add_left _ _
      -- Two tokens are taken: the name, which may be a key, and the colon, which makes it one.
      refine ⟨_, (readAll_of_takeToken h (congrArg Cursor.rest atName_cursor) htake ?_).trans
        (readAll_of_takeToken hcomes (congrArg Cursor.rest afterName_cursor)
          (takeToken_colon hrest hcolumn) (Nat.le_refl _))⟩
      rw [afterName_cursor]
      exact hshorter

/-! ## The end -/

theorem readAll_end (h : reader.ComesTo (within true [] place tokens)) :
    reader.readAll = some (tokens.reverse ++ [.blockEnd]) := by
  rw [readAll_of_finish h rfl]
  simp [finish, within, closeBlocksTo, closeBlocksTo.close, inFlow, dropKey]

/-- At the very start of a text there may be a name. -/
theorem comesTo_atName (hname : StartsLine rest) :
    ComesTo { cursor := ⟨rest, {}⟩ } (atName false rest {} []) where
  approach := approach_of_skipFiller rfl (skipFiller_line hname) rfl (Nat.zero_le _)
  shorter := Nat.le_refl _

end Reader
end Yaml
end NativeLaunch
