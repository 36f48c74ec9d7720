import NativeLaunch.Proofs.Yaml.Print
import NativeLaunch.Yaml.Flow

/-!
# Flow scalars read back

What is written plain or between quotes is scanned as the text that was written, whatever line comes
after it.  This file defines:

* `StartsLine` — what can come after: the end, or a line that starts with a name or a dash;
* `Plain.Carries` and `Quoted.Carries` — the texts that the styles carry;
* `Gap.Kept` — gaps that are not folded.

Along a scan the gap before the next word holds the separators that were read already, so the scan
of a rest gives the text of the gap and then the rest (`Gap.text`).
-/

namespace NativeLaunch
namespace Yaml

/-! ## Characters and places -/

/-- The end of a text, or a line that starts with a name or a dash. -/
def StartsLine (rest : List Char) : Prop := ∀ c, rest.head? = some c → isNameChar c = true

theorem isSeparator_of_isNameChar {c : Char} (hname : isNameChar c = true) :
    isSeparator c = false := by
  rw [← Bool.not_eq_true]
  intro hseparator
  simp only [isSeparator, isSpaceOrTab, isBreak, Bool.or_eq_true, decide_eq_true_eq] at hseparator
  rcases hseparator with (rfl | rfl) | ((rfl | rfl) | rfl) <;> exact absurd hname (by decide)

theorem isBreak_of_isSeparator {c : Char} (h : isSeparator c = false) : isBreak c = false := by
  simp only [isSeparator, Bool.or_eq_false_iff] at h
  exact h.2

namespace Position

theorem after_of_isBreak (place : Position) {c : Char} (h : isBreak c = true) :
    (place.after c).line = place.line + 1 ∧ (place.after c).column = 0 := by
  simp [after, h]

theorem after_of_not_isBreak (place : Position) {c : Char} (h : isBreak c = false) :
    (place.after c).line = place.line ∧ (place.after c).column = place.column + 1 := by
  simp [after, h]

theorem line_le_after (place : Position) (c : Char) : place.line ≤ (place.after c).line := by
  unfold after
  split <;> simp

end Position

theorem isPrintable_ne_tab {c : Char} (h : Style.isPrintable c = true) : c ≠ '\t' := by
  rintro rfl
  exact absurd h (by decide)

theorem eq_space_of_isSeparator {c : Char} (hprintable : Style.isPrintable c = true)
    (hbreak : isBreak c = false) (hseparator : isSeparator c = true) : c = ' ' := by
  simp only [isSeparator, isSpaceOrTab, hbreak, Bool.or_false, Bool.or_eq_true,
    decide_eq_true_eq] at hseparator
  exact hseparator.resolve_right (isPrintable_ne_tab hprintable)

theorem Gap.add_of_blank {gap : Gap} {c : Char} (hgap : gap.broken = false)
    (hbreak : isBreak c = false) :
    (gap.add c).broken = false ∧ (gap.add c).text = gap.text ++ [c] := by
  simp [Gap.add, Gap.text, hgap, hbreak]

namespace Style

variable {p q : Char → Bool} {c d : Char} {text : List Char}

theorem hasAdjacent_tail (h : hasAdjacent p q (c :: text) = false) :
    hasAdjacent p q text = false := by
  cases text with
  | nil =>
      rfl
  | cons d text =>
      simp only [hasAdjacent, Bool.or_eq_false_iff] at h
      exact h.2

theorem head_of_hasAdjacent (h : hasAdjacent p q (c :: text) = false) (hc : p c = true)
    (hd : text.head? = some d) : q d = false := by
  cases text with
  | nil =>
      cases hd
  | cons e text =>
      cases hd
      simpa [hasAdjacent, hc] using (Bool.or_eq_false_iff.1 h).1

end Style

/-! ## Plain scalars -/

namespace Plain

theorem separated_append {t rest : List Char} (hgoes : separated t = false) :
    separated (t ++ rest) = false := by
  cases t with
  | nil =>
      cases hgoes
  | cons c t =>
      exact hgoes

/-- What a plain scalar can carry, from a place inside it on. -/
structure Carries (text : List Char) : Prop where
  printable : ∀ c ∈ text, Style.isPrintable c = true
  unbroken : ∀ c ∈ text, isBreak c = false
  keyless : Style.hasKeyColon text = false
  uncommented : Style.hasAdjacent isSeparator (· = '#') text = false
  bare : Style.endsInSpace text = false

theorem Carries.tail {c : Char} {text : List Char} (h : Carries (c :: text)) : Carries text where
  printable d hd := h.printable d (List.mem_cons_of_mem _ hd)
  unbroken d hd := h.unbroken d (List.mem_cons_of_mem _ hd)
  keyless := by
    have hkeyless := h.keyless
    simp only [Style.hasKeyColon, Bool.or_eq_false_iff] at hkeyless
    exact hkeyless.2
  uncommented := Style.hasAdjacent_tail h.uncommented
  bare := by
    have hbare := h.bare
    cases text with
    | nil =>
        rfl
    | cons d text =>
        simpa [Style.endsInSpace] using hbare

theorem carries_of_canBePlain {text : List Char} (h : Style.canBePlain text = true) :
    Carries text := by
  simp only [Style.canBePlain, Bool.not_eq_true', Bool.or_eq_false_iff] at h
  rcases h with ⟨⟨⟨⟨⟨⟨hspecial, hbreak⟩, -⟩, hbare⟩, -⟩, hkeyless⟩, huncommented⟩
  exact
    { printable := fun _ => Style.isPrintable_of_hasSpecial hspecial
      unbroken := fun c hc => by simpa using List.any_eq_false.1 hbreak c hc
      keyless := hkeyless
      uncommented := huncommented
      bare := hbare }

section Scan

variable {margin : Nat} {c : Char} {rest : List Char} {place : Position} {gap : Gap} {atWord : Bool}

theorem scan_separator (hseparator : isSeparator c = true) (hgap : gap.broken = false) :
    scan false margin (c :: rest) place gap atWord =
      scan false margin rest (place.after c) (gap.add c) false := by
  rw [scan]
  simp [hseparator, hgap]

theorem scan_word (hword : isSeparator c = false)
    (hfresh : atWord = false → margin ≤ place.column ∧ 0 < place.column ∧ c ≠ '#')
    (hcolon : c = ':' → separated rest = false) :
    scan false margin (c :: rest) place gap atWord =
      (scan false margin rest (place.after c) {} true).map fun scanned =>
        { scanned with text := gap.text ++ c :: scanned.text } := by
  have hends : endsBefore false c rest = false := by
    simpa [endsBefore] using hcolon
  have hmisplaced : isMisplacedColon false c rest = false := by simp [isMisplacedColon]
  have hstops : (!atWord && ((!false && decide (place.column < margin)) || decide (c = '#') ||
      (decide (place.column = 0) && startsDocumentMark (c :: rest)))) = false := by
    cases atWord with
    | true =>
        rfl
    | false =>
        rcases hfresh rfl with ⟨hcolumn, hzero, hcomment⟩
        simp [hcomment, Nat.not_lt.2 hcolumn, Nat.ne_of_gt hzero]
  rw [scan, if_neg (by simp [hword]), if_neg (by simp only [hstops]; simp),
    if_neg (by simp [hmisplaced]), if_neg (by simp [hends])]

/-- A line break ends the scalar where the next line is not indented. -/
theorem scan_break (hrest : StartsLine rest) (hmargin : 0 < margin) (hgap : gap.broken = false) :
    ∃ place', scan false margin ('\n' :: rest) place gap atWord =
        some ⟨⟨[], ⟨rest, place'⟩⟩, true⟩ ∧
      place'.column = 0 ∧ place.line < place'.line := by
  have hbreak : isBreak '\n' = true := by decide
  have hplace := Position.after_of_isBreak place hbreak
  have hbroken : (gap.add '\n').broken = true := by simp [Gap.add, hbreak, hgap]
  refine ⟨place.after '\n', ?_, hplace.2, by omega⟩
  rw [scan_separator (by decide) hgap]
  cases rest with
  | nil =>
      rw [scan, hbroken]
  | cons c rest =>
      have hword := isSeparator_of_isNameChar (hrest c rfl)
      rw [scan, if_neg (by simp [hword]), if_pos (by simp [hplace.2, hmargin]), hbroken]

/-- A text that can be plain is scanned to the end of its line. -/
theorem scan_plain {text : List Char} (hrest : StartsLine rest) (hmargin : 0 < margin)
    (hplain : Carries text) (hcolumn : margin ≤ place.column) (hgap : gap.broken = false)
    (hnil : text = [] → gap = {}) (hhead : atWord = false → text.head? ≠ some '#') :
    ∃ place', scan false margin (text ++ '\n' :: rest) place gap atWord =
        some ⟨⟨gap.text ++ text, ⟨rest, place'⟩⟩, true⟩ ∧
      place'.column = 0 ∧ place.line < place'.line := by
  -- The gap holds the spaces since the last word; at the end of the text it has to be empty.
  induction text generalizing place gap atWord with
  | nil =>
      rw [hnil rfl]
      exact scan_break hrest hmargin rfl
  | cons c text ih =>
      have hc := hplain.unbroken c List.mem_cons_self
      have hafter := Position.after_of_not_isBreak place hc
      have hcolumn' : margin ≤ (place.after c).column := by omega
      have hkey := hplain.keyless
      simp only [Style.hasKeyColon, Bool.or_eq_false_iff, Bool.and_eq_false_iff,
        decide_eq_false_iff_not] at hkey
      cases hseparator : isSeparator c with
      | true =>
          -- A space joins the gap, and there is more text after it.
          have hadd := Gap.add_of_blank hgap hc
          have hspace : c = ' ' :=
            eq_space_of_isSeparator (hplain.printable c List.mem_cons_self) hc hseparator
          have hmore : text ≠ [] := by
            rintro rfl
            have hend := hplain.bare
            simp [Style.endsInSpace, hspace] at hend
          have hcomment : text.head? ≠ some '#' := fun hhead => absurd
            (Style.head_of_hasAdjacent hplain.uncommented hseparator hhead) (by decide)
          rcases ih hplain.tail hcolumn' hadd.1 (fun hnil => absurd hnil hmore) (fun _ => hcomment)
            with ⟨place', hscan, hzero, hline⟩
          refine ⟨place', ?_, hzero, by omega⟩
          rw [List.cons_append, scan_separator hseparator hgap, hscan, hadd.2, List.append_assoc]
          rfl
      | false =>
          have hgoes : c = ':' → separated (text ++ '\n' :: rest) = false :=
            fun hcolon => separated_append (hkey.1.resolve_left (not_not_intro hcolon))
          have hfresh : atWord = false → margin ≤ place.column ∧ 0 < place.column ∧ c ≠ '#' := by
            refine fun hfalse => ⟨hcolumn, by omega, ?_⟩
            rintro rfl
            exact hhead hfalse rfl
          rcases ih hplain.tail hcolumn' rfl (fun _ => rfl)
            (fun hfalse : true = false => by cases hfalse) with ⟨place', hscan, hzero, hline⟩
          refine ⟨place', ?_, hzero, by omega⟩
          rw [List.cons_append, scan_word hseparator hfresh hgoes, hscan]
          rfl

/-- The name of a key is scanned to the colon after it. -/
theorem scan_name {name : List Char} (hname : ∀ c ∈ name, isNameChar c = true)
    (hrest : separated rest = true) :
    scan false margin (name ++ ':' :: rest) place {} true =
      some ⟨⟨name, ⟨':' :: rest, name.foldl Position.after place⟩⟩, false⟩ := by
  induction name generalizing place with
  | nil =>
      have hends : endsBefore false ':' rest = true := by simp [endsBefore, hrest]
      rw [List.nil_append, scan, if_neg (by decide), if_neg (by simp),
        if_neg (by simp [isMisplacedColon]), if_pos hends]
      rfl
  | cons c name ih =>
      have hc := hname c List.mem_cons_self
      have hcolon : c ≠ ':' := by
        rintro rfl
        exact absurd hc (by decide)
      rw [List.cons_append, scan_word (isSeparator_of_isNameChar hc)
        (fun hfalse : true = false => by cases hfalse) (fun h => absurd h hcolon),
        ih fun d hd => hname d (List.mem_cons_of_mem _ hd)]
      rfl

end Scan

end Plain

/-! ## Gaps between quotes -/

/-- Gaps that stand for the very separators read: blanks, or breaks of which the first is no line
feed.  The flag tells them apart. -/
inductive Gap.Kept : Bool → Gap → Prop
  | blanks (blanks : List Char) : Gap.Kept false { blanks := blanks }
  | breaks {c : Char} (hfeed : c ≠ '\n') (more : List Char) :
      Gap.Kept true { broken := true, firstBreak := [c], moreBreaks := more }

namespace Gap.Kept

variable {afterBreak : Bool} {gap : Gap} {c : Char}

theorem add_blank (h : Gap.Kept false gap) (hbreak : isBreak c = false) :
    Gap.Kept false (gap.add c) ∧ (gap.add c).text = gap.text ++ [c] := by
  cases h with
  | blanks blanks =>
      refine ⟨?_, (Gap.add_of_blank rfl hbreak).2⟩
      simpa [Gap.add, hbreak] using Gap.Kept.blanks (blanks ++ [c])

/-- A break after blanks would drop them. -/
theorem add_break (h : Gap.Kept afterBreak gap) (hbreak : isBreak c = true) (hfeed : c ≠ '\n')
    (hblank : afterBreak = false → gap.text = []) :
    Gap.Kept true (gap.add c) ∧ (gap.add c).text = gap.text ++ [c] := by
  cases h with
  | blanks blanks =>
      rw [hblank rfl]
      exact ⟨by simpa [Gap.add, hbreak] using Gap.Kept.breaks hfeed [],
        by simp [Gap.add, Gap.text, hbreak, hfeed]⟩
  | breaks hfirst more =>
      exact ⟨by simpa [Gap.add, hbreak] using Gap.Kept.breaks hfirst (more ++ [c]),
        by simp [Gap.add, Gap.text, hbreak, hfirst]⟩

/-- Indentation after a break does not count. -/
theorem add_space (h : Gap.Kept true gap) : gap.add ' ' = gap := by
  cases h with
  | breaks hfirst more =>
      have hspace : isBreak ' ' = false := by decide
      simp [Gap.add, hspace]

end Gap.Kept

/-! ## Quoted scalars -/

namespace Quoted

variable {c : Char} {text rest : List Char} {place : Position} {gap : Gap} {afterBreak : Bool}

/-! ### Single quotes -/

theorem scanSingle_close :
    scanSingle ('\'' :: '\n' :: rest) place gap =
      some ⟨gap.text, ⟨'\n' :: rest, place.after '\''⟩⟩ := by
  rw [scanSingle]
  · rw [if_pos rfl]
  · intro more _ hmore
    cases hmore

theorem scanSingle_separator (hseparator : isSeparator c = true) :
    scanSingle (c :: rest) place gap = scanSingle rest (place.after c) (gap.add c) := by
  have hquote : c ≠ '\'' := by
    rintro rfl
    exact absurd hseparator (by decide)
  rw [scanSingle]
  · rw [if_neg hquote, if_pos hseparator]
  · exact fun _ h _ => absurd h hquote

theorem scanSingle_word (hword : isSeparator c = false) (hquote : c ≠ '\'')
    (hcolumn : 0 < place.column) :
    scanSingle (c :: rest) place gap =
      (scanSingle rest (place.after c) {}).map (·.prepend (gap.text ++ [c])) := by
  rw [scanSingle]
  · rw [if_neg hquote, if_neg (by simp [hword]), if_neg (by simp [Nat.ne_of_gt hcolumn])]
  · exact fun _ h _ => absurd h hquote

/-- The indentation after a break leaves the gap as it is and leads away from the line's start. -/
theorem scanSingle_margin (rest : List Char) (hgap : Gap.Kept afterBreak gap)
    (hcolumn : afterBreak = false → 0 < place.column) :
    ∃ place', scanSingle ((if afterBreak then Scalar.margin else []) ++ rest) place gap =
        scanSingle rest place' gap ∧
      0 < place'.column ∧ place'.line = place.line := by
  cases afterBreak with
  | false =>
      exact ⟨place, rfl, hcolumn rfl, rfl⟩
  | true =>
      have hspace : isBreak ' ' = false := by decide
      have hfirst := Position.after_of_not_isBreak place hspace
      have hsecond := Position.after_of_not_isBreak (place.after ' ') hspace
      refine ⟨(place.after ' ').after ' ', ?_, by omega, by omega⟩
      rw [if_pos rfl, Scalar.margin, List.cons_append, List.cons_append, List.nil_append,
        scanSingle_separator (by decide), hgap.add_space, scanSingle_separator (by decide),
        hgap.add_space]

/-- What single quotes can carry: printable text on one line or broken by separators other than line
feeds, with no space beside a break. -/
structure Carries (text : List Char) : Prop where
  printable : ∀ c ∈ text, Style.isPrintable c = true
  unfed : '\n' ∉ text
  cleanBefore : Style.hasSpaceBeforeBreak text = false
  cleanAfter : Style.hasSpaceAfterBreak text = false

theorem carries_of_canBeSingleQuoted (h : Style.canBeSingleQuoted text = true)
    (hfeed : '\n' ∉ text) : Carries text := by
  simp only [Style.canBeSingleQuoted, Bool.not_eq_true', Bool.or_eq_false_iff] at h
  rcases h with ⟨⟨hspecial, hbefore⟩, hafter⟩
  exact
    { printable := fun _ => Style.isPrintable_of_hasSpecial hspecial
      unfed := hfeed
      cleanBefore := hbefore
      cleanAfter := hafter }

theorem Carries.tail (h : Carries (c :: text)) : Carries text where
  printable d hd := h.printable d (List.mem_cons_of_mem _ hd)
  unfed hfeed := h.unfed (List.mem_cons_of_mem _ hfeed)
  cleanBefore := Style.hasAdjacent_tail h.cleanBefore
  cleanAfter := Style.hasAdjacent_tail h.cleanAfter

/-- A word character in single quotes, written twice if it is the quote. -/
theorem scanSingle_quoted (hword : isSeparator c = false) (hcolumn : 0 < place.column) :
    ∃ place', scanSingle ((if c = '\'' then ['\'', '\''] else [c]) ++ rest) place gap =
        (scanSingle rest place' {}).map (·.prepend (gap.text ++ [c])) ∧
      0 < place'.column ∧ place'.line = place.line := by
  by_cases hquote : c = '\''
  · refine ⟨place.along 2, ?_, Nat.succ_pos _, rfl⟩
    subst hquote
    rw [if_pos rfl]
    simp only [List.cons_append, List.nil_append]
    rw [scanSingle]
  · have hafter := Position.after_of_not_isBreak place (isBreak_of_isSeparator hword)
    refine ⟨place.after c, ?_, by omega, hafter.1⟩
    rw [if_neg hquote]
    exact scanSingle_word hword hquote hcolumn

/-- What is written of a text between single quotes is scanned to the closing quote.  The gap so far
may not be blank before a break, nor broken before a space. -/
theorem scanSingle_body (rest : List Char) (place : Position) (hcarries : Carries text)
    (hgap : Gap.Kept afterBreak gap)
    (hblank : ∀ c, text.head? = some c → isBreak c = true → afterBreak = false → gap.text = [])
    (hspace : afterBreak = true → text.head? ≠ some ' ')
    (hcolumn : afterBreak = false → 0 < place.column) :
    ∃ place', scanSingle (Scalar.singleQuotedBody afterBreak text ++ '\'' :: '\n' :: rest)
        place gap = some ⟨gap.text ++ text, ⟨'\n' :: rest, place'⟩⟩ ∧
      place.line ≤ place'.line := by
  induction text generalizing place gap afterBreak with
  | nil =>
      rcases scanSingle_margin ('\'' :: '\n' :: rest) hgap hcolumn with ⟨place', hscan, -, hline⟩
      refine ⟨place'.after '\'', ?_, hline ▸ Position.line_le_after place' '\''⟩
      rw [Scalar.singleQuotedBody, hscan, scanSingle_close, List.append_nil]
  | cons c text ih =>
      cases hbreak : isBreak c with
      | true =>
          have hfeed : c ≠ '\n' := by
            rintro rfl
            exact hcarries.unfed List.mem_cons_self
          have hadd := hgap.add_break hbreak hfeed (hblank c rfl hbreak)
          have hnext : text.head? ≠ some ' ' := fun hhead => absurd
            (Style.head_of_hasAdjacent hcarries.cleanAfter hbreak hhead) (by decide)
          have hafter := Position.after_of_isBreak place hbreak
          rcases ih (place.after c) hcarries.tail hadd.1 (fun _ _ _ h => by cases h)
            (fun _ => hnext) (fun h => by cases h) with ⟨place', hscan, hline⟩
          refine ⟨place', ?_, by omega⟩
          rw [Scalar.singleQuotedBody, if_pos hbreak, List.cons_append,
            scanSingle_separator (by simp [isSeparator, hbreak]), hscan, hadd.2,
            List.append_assoc]
          rfl
      | false =>
          rw [Scalar.singleQuotedBody, if_neg (by simp [hbreak]), List.append_assoc,
            List.append_assoc]
          cases hseparator : isSeparator c with
          | true =>
              -- A space never follows a break, so it joins blanks of its line.
              obtain rfl : c = ' ' :=
                eq_space_of_isSeparator (hcarries.printable c List.mem_cons_self) hbreak hseparator
              obtain rfl : afterBreak = false := by
                rw [← Bool.not_eq_true]
                exact fun hafter => hspace hafter rfl
              have hadd := hgap.add_blank hbreak
              have hafter := Position.after_of_not_isBreak place hbreak
              rcases ih (place.after ' ') hcarries.tail hadd.1
                (fun d hd hdbreak _ => absurd
                  (Style.head_of_hasAdjacent hcarries.cleanBefore (by decide) hd) (by simp [hdbreak]))
                (fun h => by cases h) (fun _ => by omega) with ⟨place', hscan, hline⟩
              refine ⟨place', ?_, by omega⟩
              rw [if_neg Bool.false_ne_true, if_neg (by decide), List.nil_append,
                List.cons_append, List.nil_append, scanSingle_separator (by decide), hscan, hadd.2,
                List.append_assoc]
              rfl
          | false =>
              rcases scanSingle_margin _ hgap hcolumn with ⟨place₁, hmargin, hcolumn₁, hline₁⟩
              rcases scanSingle_quoted hseparator hcolumn₁ with ⟨place₂, hquoted, hcolumn₂, hline₂⟩
              rcases ih place₂ hcarries.tail (Gap.Kept.blanks []) (fun _ _ _ _ => rfl)
                (fun h => by cases h) (fun _ => hcolumn₂) with ⟨place', hscan, hline⟩
              refine ⟨place', ?_, by omega⟩
              rw [hmargin, hquoted, hscan]
              simp [ScannedText.prepend, Gap.text]

/-! ### Double quotes -/

theorem escape_of_mem : ∀ entry ∈ Scalar.escapeLetters,
    simpleEscape? entry.2 = some entry.1 ∧ isBreak entry.2 = false ∧
      entry.2 ∉ ['x', 'u', 'U'] := by
  decide

/-- The capital hexadecimal digit of a place of a number. -/
def hexDigitAt (exponent n : Nat) : Char := (n / 16 ^ exponent % 16).digitChar.toUpper

theorem hexDigits_two : ∀ n < 0xA0,
    Scalar.hexDigits 2 n = [hexDigitAt 1 n, hexDigitAt 0 n] ∧
      hexNumber? (Scalar.hexDigits 2 n) = some n := by
  decide +kernel

theorem hexDigits_four : ∀ n ∈ [0xFEFF, 0xFFFE, 0xFFFF],
    Scalar.hexDigits 4 n = [hexDigitAt 3 n, hexDigitAt 2 n, hexDigitAt 1 n, hexDigitAt 0 n] ∧
      hexNumber? (Scalar.hexDigits 4 n) = some n := by
  decide +kernel

theorem hexChar?_of_hexNumber? {digits : List Char} (h : hexNumber? digits = some c.toNat) :
    hexChar? digits = some c := by
  have hvalid : c.toNat.isValidChar := c.valid
  rw [hexChar?, h, Option.bind_some, charOfCode?, if_pos hvalid, Char.ofNat_toNat]

theorem scanDouble_close :
    scanDouble ('"' :: rest) place gap = some ⟨gap.text, ⟨rest, place.after '"'⟩⟩ := by
  simp [scanDouble]

theorem scanDouble_letter {letter : Char} (hbreak : isBreak letter = false)
    (hplain : letter ∉ ['x', 'u', 'U']) :
    scanDouble ('\\' :: letter :: rest) place gap =
      (simpleEscape? letter).bind fun e =>
        (scanDouble rest (place.along 2) {}).map (·.prepend (gap.text ++ [e])) := by
  simp only [List.mem_cons, List.not_mem_nil, or_false, not_or] at hplain
  rw [scanDouble]
  · rw [if_neg (by simp [hbreak])]
  · intro a b more h
    exact absurd h hplain.1
  · intro a b d e more h
    exact absurd h hplain.2.1
  · intro a b d e f g h i more hletter
    exact absurd hletter hplain.2.2

theorem scanDouble_separator (hseparator : isSeparator c = true) :
    scanDouble (c :: rest) place gap = scanDouble rest (place.after c) (gap.add c) := by
  have hquote : c ≠ '"' := by
    rintro rfl
    exact absurd hseparator (by decide)
  have hescape : c ≠ '\\' := by
    rintro rfl
    exact absurd hseparator (by decide)
  rw [scanDouble]
  · rw [if_neg hquote, if_pos hseparator]
  all_goals simp [hescape]

theorem scanDouble_word (hword : isSeparator c = false) (hquote : c ≠ '"') (hescape : c ≠ '\\')
    (hcolumn : 0 < place.column) :
    scanDouble (c :: rest) place gap =
      (scanDouble rest (place.after c) {}).map (·.prepend (gap.text ++ [c])) := by
  rw [scanDouble]
  · rw [if_neg hquote, if_neg (by simp [hword]), if_neg hescape,
      if_neg (by simp [Nat.ne_of_gt hcolumn])]
  all_goals simp [hescape]

theorem scanDouble_escape (rest : List Char) (place : Position) (gap : Gap) {spelling : List Char}
    (hescapes : Scalar.Escapes c spelling) :
    ∃ count, scanDouble (spelling ++ rest) place gap =
      (scanDouble rest (place.along count) {}).map (·.prepend (gap.text ++ [c])) := by
  cases hescapes with
  | letter letter hmem =>
      rcases escape_of_mem (c, letter) hmem with ⟨hescape, hbreak, hplain⟩
      refine ⟨2, ?_⟩
      rw [List.cons_append, List.cons_append, List.nil_append, scanDouble_letter hbreak hplain,
        hescape, Option.bind_some]
  | twoDigits hlow =>
      rcases hexDigits_two c.toNat hlow with ⟨hdigits, hnumber⟩
      rw [hdigits] at hnumber ⊢
      refine ⟨4, ?_⟩
      simp only [List.cons_append, List.nil_append]
      rw [scanDouble, hexChar?_of_hexNumber? hnumber, Option.bind_some]
  | fourDigits hhigh =>
      rcases hexDigits_four c.toNat hhigh with ⟨hdigits, hnumber⟩
      rw [hdigits] at hnumber ⊢
      refine ⟨6, ?_⟩
      simp only [List.cons_append, List.nil_append]
      rw [scanDouble, hexChar?_of_hexNumber? hnumber, Option.bind_some]

/-- A character between double quotes is scanned either at once or, where it is a space, into the
gap. -/
theorem scanDouble_char (hgap : Gap.Kept false gap) (hcolumn : 0 < place.column) :
    ∃ lead gap' place', Gap.Kept false gap' ∧ lead ++ gap'.text = gap.text ++ [c] ∧
      scanDouble (Scalar.doubleQuotedChar c ++ rest) place gap =
        (scanDouble rest place' gap').map (·.prepend lead) ∧
      0 < place'.column ∧ place'.line = place.line := by
  rcases Scalar.escapes_or_bare c with hescapes | ⟨hbare, hwritten⟩
  · rcases scanDouble_escape rest place gap hescapes with ⟨count, hscan⟩
    exact ⟨gap.text ++ [c], {}, place.along count, Gap.Kept.blanks [], by simp [Gap.text], hscan,
      Nat.lt_of_lt_of_le hcolumn (Nat.le_add_right _ _), rfl⟩
  · have hafter := Position.after_of_not_isBreak place hbare.unbroken
    rw [hwritten, List.cons_append, List.nil_append]
    cases hseparator : isSeparator c with
    | true =>
        have hadd := hgap.add_blank hbare.unbroken
        refine ⟨[], gap.add c, place.after c, hadd.1, hadd.2, ?_, by omega, hafter.1⟩
        rw [scanDouble_separator hseparator]
        cases scanDouble rest (place.after c) (gap.add c) <;> rfl
    | false =>
        exact ⟨gap.text ++ [c], {}, place.after c, Gap.Kept.blanks [], by simp [Gap.text],
          scanDouble_word hseparator hbare.quote hbare.escape hcolumn, by omega, hafter.1⟩

/-- What is written of a text between double quotes is scanned to the closing quote. -/
theorem scanDouble_body (text rest : List Char) (place : Position) (hgap : Gap.Kept false gap)
    (hcolumn : 0 < place.column) :
    ∃ place', scanDouble (text.flatMap Scalar.doubleQuotedChar ++ '"' :: rest) place gap =
        some ⟨gap.text ++ text, ⟨rest, place'⟩⟩ ∧
      place.line ≤ place'.line := by
  induction text generalizing place gap with
  | nil =>
      refine ⟨place.after '"', ?_, Position.line_le_after place '"'⟩
      rw [List.flatMap_nil, List.nil_append, scanDouble_close, List.append_nil]
  | cons c text ih =>
      rcases scanDouble_char (c := c) hgap hcolumn with
        ⟨lead, gap', place₁, hgap', hlead, hchar, hcolumn₁, hline₁⟩
      rcases ih place₁ hgap' hcolumn₁ with ⟨place', hscan, hline⟩
      refine ⟨place', ?_, by omega⟩
      rw [List.flatMap_cons, List.append_assoc, hchar, hscan]
      simp only [Option.map_some, ScannedText.prepend, ← List.append_assoc, hlead]
      rw [List.append_assoc, List.singleton_append]

end Quoted
end Yaml
end NativeLaunch
