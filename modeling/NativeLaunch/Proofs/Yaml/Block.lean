import NativeLaunch.Proofs.Yaml.Flow
import NativeLaunch.Yaml.Block

/-!
# Literal blocks read back

What is written as a literal block is scanned as the text that was written, if the lines after it
are not indented.  This file defines:

* `Block.Above.Fresh` and `Block.Above.Shows` — what is known inside a line and before one;
* `Block.Ends` — how a text's last breaks, the chomping and the written end go together.

A text is taken apart into a body that ends inside a line and the breaks after it.  The body is
scanned by induction on its characters, with the breaks not yet given back held above
(`Above.pending`); what becomes of the last breaks is up to the chomping.
-/

namespace NativeLaunch
namespace Yaml
namespace Block

variable {c : Char} {body breaks rest more : List Char} {place : Position} {above : Above}
variable {chomping : Chomping} {lineStart : Bool}

/-! ## Lines in the making -/

namespace Above

/-- The breaks that were read and not yet given back. -/
def pending (above : Above) : List Char := above.lastBreak ++ above.emptyLines

/-- Inside a line nothing is held back. -/
structure Fresh (above : Above) : Prop where
  indent : above.indent = 2
  lastBreak : above.lastBreak = []
  emptyLines : above.emptyLines = []

/-- Before a line the indentation is known, or the line shows it. -/
def Shows (above : Above) (text : List Char) : Prop :=
  above.indent = 2 ∨
    (above.indent = 0 ∧ above.deepest = 0 ∧
      ∃ c, text.head? = some c ∧ c ≠ ' ' ∧ isBreak c = false)

theorem settledIndent_of_shows {text : List Char} (h : above.Shows text) :
    above.settledIndent 1 2 = 2 := by
  rcases h with hindent | ⟨hindent, hdeepest, -⟩ <;> simp [settledIndent, *]

/-- An empty line shows nothing. -/
theorem indent_of_shows {text : List Char} (h : above.Shows (c :: text)) (hbreak : isBreak c = true) :
    above.indent = 2 := by
  rcases h with hindent | ⟨-, -, d, hhead, -, hd⟩
  · exact hindent
  · cases hhead
    simp [hd] at hbreak

end Above

/-! ## The lines of a body -/

theorem scanLines_inside (hbreak : isBreak c = false) :
    scanLines true chomping 1 (c :: rest) place above true =
      (scanLines true chomping 1 rest (place.after c) above true).map fun scanned =>
        { scanned with text := c :: scanned.text } := by
  rw [scanLines]
  simp [hbreak]

theorem scanLines_lineEnd (hbreak : isBreak c = true) :
    scanLines true chomping 1 (c :: rest) place above true =
      scanLines true chomping 1 rest (place.after c) { above with lastBreak := [c] } false := by
  rw [scanLines]
  simp [hbreak]

theorem scanLines_emptyLine (hbreak : isBreak c = true) :
    scanLines true chomping 1 (c :: rest) place above false =
      scanLines true chomping 1 rest (place.after c)
        { above with
          deepest := max above.deepest place.column
          emptyLines := above.emptyLines ++ [c] } false := by
  have hspace : c ≠ ' ' := by
    rintro rfl
    exact absurd hbreak (by decide)
  have htab : c ≠ '\t' := by
    rintro rfl
    exact absurd hbreak (by decide)
  rw [scanLines]
  simp [hbreak, hspace, htab]

theorem scanLines_margin (hshallow : above.indent = 0 ∨ place.column < above.indent) :
    scanLines true chomping 1 (' ' :: rest) place above false =
      scanLines true chomping 1 rest (place.after ' ') above false := by
  rw [scanLines]
  simp [hshallow]

theorem scanLines_firstChar (hbreak : isBreak c = false) (htab : c ≠ '\t')
    (hshows : above.Shows (c :: body)) (hcolumn : place.column = 2) :
    scanLines true chomping 1 (c :: rest) place above false =
      (scanLines true chomping 1 rest (place.after c) { indent := 2, lastBlank := isSpaceOrTab c }
        true).map fun scanned => { scanned with text := above.pending ++ c :: scanned.text } := by
  have hspace : ¬((decide (above.indent = 0) || decide (place.column < above.indent)) &&
      decide (c = ' ')) = true := by
    rcases hshows with hindent | ⟨-, -, d, hhead, hspace, -⟩
    · simp [hindent, hcolumn]
    · cases hhead
      simp [hspace]
  rw [scanLines, if_neg hspace, if_neg (by simp [htab]), if_neg (by simp [hbreak]), hcolumn,
    Above.settledIndent_of_shows hshows, if_pos rfl]
  simp [Above.join, Above.pending]

/-- A break is held back, at the end of a line or on an empty one. -/
theorem scanLines_break (rest : List Char) (place : Position) (hbreak : isBreak c = true)
    (hstart : lineStart = true → above.Shows (c :: body)) (hinside : lineStart = false → above.Fresh) :
    ∃ above', scanLines true chomping 1 (c :: rest) place above (!lineStart) =
        scanLines true chomping 1 rest (place.after c) above' false ∧
      above'.indent = 2 ∧ above'.pending = above.pending ++ [c] := by
  cases lineStart with
  | true =>
      have hindent := Above.indent_of_shows (hstart rfl) hbreak
      exact ⟨_, scanLines_emptyLine hbreak, hindent, by simp [Above.pending]⟩
  | false =>
      have hfresh := hinside rfl
      refine ⟨_, scanLines_lineEnd hbreak, hfresh.indent, ?_⟩
      simp [Above.pending, hfresh.lastBreak, hfresh.emptyLines]

/-- The first character of a line, after the indentation. -/
theorem scanLines_lineStart (rest : List Char) (hbreak : isBreak c = false) (htab : c ≠ '\t')
    (hshows : above.Shows (c :: body)) (hcolumn : place.column = 0) :
    ∃ place', scanLines true chomping 1 (Scalar.margin ++ c :: rest) place above false =
        (scanLines true chomping 1 rest place' { indent := 2, lastBlank := isSpaceOrTab c }
          true).map (fun scanned => { scanned with text := above.pending ++ c :: scanned.text }) ∧
      place'.line = place.line := by
  have hspace : isBreak ' ' = false := by decide
  have hfirst := Position.after_of_not_isBreak place hspace
  have hsecond := Position.after_of_not_isBreak (place.after ' ') hspace
  have hthird := Position.after_of_not_isBreak ((place.after ' ').after ' ') hbreak
  have hshallow (column : Nat) (h : column < 2) : above.indent = 0 ∨ column < above.indent := by
    rcases hshows with hindent | ⟨hindent, -, -⟩
    · exact .inr (by omega)
    · exact .inl hindent
  refine ⟨((place.after ' ').after ' ').after c, ?_, by omega⟩
  rw [Scalar.margin, List.cons_append, List.cons_append, List.nil_append,
    scanLines_margin (hshallow _ (by omega)), scanLines_margin (hshallow _ (by omega)),
    scanLines_firstChar hbreak htab hshows (by omega)]

/-- A character of the text, where need be after the indentation of its line. -/
theorem scanLines_char (rest : List Char) (hbreak : isBreak c = false) (htab : c ≠ '\t')
    (hstart : lineStart = true → place.column = 0 ∧ above.Shows (c :: body))
    (hinside : lineStart = false → above.Fresh) :
    ∃ place' above', scanLines true chomping 1
          ((if lineStart then Scalar.margin else []) ++ c :: rest) place above (!lineStart) =
        (scanLines true chomping 1 rest place' above' true).map
          (fun scanned => { scanned with text := above.pending ++ c :: scanned.text }) ∧
      above'.Fresh ∧ place'.line = place.line := by
  cases lineStart with
  | true =>
      rcases hstart rfl with ⟨hcolumn, hshows⟩
      rcases scanLines_lineStart rest hbreak htab hshows hcolumn with ⟨place', hscan, hline⟩
      exact ⟨place', _, hscan, ⟨rfl, rfl, rfl⟩, hline⟩
  | false =>
      have hfresh := hinside rfl
      refine ⟨place.after c, above, ?_, hfresh, (Position.after_of_not_isBreak place hbreak).1⟩
      rw [if_neg Bool.false_ne_true, List.nil_append, Bool.not_false, scanLines_inside hbreak]
      simp [Above.pending, hfresh.lastBreak, hfresh.emptyLines]

/-- The body of a literal block is given back, and the scan goes on inside its last line. -/
theorem scanLines_body (place : Position) (above : Above) (lineStart : Bool)
    (hprintable : ∀ c ∈ body, Style.isPrintable c = true)
    (hends : ∀ c, body.getLast? = some c → isBreak c = false)
    (hstart : lineStart = true → body ≠ [] ∧ place.column = 0 ∧ above.Shows body)
    (hinside : lineStart = false → above.Fresh) :
    ∃ place' inside, scanLines true chomping 1 (Scalar.literalBody lineStart body ++ more) place
          above (!lineStart) =
        (scanLines true chomping 1 more place' inside true).map
          (fun scanned => { scanned with text := above.pending ++ body ++ scanned.text }) ∧
      inside.Fresh ∧ place.line ≤ place'.line := by
  induction body generalizing place above lineStart with
  | nil =>
      cases lineStart with
      | true =>
          exact absurd rfl (hstart rfl).1
      | false =>
          have hfresh := hinside rfl
          refine ⟨place, above, ?_, hfresh, Nat.le_refl _⟩
          simp [Scalar.literalBody, Above.pending, hfresh.lastBreak, hfresh.emptyLines]
  | cons c body ih =>
      have hends' : ∀ d, body.getLast? = some d → isBreak d = false := by
        intro d hd
        refine hends d ?_
        cases body with
        | nil =>
            cases hd
        | cons e body =>
            rwa [List.getLast?_cons_cons]
      have hprintable' : ∀ d ∈ body, Style.isPrintable d = true :=
        fun d hd => hprintable d (List.mem_cons_of_mem _ hd)
      have hc := hprintable c List.mem_cons_self
      -- A break is held back in `above`, any other character gives back what was held.
      cases hbreak : isBreak c with
      | true =>
          -- After a break there is more of the body, at the start of a line.
          have hmore : body ≠ [] := by
            rintro rfl
            simp [hends c rfl] at hbreak
          have hafter := Position.after_of_isBreak place hbreak
          rcases scanLines_break (Scalar.literalBody true body ++ more) place hbreak
            (fun hat => (hstart hat).2.2) hinside with ⟨above', hstep, hindent', hpending⟩
          rcases ih (place.after c) above' true hprintable' hends'
            (fun _ => ⟨hmore, hafter.2, .inl hindent'⟩) (fun h => by cases h) with
            ⟨place', inside, hscan, hfresh, hline⟩
          refine ⟨place', inside, ?_, hfresh, by omega⟩
          rw [Scalar.literalBody, if_pos hbreak, List.cons_append, hstep]
          refine hscan.trans ?_
          simp [hpending]
      | false =>
          rcases scanLines_char (Scalar.literalBody false body ++ more) hbreak (isPrintable_ne_tab hc)
            (fun hat => (hstart hat).2) hinside with ⟨place₁, above', hstep, hfresh₁, hline₁⟩
          rcases ih place₁ above' false hprintable' hends' (fun h => by cases h)
            (fun _ => hfresh₁) with ⟨place', inside, hscan, hfresh, hline⟩
          refine ⟨place', inside, ?_, hfresh, by omega⟩
          rw [Bool.not_false] at hscan
          rw [Scalar.literalBody, if_neg (by simp [hbreak]), List.append_assoc, List.cons_append,
            hstep, hscan]
          simp [Above.pending, hfresh₁.lastBreak, hfresh₁.emptyLines, Function.comp_def]

/-! ## The breaks at the end -/

theorem scanLines_end (hrest : StartsLine rest) (hindent : above.indent = 2)
    (hcolumn : place.column = 0) :
    scanLines true chomping 1 rest place above false =
      some ⟨above.chomp chomping, ⟨rest, place⟩⟩ := by
  cases rest with
  | nil =>
      rw [scanLines]
  | cons c rest =>
      have hword := isSeparator_of_isNameChar (hrest c rfl)
      simp only [isSeparator, isSpaceOrTab, Bool.or_eq_false_iff, decide_eq_false_iff_not] at hword
      rw [scanLines, if_neg (by simp [hword]), if_neg (by simp [hword]), if_neg (by simp [hword])]
      simp [Above.settledIndent, hindent, hcolumn]

theorem scanLines_emptyLines (above : Above) (hrest : StartsLine rest) (hindent : above.indent = 2)
    (hcolumn : place.column = 0) (hbreaks : ∀ c ∈ breaks, isBreak c = true) :
    ∃ place', scanLines true chomping 1 (breaks ++ rest) place above false =
        some ⟨Above.chomp chomping { above with emptyLines := above.emptyLines ++ breaks },
          ⟨rest, place'⟩⟩ ∧
      place'.column = 0 ∧ place.line ≤ place'.line := by
  induction breaks generalizing place above with
  | nil =>
      refine ⟨place, ?_, hcolumn, Nat.le_refl _⟩
      rw [List.nil_append, List.append_nil]
      exact scanLines_end hrest hindent hcolumn
  | cons c breaks ih =>
      have hbreak := hbreaks c List.mem_cons_self
      have hafter := Position.after_of_isBreak place hbreak
      rcases ih ({ above with
          deepest := max above.deepest place.column
          emptyLines := above.emptyLines ++ [c] }) hindent hafter.2
        (fun d hd => hbreaks d (List.mem_cons_of_mem _ hd)) with ⟨place', hscan, hzero, hline⟩
      refine ⟨place', ?_, hzero, by omega⟩
      rw [List.cons_append, scanLines_emptyLine hbreak, hscan, List.append_assoc]
      cases chomping <;> rfl

/-- The end of a line with text, and the empty lines after it. -/
theorem scanLines_breaks (breaks : List Char) (hrest : StartsLine rest) (hfresh : above.Fresh)
    (hbreaks : ∀ d ∈ c :: breaks, isBreak d = true) :
    ∃ place', scanLines true chomping 1 (c :: (breaks ++ rest)) place above true =
        some ⟨Above.chomp chomping { indent := 2, lastBreak := [c], emptyLines := breaks },
          ⟨rest, place'⟩⟩ ∧
      place'.column = 0 ∧ place.line < place'.line := by
  have hbreak := hbreaks c List.mem_cons_self
  have hafter := Position.after_of_isBreak place hbreak
  rcases scanLines_emptyLines { above with lastBreak := [c] } hrest hfresh.indent hafter.2
    (fun d hd => hbreaks d (List.mem_cons_of_mem _ hd)) with
    ⟨place', hscan, hzero, hline⟩
  refine ⟨place', ?_, hzero, by omega⟩
  rw [scanLines_lineEnd hbreak, hscan, hfresh.emptyLines, List.nil_append]
  cases chomping <;> rfl

/-! ## Chomping -/

/-- The sign for a chomping. -/
def Chomping.sign : Chomping → List Char
  | .strip => ['-']
  | .clip => []
  | .keep => ['+']

/-- How a body, the breaks at the end of a text, their chomping and the break that is added to them go
together. -/
inductive Ends : (body breaks : List Char) → Chomping → (added : List Char) → Prop
  | strip {body : List Char} (hbody : body ≠ []) : Ends body [] .strip ['\n']
  | clip {body : List Char} (c : Char) (hbody : body ≠ []) : Ends body [c] .clip []
  | keep (body : List Char) (c : Char) (breaks : List Char) : Ends body (c :: breaks) .keep []

theorem exists_body (text : List Char) :
    ∃ body breaks, text = body ++ breaks ∧ (∀ c ∈ breaks, isBreak c = true) ∧
      ∀ c, body.getLast? = some c → isBreak c = false := by
  refine ⟨(text.reverse.dropWhile isBreak).reverse, (text.reverse.takeWhile isBreak).reverse,
    ?_, ?_, ?_⟩
  · rw [← List.reverse_append, List.takeWhile_append_dropWhile, List.reverse_reverse]
  · intro c hc
    exact List.all_eq_true.1 List.all_takeWhile c (List.mem_reverse.1 hc)
  · intro c hc
    have hhead := List.head?_dropWhile_not isBreak text.reverse
    rw [← List.getLast?_reverse, hc] at hhead
    exact hhead

theorem getLast?_eq_some_of_reverse {text before : List Char} (h : text.reverse = c :: before) :
    text.getLast? = some c := by
  rw [← List.head?_reverse, h]
  rfl

/-- What is written around a text tells its chomping. -/
theorem ends_of_written (htext : body ++ breaks ≠ []) (hbreaks : ∀ c ∈ breaks, isBreak c = true)
    (hends : ∀ c, body.getLast? = some c → isBreak c = false) :
    ∃ chomping added, Ends body breaks chomping added ∧
      Scalar.chompingSign (body ++ breaks) = chomping.sign ∧
      (if ((body ++ breaks).getLast?.map isBreak).getD true then [] else ['\n']) = added := by
  have hreverse : (body ++ breaks).reverse = breaks.reverse ++ body.reverse := List.reverse_append
  cases hbreaks' : breaks.reverse with
  | nil =>
      obtain rfl : breaks = [] := List.reverse_eq_nil_iff.1 hbreaks'
      rw [List.append_nil] at htext ⊢
      cases hbody : body.reverse with
      | nil =>
          exact absurd (List.reverse_eq_nil_iff.1 hbody) htext
      | cons last before =>
          have hlast := getLast?_eq_some_of_reverse hbody
          have hinside := hends last hlast
          refine ⟨.strip, _, .strip htext, ?_, by simp [hlast, hinside]⟩
          simp [Scalar.chompingSign, hbody, hinside, Chomping.sign]
  | cons last before =>
      have hbreak : isBreak last = true := by
        refine hbreaks last (List.mem_reverse.1 ?_)
        rw [hbreaks']
        exact List.mem_cons_self
      rw [hbreaks', List.cons_append] at hreverse
      have hlast := getLast?_eq_some_of_reverse hreverse
      have hadded : (if ((body ++ breaks).getLast?.map isBreak).getD true then [] else ['\n']) =
          ([] : List Char) := by
        simp [hlast, hbreak]
      have hkeep : Ends body breaks .keep [] := by
        cases breaks with
        | nil =>
            cases hbreaks'
        | cons c breaks =>
            exact .keep body c breaks
      cases before with
      | nil =>
          cases hbody : body.reverse with
          | nil =>
              refine ⟨.keep, [], hkeep, ?_, hadded⟩
              simp [Scalar.chompingSign, hreverse, hbody, hbreak, Chomping.sign]
          | cons c more =>
              have hc := hends c (getLast?_eq_some_of_reverse hbody)
              have hbody' : body ≠ [] := by
                rintro rfl
                cases hbody
              obtain rfl : breaks = [last] := by simpa using congrArg List.reverse hbreaks'
              refine ⟨.clip, [], .clip last hbody', ?_, hadded⟩
              simp [Scalar.chompingSign, hreverse, hbody, hbreak, hc, Chomping.sign]
      | cons c before =>
          have hc : isBreak c = true := by
            refine hbreaks c (List.mem_reverse.1 ?_)
            rw [hbreaks']
            exact List.mem_cons_of_mem _ List.mem_cons_self
          refine ⟨.keep, [], hkeep, ?_, hadded⟩
          simp [Scalar.chompingSign, hreverse, hbreak, hc, Chomping.sign]

/-- After the body the breaks are given back as the chomping says. -/
theorem scanLines_ends {added : List Char} (place : Position)
    (hends : Ends body breaks chomping added) (hbreaks : ∀ c ∈ breaks, isBreak c = true)
    (hrest : StartsLine rest) (hfresh : above.Fresh) :
    ∃ place', scanLines true chomping 1 (breaks ++ (added ++ rest)) place above true =
        some ⟨breaks, ⟨rest, place'⟩⟩ ∧
      place'.column = 0 ∧ place.line < place'.line := by
  cases hends with
  | strip =>
      have hfeed : ['\n'].all isBreak = true := by decide
      exact scanLines_breaks [] hrest hfresh (List.all_eq_true.1 hfeed)
  | clip c =>
      exact scanLines_breaks [] hrest hfresh hbreaks
  | keep c breaks =>
      exact scanLines_breaks breaks hrest hfresh hbreaks

/-! ## Whole blocks -/

theorem Header.scan_sign (chomping : Chomping) (hinted : Bool) :
    Header.scan ((if hinted then ['2'] else []) ++ (chomping.sign ++ '\n' :: rest)) =
      some (⟨chomping, if hinted then 2 else 0⟩, '\n' :: rest) := by
  cases chomping <;> cases hinted <;> rfl

theorem literalBody_breaks (hbreaks : ∀ c ∈ breaks, isBreak c = true) :
    Scalar.literalBody lineStart breaks = breaks := by
  induction breaks generalizing lineStart with
  | nil =>
      rfl
  | cons c breaks ih =>
      rw [Scalar.literalBody, if_pos (hbreaks c List.mem_cons_self),
        ih fun d hd => hbreaks d (List.mem_cons_of_mem _ hd)]

theorem literalBody_append (hbreaks : ∀ c ∈ breaks, isBreak c = true) :
    Scalar.literalBody lineStart (body ++ breaks) = Scalar.literalBody lineStart body ++ breaks := by
  induction body generalizing lineStart with
  | nil =>
      exact literalBody_breaks hbreaks
  | cons c body ih =>
      rw [List.cons_append, Scalar.literalBody, Scalar.literalBody]
      split
      · rw [ih, List.cons_append]
      · rw [ih, List.append_assoc, List.cons_append]

/-- Whether the header of a text gives the indentation. -/
def isHinted : List Char → Bool
  | c :: _ => c = ' ' || isBreak c
  | [] => false

theorem literalHeader_eq (text : List Char) :
    Scalar.literalHeader text =
      '|' :: ((if isHinted text then ['2'] else []) ++ (Scalar.chompingSign text ++ ['\n'])) := by
  cases text <;> simp [Scalar.literalHeader, isHinted]

/-- After the header comes the start of the first line. -/
theorem scan_header (rest : List Char) (place : Position) (chomping : Chomping) (hinted : Bool) :
    ∃ place', scan true 1
          ⟨(if hinted then ['2'] else []) ++ (chomping.sign ++ '\n' :: rest), place⟩ =
        scanLines true chomping 1 rest place' { indent := if hinted then 2 else 0 } false ∧
      place'.column = 0 ∧ place.line < place'.line := by
  have hbreak : isBreak '\n' = true := by decide
  let header := (if hinted then ['2'] else []) ++ (chomping.sign ++ '\n' :: rest)
  let place₁ := place.along (header.length - ('\n' :: rest).length)
  have hafter := Position.after_of_isBreak place₁ hbreak
  have hline : place₁.line = place.line := rfl
  refine ⟨place₁.after '\n', ?_, hafter.2, by omega⟩
  rw [scan, Header.scan_sign, Option.bind_some]
  cases hinted <;> rfl

/-- The body of a text that starts with no space or break shows the indentation. -/
theorem shows_of_isHinted (breaks : List Char) (hbody : body ≠ []) :
    Above.Shows { indent := if isHinted (body ++ breaks) then 2 else 0 } body := by
  cases body with
  | nil =>
      exact absurd rfl hbody
  | cons c body =>
      cases hinted : isHinted (c :: body ++ breaks) with
      | true =>
          exact .inl rfl
      | false =>
          simp only [isHinted, List.cons_append, Bool.or_eq_false_iff, decide_eq_false_iff_not]
            at hinted
          exact .inr ⟨rfl, rfl, c, rfl, hinted.1, hinted.2⟩

/-- A text that is written as a literal block is scanned to the next line that is not indented. -/
theorem scan_literal {text : List Char} (place : Position)
    (hprintable : ∀ c ∈ text, Style.isPrintable c = true) (htext : text ≠ [])
    (hrest : StartsLine rest) :
    ∃ place', scan true 1 ⟨(Scalar.writeIn .literal text).tail ++ rest, place⟩ =
        some ⟨text, ⟨rest, place'⟩⟩ ∧
      place'.column = 0 ∧ place.line < place'.line := by
  rcases exists_body text with ⟨body, breaks, rfl, hbreaks, hends⟩
  rcases ends_of_written htext hbreaks hends with ⟨chomping, added, hadded, hsign, htail⟩
  let content := Scalar.literalBody true body ++ (breaks ++ (added ++ rest))
  have hwritten : (Scalar.writeIn .literal (body ++ breaks)).tail ++ rest =
      (if isHinted (body ++ breaks) then ['2'] else []) ++ (chomping.sign ++ '\n' :: content) := by
    simp only [Scalar.writeIn, literalHeader_eq, hsign, htail, literalBody_append hbreaks, content,
      List.cons_append, List.tail_cons, List.append_assoc, List.nil_append]
  rcases scan_header content place chomping (isHinted (body ++ breaks)) with
    ⟨place₁, hheader, hcolumn₁, hline₁⟩
  rw [hwritten, hheader]
  by_cases hbody : body = []
  · -- A text of breaks alone keeps them all.
    subst hbody
    cases hadded with
    | strip hbody =>
        exact absurd rfl hbody
    | clip c hbody =>
        exact absurd rfl hbody
    | keep c breaks =>
        have hinted : isHinted ([] ++ c :: breaks) = true := by
          simp [isHinted, hbreaks c List.mem_cons_self]
        rcases scanLines_emptyLines { indent := 2 } hrest rfl hcolumn₁ hbreaks with
          ⟨place', hscan, hcolumn, hline⟩
        refine ⟨place', ?_, hcolumn, by omega⟩
        rw [hinted]
        exact hscan
  · rcases scanLines_body place₁ _ true (fun c hc => hprintable c (List.mem_append_left _ hc)) hends
      (fun _ => ⟨hbody, hcolumn₁, shows_of_isHinted breaks hbody⟩) (fun h => by cases h) with
      ⟨place₂, inside, hscan, hfresh, hline₂⟩
    rcases scanLines_ends place₂ hadded hbreaks hrest hfresh with ⟨place', htail', hcolumn, hline⟩
    refine ⟨place', ?_, hcolumn, by omega⟩
    rw [Bool.not_true] at hscan
    rw [hscan, htail']
    simp [Above.pending]

end Block
end Yaml
end NativeLaunch
