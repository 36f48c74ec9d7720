import Mathlib
import NativeLaunch.Yaml.Print

/-!
# Written scalars

What the choice of a style says about the text (`Style.choose_cases`), and how characters are written
between double quotes (`Scalar.Escapes`, `Scalar.Bare`).  The written form of a text holds printable
characters only (`Scalar.isPrintable_write`), so nothing in it is changed or refused before it is
read.
-/

namespace NativeLaunch
namespace Yaml

variable {c d : Char} {text : List Char}

namespace Style

theorem isPrintable_of_hasSpecial (h : hasSpecial text = false) (hc : c ∈ text) :
    isPrintable c = true := by
  simpa [hasSpecial] using List.any_eq_false.1 h c hc

/-- What the choice of a style says about the text. -/
theorem choose_cases (text : List Char) :
    (choose text = .plain ∧ canBePlain text = true ∧ Schema.isTyped text = false) ∨
      (choose text = .singleQuoted ∧ canBeSingleQuoted text = true ∧ '\n' ∉ text) ∨
      (choose text = .literal ∧ canBeLiteral text = true ∧ '\n' ∈ text) ∨
      choose text = .doubleQuoted := by
  by_cases hfeed : '\n' ∈ text
  · have hcontains : text.contains '\n' = true := by simpa using hfeed
    rw [choose, if_pos hcontains]
    cases hliteral : canBeLiteral text with
    | true =>
        exact .inr (.inr (.inl ⟨rfl, rfl, hfeed⟩))
    | false =>
        exact .inr (.inr (.inr rfl))
  · have hcontains : ¬text.contains '\n' = true := by simpa using hfeed
    rw [choose, if_neg hcontains]
    by_cases hquoted : (Schema.isTyped text || !canBePlain text) = true
    · rw [if_pos hquoted, quotes]
      cases hsingle : canBeSingleQuoted text with
      | true =>
          exact .inr (.inl ⟨rfl, rfl, hfeed⟩)
      | false =>
          exact .inr (.inr (.inr rfl))
    · rw [if_neg hquoted]
      simp only [Bool.or_eq_true, Bool.not_eq_true', not_or, Bool.not_eq_false,
        Bool.not_eq_true] at hquoted
      exact .inl ⟨rfl, hquoted.2, hquoted.1⟩

end Style

namespace Scalar

/-! ## Characters between double quotes -/

/-- The escapes that a character is written as. -/
inductive Escapes (c : Char) : List Char → Prop
  | letter (letter : Char) (hmem : (c, letter) ∈ escapeLetters) : Escapes c ['\\', letter]
  | twoDigits (hlow : c.toNat < 0xA0) : Escapes c ('\\' :: 'x' :: hexDigits 2 c.toNat)
  | fourDigits (hhigh : c.toNat ∈ [0xFEFF, 0xFFFE, 0xFFFF]) :
      Escapes c ('\\' :: 'u' :: hexDigits 4 c.toNat)

/-- The characters that are written as they are between double quotes. -/
structure Bare (c : Char) : Prop where
  printable : Style.isPrintable c = true
  quote : c ≠ '"'
  escape : c ≠ '\\'
  unbroken : isBreak c = false

/-- The characters that are not written as they are: controls, the byte order mark and the two last
of the first plane. -/
theorem toNat_of_not_isPrintable (h : Style.isPrintable c = false) :
    c.toNat < 0xA0 ∨ c.toNat ∈ [0xFEFF, 0xFFFE, 0xFFFF] := by
  have hvalid : c.toNat.isValidChar := c.valid
  simp only [Nat.isValidChar] at hvalid
  simp only [Style.isPrintable, Bool.or_eq_false_iff, Bool.and_eq_false_iff,
    decide_eq_false_iff_not] at h
  simp only [List.mem_cons, List.not_mem_nil, or_false]
  omega

theorem escapes_or_bare (c : Char) :
    Escapes c (doubleQuotedChar c) ∨ (Bare c ∧ doubleQuotedChar c = [c]) := by
  rw [doubleQuotedChar]
  cases hlookup : escapeLetters.lookup c with
  | some letter =>
      rcases List.lookup_eq_some_iff.1 hlookup with ⟨before, after, hletters, -⟩
      refine .inl (.letter letter ?_)
      rw [hletters]
      exact List.mem_append_right _ List.mem_cons_self
  | none =>
      cases hprintable : Style.isPrintable c with
      | true =>
          refine .inr ⟨⟨hprintable, ?_, ?_, ?_⟩, if_pos rfl⟩
          · rintro rfl
            exact absurd hlookup (by decide)
          · rintro rfl
            exact absurd hlookup (by decide)
          · -- Each break has a letter.
            rw [← Bool.not_eq_true]
            intro hbreak
            simp only [isBreak, Bool.or_eq_true, decide_eq_true_eq] at hbreak
            rcases hbreak with (rfl | rfl) | rfl <;> exact absurd hlookup (by decide)
      | false =>
          simp only [Bool.false_eq_true, if_false]
          rcases toNat_of_not_isPrintable hprintable with hlow | hhigh
          · rw [if_pos (by omega)]
            exact .inl (.twoDigits hlow)
          · have hrange := hhigh
            simp only [List.mem_cons, List.not_mem_nil, or_false] at hrange
            rw [if_neg (by omega), if_pos (by omega)]
            exact .inl (.fourDigits hhigh)

/-! ## Printable characters -/

theorem isPrintable_letter : ∀ entry ∈ escapeLetters, Style.isPrintable entry.2 = true := by
  decide

theorem isPrintable_twoDigits : ∀ n < 0xA0, (hexDigits 2 n).all Style.isPrintable = true := by
  decide +kernel

theorem isPrintable_fourDigits : ∀ n ∈ [0xFEFF, 0xFFFE, 0xFFFF],
    (hexDigits 4 n).all Style.isPrintable = true := by
  decide +kernel

theorem Escapes.isPrintable {spelling : List Char} (h : Escapes d spelling) (hc : c ∈ spelling) :
    Style.isPrintable c = true := by
  have hescape : Style.isPrintable '\\' = true := by decide
  cases h with
  | letter letter hmem =>
      simp only [List.mem_cons, List.not_mem_nil, or_false] at hc
      rcases hc with rfl | rfl
      · exact hescape
      · exact isPrintable_letter _ hmem
  | twoDigits hlow =>
      rcases List.mem_cons.1 hc with rfl | hc
      · exact hescape
      · rcases List.mem_cons.1 hc with rfl | hc
        · decide
        · exact List.all_eq_true.1 (isPrintable_twoDigits _ hlow) c hc
  | fourDigits hhigh =>
      rcases List.mem_cons.1 hc with rfl | hc
      · exact hescape
      · rcases List.mem_cons.1 hc with rfl | hc
        · decide
        · exact List.all_eq_true.1 (isPrintable_fourDigits _ hhigh) c hc

/-- The characters that single quotes and blocks add to a text. -/
def marks : List Char := ['|', '2', '-', '+', '\n', ' ', '\'']

theorem mem_marks_of_mem_margin (h : c ∈ margin) : c ∈ marks := by
  simp only [margin, List.mem_cons, List.not_mem_nil, or_false, or_self] at h
  subst h
  decide

theorem mem_singleQuotedBody {afterBreak : Bool} (h : c ∈ singleQuotedBody afterBreak text) :
    c ∈ text ∨ c ∈ marks := by
  induction text generalizing afterBreak with
  | nil =>
      rw [singleQuotedBody] at h
      split at h
      · exact .inr (mem_marks_of_mem_margin h)
      · cases h
  | cons d text ih =>
      rw [singleQuotedBody] at h
      split at h
      · rcases List.mem_cons.1 h with rfl | h
        · exact .inl List.mem_cons_self
        · exact (ih h).imp_left (List.mem_cons_of_mem _)
      · rcases List.mem_append.1 h with h | h
        · rcases List.mem_append.1 h with h | h
          · split at h
            · exact .inr (mem_marks_of_mem_margin h)
            · cases h
          · split at h <;> simp_all [marks]
        · exact (ih h).imp_left (List.mem_cons_of_mem _)

theorem mem_literalBody {lineStart : Bool} (h : c ∈ literalBody lineStart text) :
    c ∈ text ∨ c ∈ marks := by
  induction text generalizing lineStart with
  | nil =>
      cases h
  | cons d text ih =>
      rw [literalBody] at h
      split at h
      · rcases List.mem_cons.1 h with rfl | h
        · exact .inl List.mem_cons_self
        · exact (ih h).imp_left (List.mem_cons_of_mem _)
      · rcases List.mem_append.1 h with h | h
        · split at h
          · exact .inr (mem_marks_of_mem_margin h)
          · cases h
        · rcases List.mem_cons.1 h with rfl | h
          · exact .inl List.mem_cons_self
          · exact (ih h).imp_left (List.mem_cons_of_mem _)

theorem mem_chompingSign (h : c ∈ chompingSign text) : c ∈ marks := by
  have hsign : c = '-' ∨ c = '+' := by
    unfold chompingSign at h
    repeat' split at h
    all_goals simp_all
  rcases hsign with rfl | rfl <;> decide

theorem mem_literalHeader (h : c ∈ literalHeader text) : c ∈ marks := by
  simp only [literalHeader, List.mem_append, List.mem_cons, List.not_mem_nil, or_false] at h
  rcases h with ((rfl | h) | h) | rfl
  · decide
  · have hhint : c = '2' := by
      split at h <;> split at h <;> simp_all
    subst hhint
    decide
  · exact mem_chompingSign h
  · decide

theorem isPrintable_of_mem (hspecial : Style.hasSpecial text = false) (h : c ∈ text ∨ c ∈ marks) :
    Style.isPrintable c = true := by
  have hmarks : marks.all Style.isPrintable = true := by decide
  exact h.elim (Style.isPrintable_of_hasSpecial hspecial) (List.all_eq_true.1 hmarks c)

theorem isPrintable_write (h : c ∈ write text) : Style.isPrintable c = true := by
  rw [write] at h
  rcases Style.choose_cases text with ⟨hstyle, hcan, -⟩ | ⟨hstyle, hcan, -⟩ | ⟨hstyle, hcan, -⟩ |
    hstyle <;> rw [hstyle] at h
  · simp only [Style.canBePlain, Bool.not_eq_true', Bool.or_eq_false_iff] at hcan
    refine isPrintable_of_mem hcan.1.1.1.1.1.1 ((List.mem_append.1 h).imp_right fun h => ?_)
    rcases List.mem_singleton.1 h with rfl
    decide
  · simp only [Style.canBeSingleQuoted, Bool.not_eq_true', Bool.or_eq_false_iff] at hcan
    refine isPrintable_of_mem hcan.1.1 ?_
    rcases List.mem_append.1 h with h | h
    · rcases List.mem_cons.1 h with rfl | h
      · exact .inr (by decide)
      · exact mem_singleQuotedBody h
    · refine .inr ?_
      simp only [List.mem_cons, List.not_mem_nil, or_false] at h
      rcases h with rfl | rfl <;> decide
  · simp only [Style.canBeLiteral, Bool.not_eq_true', Bool.or_eq_false_iff] at hcan
    refine isPrintable_of_mem hcan.1.1 ?_
    rcases List.mem_append.1 h with h | h
    · exact (List.mem_append.1 h).elim (.inr ∘ mem_literalHeader) mem_literalBody
    · split at h
      · cases h
      · rcases List.mem_singleton.1 h with rfl
        exact .inr (by decide)
  · rcases List.mem_append.1 h with h | h
    · rcases List.mem_cons.1 h with rfl | h
      · decide
      · rcases List.mem_flatMap.1 h with ⟨d, -, hd⟩
        rcases escapes_or_bare d with hescapes | ⟨hbare, hwritten⟩
        · exact hescapes.isPrintable hd
        · rw [hwritten] at hd
          rcases List.mem_singleton.1 hd with rfl
          exact hbare.printable
    · simp only [List.mem_cons, List.not_mem_nil, or_false] at h
      rcases h with rfl | rfl <;> decide

end Scalar

/-! ## Printable texts -/

theorem isPrintable_of_isNameChar (h : isNameChar c = true) : Style.isPrintable c = true := by
  have hnames : Style.isPrintable '_' = true ∧ Style.isPrintable '-' = true := by decide
  simp only [isNameChar, Char.isAlphanum, Char.isAlpha, Char.isUpper, Char.isLower, Char.isDigit,
    Bool.or_eq_true, Bool.and_eq_true, decide_eq_true_eq, UInt32.le_iff_toNat_le] at h
  rcases h with (h | rfl) | rfl
  · change ((65 ≤ c.toNat ∧ c.toNat ≤ 90 ∨ 97 ≤ c.toNat ∧ c.toNat ≤ 122) ∨
      48 ≤ c.toNat ∧ c.toNat ≤ 57) at h
    simp only [Style.isPrintable, Bool.or_eq_true, Bool.and_eq_true, decide_eq_true_eq]
    omega
  · exact hnames.1
  · exact hnames.2

theorem isAllowed_of_isPrintable (h : Style.isPrintable c = true) : isAllowed c = true := by
  simp only [Style.isPrintable, Bool.or_eq_true, Bool.and_eq_true, decide_eq_true_eq] at h
  simp only [isAllowed, Bool.or_eq_true, Bool.and_eq_true, decide_eq_true_eq]
  omega

/-- A printable text has no breaks that are read as line feeds. -/
theorem unifyBreaks_of_isPrintable (h : ∀ c ∈ text, Style.isPrintable c = true) :
    unifyBreaks text = text := by
  induction text with
  | nil =>
      rfl
  | cons c text ih =>
      have hc := h c List.mem_cons_self
      have hreturn : c ≠ '\r' := by
        rintro rfl
        exact absurd hc (by decide)
      have hnext : c ≠ '\x85' := by
        rintro rfl
        exact absurd hc (by decide)
      rw [unifyBreaks, ih fun d hd => h d (List.mem_cons_of_mem _ hd)]
      · simp [hreturn, hnext]
      · exact fun _ hc' _ => absurd hc' hreturn

end Yaml
end NativeLaunch
