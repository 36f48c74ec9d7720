import Mathlib.Data.List.DropRight
import Mathlib.Data.List.Forall2
import Mathlib.Logic.Relation
import NativeLaunch.Text.Blank

/-!
# Names up to spelling

Two texts are the same name if the one can be made from the other by adding and removing blanks at the
ends and by writing letters large or small.  This file defines:

* `Text.Respells` — one such change;
* `Text.Alike` — any number of them, in either direction.

The form in which names are compared tells just these names apart (`normalize_eq_iff`).  Only ASCII
letters have two cases here, and none of them is blank, so that it does not matter in which order blanks
are removed and letters made small.
-/

namespace NativeLaunch

/-- What is kept by each change is kept by all changes together. -/
theorem eq_of_eqvGen {α β : Type} {changes : α → α → Prop} {form : α → β}
    (hkept : ∀ a b, changes a b → form a = form b) {a b : α} (h : Relation.EqvGen changes a b) :
    form a = form b :=
  congrArg (Quot.lift form hkept) (Quot.eqvGen_sound h)

namespace Text

/-! ## Letter case -/

section Case

variable {c : Char}

theorem toNat_toLower (c : Char) :
    c.toLower.toNat = if 65 ≤ c.toNat ∧ c.toNat ≤ 90 then c.toNat + 32 else c.toNat := by
  have hrange : (c.val ≥ 'A'.val ∧ c.val ≤ 'Z'.val) ↔ 65 ≤ c.toNat ∧ c.toNat ≤ 90 := Iff.rfl
  unfold Char.toLower
  simp only [hrange]
  split
  · rename_i hcapital
    have hsum : (c.val + ('a'.val - 'A'.val)).toNat = (c.toNat + 32) % 2 ^ 32 := UInt32.toNat_add _ _
    exact hsum.trans (by omega)
  · rfl

theorem toNat_toUpper (c : Char) :
    c.toUpper.toNat = if 97 ≤ c.toNat ∧ c.toNat ≤ 122 then c.toNat - 32 else c.toNat := by
  have hrange : ('a'.val ≤ c.val ∧ c.val ≤ 'z'.val) ↔ 97 ≤ c.toNat ∧ c.toNat ≤ 122 := Iff.rfl
  unfold Char.toUpper
  simp only [hrange]
  split
  · rename_i hsmall
    -- The capitals lie below the small letters, so the distance to them is added modulo the word.
    have hsum : (c.val + ('A'.val - 'a'.val)).toNat = (c.toNat + (2 ^ 32 - 32)) % 2 ^ 32 :=
      UInt32.toNat_add _ _
    exact hsum.trans (by omega)
  · rfl

@[simp] theorem toLower_toLower (c : Char) : c.toLower.toLower = c.toLower := by
  apply Char.toNat_inj.1
  simp only [toNat_toLower]
  grind

@[simp] theorem toLower_toUpper (c : Char) : c.toUpper.toLower = c.toLower := by
  apply Char.toNat_inj.1
  simp only [toNat_toLower, toNat_toUpper]
  grind

/-- No letter is blank, large or small. -/
@[simp] theorem isBlank_toLower (c : Char) : isBlank c.toLower = isBlank c := by
  rw [Bool.eq_iff_iff]
  simp only [isBlank, blankRanges, toNat_toLower, List.any_cons, List.any_nil, Bool.or_false,
    Bool.or_eq_true, Bool.and_eq_true, decide_eq_true_eq]
  split <;> omega

end Case

/-! ## Trimming -/

section Trim

variable {before text after : List Char}

theorem trim_eq (text : List Char) : trim text = (text.dropWhile isBlank).rdropWhile isBlank := rfl

/-- Blanks at the ends do not count. -/
theorem trim_padded (hbefore : ∀ c ∈ before, isBlank c = true) (hafter : ∀ c ∈ after, isBlank c = true) :
    trim (before ++ text ++ after) = trim text := by
  have hleading : (before ++ text ++ after).dropWhile isBlank = (text ++ after).dropWhile isBlank := by
    rw [List.append_assoc, List.dropWhile_append_of_pos hbefore]
  have htrailing : ∀ start : List Char, (start ++ after).rdropWhile isBlank = start.rdropWhile isBlank := by
    intro start
    rw [List.rdropWhile, List.rdropWhile, List.reverse_append, List.dropWhile_append_of_pos]
    simpa using hafter
  rw [trim_eq, hleading, List.dropWhile_append]
  split
  -- In a text of blanks alone, those after it are among those before its start.
  · rename_i hblank
    rw [List.dropWhile_eq_nil_iff.2 hafter, trim_eq, List.isEmpty_iff.1 hblank]
  · rw [htrailing, trim_eq]

/-- A text is what is left of it with blanks around. -/
theorem exists_trim (text : List Char) :
    ∃ before after, (∀ c ∈ before, isBlank c = true) ∧ (∀ c ∈ after, isBlank c = true) ∧
      text = before ++ trim text ++ after := by
  refine ⟨text.takeWhile isBlank, (text.dropWhile isBlank).rtakeWhile isBlank,
    fun c hc => List.mem_takeWhile_imp hc, fun c hc => List.mem_rtakeWhile_imp hc, ?_⟩
  rw [trim_eq, List.append_assoc, List.rdropWhile_append_rtakeWhile,
    List.takeWhile_append_dropWhile]

theorem trim_foldCase (text : List Char) : trim (foldCase text) = foldCase (trim text) := by
  have hblank : isBlank ∘ Char.toLower = isBlank := funext isBlank_toLower
  unfold trim foldCase
  rw [List.dropWhile_map, hblank, ← List.map_reverse, List.dropWhile_map, hblank, List.map_reverse]

end Trim

/-! ## Spellings -/

/-- A character in either case. -/
def Recases (c d : Char) : Prop := d = c ∨ d = c.toLower ∨ d = c.toUpper

/-- One change in how a name is spelled. -/
inductive Respells : String → String → Prop
  /-- Blanks are added at the ends. -/
  | padded (before text after : String) (hbefore : ∀ c ∈ before.toList, isBlank c = true)
      (hafter : ∀ c ∈ after.toList, isBlank c = true) : Respells text (before ++ text ++ after)
  /-- Some letters are written in their other case. -/
  | recased (text text' : String) (hcases : List.Forall₂ Recases text.toList text'.toList) :
      Respells text text'

/-- Two spellings of one name: blanks at the ends come and go, and letters change their case. -/
def Alike : String → String → Prop := Relation.EqvGen Respells

section Spelling

variable {text text' : String}

theorem Recases.toLower_eq {c d : Char} (h : Recases c d) : d.toLower = c.toLower := by
  rcases h with rfl | rfl | rfl
  · rfl
  · exact toLower_toLower c
  · exact toLower_toUpper c

theorem foldCase_of_recases {chars chars' : List Char} (h : List.Forall₂ Recases chars chars') :
    foldCase chars' = foldCase chars := by
  induction h with
  | nil =>
      rfl
  | cons hcases _ ih =>
      unfold foldCase at ih ⊢
      rw [List.map_cons, List.map_cons, hcases.toLower_eq, ih]

theorem normalize_of_respells (h : Respells text text') : normalize text = normalize text' := by
  cases h with
  | padded before text after hbefore hafter =>
      rw [normalize, normalize, String.toList_append, String.toList_append,
        trim_padded hbefore hafter]
  | recased text text' hcases =>
      rw [normalize, normalize, ← trim_foldCase, ← trim_foldCase, foldCase_of_recases hcases]

/-- Every name is spelled like its compared form. -/
theorem alike_normalize (text : String) : Alike text (String.ofList (normalize text)) := by
  rcases exists_trim text.toList with ⟨before, after, hbefore, hafter, htext⟩
  have htrimmed : Respells (String.ofList (trim text.toList)) text := by
    have hpadded := Respells.padded (String.ofList before) (String.ofList (trim text.toList))
      (String.ofList after) (by simpa using hbefore) (by simpa using hafter)
    rwa [← String.ofList_append, ← String.ofList_append, ← htext, String.ofList_toList] at hpadded
  have hsmall : Respells (String.ofList (trim text.toList)) (String.ofList (normalize text)) := by
    refine .recased _ _ ?_
    rw [String.toList_ofList, String.toList_ofList, normalize, foldCase, List.forall₂_map_right_iff]
    exact List.forall₂_same.2 fun c _ => .inr (.inl rfl)
  exact .trans _ _ _ (.symm _ _ (.rel _ _ htrimmed)) (.rel _ _ hsmall)

/-- The compared forms of two texts are equal if and only if they spell the same name. -/
theorem normalize_eq_iff : normalize text = normalize text' ↔ Alike text text' := by
  constructor
  · intro h
    have hleft := alike_normalize text
    rw [h] at hleft
    exact .trans _ _ _ hleft (.symm _ _ (alike_normalize text'))
  · exact eq_of_eqvGen fun _ _ hrespells => normalize_of_respells hrespells

/-- A compared form is its own. -/
theorem normalize_ofList_normalize (text : String) :
    normalize (String.ofList (normalize text)) = normalize text :=
  (normalize_eq_iff.2 (alike_normalize text)).symm

end Spelling

end Text
end NativeLaunch
