import NativeLaunch.Proofs.Path.Segments
import NativeLaunch.Proofs.Text.Utf8

/-!
# Paths and texts

A slash is a byte of no character but its own, and no reading with replacements makes one or takes one
away: where bytes are ill formed, the slash after them is read again as a first byte.  So the segments of
a path are the same in number and in order whether its bytes are split or its text, each of them read by
itself (`Path.split_encodeChars`, `Path.splitOn_decodeLossy`).  This file defines:

* `Utf8.Ahead` — an unfinished sequence which no slash continues, and whose number is past that of a slash.

A path that is passed as text then starts where the path itself does, and has as many segments
(`isAbsolute_display`, `segments_display`), though they need not be the same.
-/

namespace NativeLaunch

open NativeLaunch.Path (slash split)

namespace Utf8

/-! ## Slashes in texts -/

theorem encodeChar_slash : encodeChar '/' = [slash] := by decide

theorem slash_not_mem_encodeChar {c : Char} (hc : c ≠ '/') : slash ∉ encodeChar c := by
  have hnumber : c.toNat ≠ 0x2F := fun hnumber => hc (Char.toNat_inj.1 hnumber)
  have hvalid := toNat_lt c
  -- Bytes that are equal are so as numbers, and those of longer sequences are all past the slash.
  have hbyte : ∀ number, slash = UInt8.ofNat number → number % 256 = 0x2F := by
    intro number hslash
    rw [← UInt8.toNat_ofNat', ← hslash]
    rfl
  unfold encodeChar
  intro hmem
  simp only at hmem
  split at hmem
  · have := hbyte _ (List.mem_singleton.1 hmem)
    omega
  split at hmem
  · simp only [List.mem_cons, List.not_mem_nil, or_false] at hmem
    rcases hmem with hmem | hmem <;> have := hbyte _ hmem <;> omega
  split at hmem
  · simp only [List.mem_cons, List.not_mem_nil, or_false] at hmem
    rcases hmem with hmem | hmem | hmem <;> have := hbyte _ hmem <;> omega
  · simp only [List.mem_cons, List.not_mem_nil, or_false] at hmem
    rcases hmem with hmem | hmem | hmem | hmem <;> have := hbyte _ hmem <;> omega

theorem slash_not_mem_encodeChars {text : List Char} (htext : '/' ∉ text) :
    slash ∉ encodeChars text := by
  rw [encodeChars, List.mem_flatMap]
  rintro ⟨c, hc, hslash⟩
  exact slash_not_mem_encodeChar (fun h => htext (h ▸ hc)) hslash

/-! ## Slashes in readings -/

/-- The next byte is past all slashes, and with it the number is past that of a slash. -/
def Ahead (state : Option Unfinished) : Prop :=
  ∀ sequence, state = some sequence → 0x80 ≤ sequence.low.toNat ∧
    (2 ≤ sequence.value ∨ 2 ≤ sequence.missing ∧ 0x82 ≤ 0x80 * sequence.value + sequence.low.toNat)

theorem ahead_none : Ahead none := by
  rintro sequence ⟨⟩

theorem ahead_of_opens {b : UInt8} {sequence : Unfinished} (hlead : lead b = .opens sequence) :
    Ahead (some sequence) := by
  rintro _ ⟨⟩
  rcases opens_cases hlead with ⟨hlow, _, htwo | hthree | hfour⟩
  · exact ⟨hlow, by omega⟩
  · exact ⟨hlow, by omega⟩
  · exact ⟨hlow, by omega⟩

/-- A sequence stays ahead when it goes on. -/
theorem Ahead.next {sequence : Unfinished} {b : UInt8} (hahead : Ahead (some sequence))
    (hlow : sequence.low ≤ b) :
    Ahead (some ⟨sequence.value * 64 + (b.toNat - 0x80), sequence.missing - 1, 0x80, 0xBF⟩) := by
  intro next hnext
  have hsequence := hahead sequence rfl
  rw [UInt8.le_iff_toNat_le] at hlow
  have hvalue : 2 ≤ sequence.value * 64 + (b.toNat - 0x80) := by omega
  rw [← Option.some.inj hnext]
  exact ⟨Nat.le_refl _, .inl hvalue⟩

/-- The number of a finished sequence is not that of a slash. -/
theorem Ahead.ofNat_ne {sequence : Unfinished} (hahead : Ahead (some sequence))
    (hmissing : sequence.missing ≤ 1) (bits : Nat) :
    Char.ofNat (sequence.value * 64 + bits) ≠ '/' := by
  have hvalue := (hahead sequence rfl).2
  intro hslash
  have htoNat := congrArg Char.toNat hslash
  by_cases hvalid : (sequence.value * 64 + bits).isValidChar
  · rw [toNat_ofNat hvalid, show '/'.toNat = 0x2F from rfl] at htoNat
    omega
  · simp [Char.ofNat, hvalid] at htoNat

theorem lead_slash : lead slash = .complete '/' := by decide

theorem ne_slash_of_complete {b : UInt8} {c : Char} (hb : b ≠ slash) (hlead : lead b = .complete c) :
    c ≠ '/' := by
  rintro rfl
  have hbytes := encodeChar_of_complete hlead
  rw [encodeChar_slash, List.cons.injEq] at hbytes
  exact hb hbytes.1.symm

theorem scan_restart {sequence : Unfinished} {b : UInt8}
    (hrange : ¬ (sequence.low ≤ b ∧ b ≤ sequence.high)) (rest : Bytes) :
    scan (some sequence) (b :: rest) = none :: scan none (b :: rest) := by
  simp only [scan, if_neg hrange]

/-- No slash is read where none is written. -/
theorem slash_not_mem_scan {state : Option Unfinished} {bytes : Bytes} (hstate : Ahead state)
    (hbytes : slash ∉ bytes) : some '/' ∉ scan state bytes := by
  induction bytes generalizing state with
  | nil =>
      cases state <;> simp [scan]
  | cons b bytes ih =>
      rw [List.mem_cons, not_or] at hbytes
      have hfirst : some '/' ∉ scan none (b :: bytes) := by
        rw [scan]
        cases hlead : lead b with
        | complete c =>
            have hc := ne_slash_of_complete (Ne.symm hbytes.1) hlead
            simp [Ne.symm hc, ih ahead_none hbytes.2]
        | opens sequence =>
            exact ih (ahead_of_opens hlead) hbytes.2
        | illFormed =>
            simp [ih ahead_none hbytes.2]
      cases state with
      | none =>
          exact hfirst
      | some sequence =>
          by_cases hrange : sequence.low ≤ b ∧ b ≤ sequence.high
          · rw [scan, if_pos hrange]
            simp only
            split
            · rename_i hmissing
              have hc := hstate.ofNat_ne hmissing (b.toNat - 0x80)
              simp [Ne.symm hc, ih ahead_none hbytes.2]
            · exact ih (hstate.next hrange.1) hbytes.2
          · rw [scan_restart hrange, List.mem_cons, not_or]
            exact ⟨Option.some_ne_none _, hfirst⟩

/-- A slash is read wherever one is written, whatever stands before it. -/
theorem scan_append_slash {state : Option Unfinished} (hstate : Ahead state) (before after : Bytes) :
    scan state (before ++ slash :: after) = scan state before ++ some '/' :: scan none after := by
  induction before generalizing state with
  | nil =>
      have hfirst : scan none (slash :: after) = some '/' :: scan none after := by
        rw [scan]
        simp only [lead_slash]
      cases state with
      | none =>
          simpa [scan] using hfirst
      | some sequence =>
          have hlow := (hstate sequence rfl).1
          have hrange : ¬ (sequence.low ≤ slash ∧ slash ≤ sequence.high) := by
            rw [UInt8.le_iff_toNat_le, show slash.toNat = 0x2F from rfl]
            omega
          rw [List.nil_append, scan_restart hrange, hfirst]
          rfl
  | cons b before ih =>
      have hfirst : scan none (b :: (before ++ slash :: after)) =
          scan none (b :: before) ++ some '/' :: scan none after := by
        rw [scan, scan]
        cases hlead : lead b with
        | complete c =>
            simp [ih ahead_none]
        | opens sequence =>
            exact ih (ahead_of_opens hlead)
        | illFormed =>
            simp [ih ahead_none]
      rw [List.cons_append]
      cases state with
      | none =>
          exact hfirst
      | some sequence =>
          by_cases hrange : sequence.low ≤ b ∧ b ≤ sequence.high
          · rw [scan, scan, if_pos hrange, if_pos hrange]
            simp only
            split
            · simp [ih ahead_none]
            · exact ih (hstate.next hrange.1)
          · rw [scan_restart hrange, scan_restart hrange, hfirst]
            rfl

/-- Of any bytes something is read. -/
theorem eq_nil_of_scan {state : Option Unfinished} {bytes : Bytes} (h : scan state bytes = []) :
    state = none ∧ bytes = [] := by
  fun_induction scan state bytes <;> simp_all

theorem toList_decodeLossy (bytes : Bytes) :
    (decodeLossy bytes).toList = (scan none bytes).map (·.getD '\uFFFD') := by
  rw [decodeLossy, String.toList_ofList]

theorem encode_decodeLossy_eq_nil {bytes : Bytes} : encode (decodeLossy bytes) = [] ↔ bytes = [] := by
  constructor
  · intro hnone
    have hread : (decodeLossy bytes).toList = [] := (@encodeChars_inj _ []).1 hnone
    rw [toList_decodeLossy, List.map_eq_nil_iff] at hread
    exact (eq_nil_of_scan hread).2
  · rintro rfl
    rfl

/-- The bytes that a reading leaves as they are are those of texts. -/
theorem encode_decodeLossy_eq_iff {bytes : Bytes} :
    encode (decodeLossy bytes) = bytes ↔ ∃ text, bytes = encode text := by
  constructor
  · intro hsame
    exact ⟨_, hsame.symm⟩
  · rintro ⟨text, rfl⟩
    rw [decodeLossy_encode]

end Utf8

namespace Path

/-- From each separator to the next. -/
theorem separated_induction {α : Type} (separator : α) {motive : List α → Prop}
    (last : ∀ text, separator ∉ text → motive text)
    (next : ∀ before after, separator ∉ before → motive after →
      motive (before ++ separator :: after)) (text : List α) : motive text := by
  induction hlength : text.length using Nat.strongRecOn generalizing text with
  | ind length ih =>
      by_cases hmem : separator ∈ text
      · rcases List.eq_append_cons_of_mem hmem with ⟨before, after, rfl, hbefore⟩
        have hshorter : after.length < length := by
          rw [← hlength, List.length_append, List.length_cons]
          omega
        exact next before after hbefore (ih _ hshorter after rfl)
      · exact last text hmem

/-- The slashes of a text are those of its bytes. -/
theorem split_encodeChars (text : List Char) :
    split (Utf8.encodeChars text) = (text.splitOn '/').map Utf8.encodeChars := by
  induction text using separated_induction '/' with
  | last text hnone =>
      rw [split_of_not_mem (Utf8.slash_not_mem_encodeChars hnone), List.splitOn_eq_singleton hnone]
      rfl
  | next before after hbefore ih =>
      rw [Utf8.encodeChars_append, Utf8.encodeChars_cons, Utf8.encodeChar_slash,
        List.singleton_append, split_append_slash, ih,
        split_of_not_mem (Utf8.slash_not_mem_encodeChars hbefore), List.splitOn_append_cons_self,
        List.splitOn_eq_singleton hbefore]
      rfl

theorem slash_not_mem_decodeLossy {bytes : Bytes} (hbytes : slash ∉ bytes) :
    '/' ∉ (Utf8.decodeLossy bytes).toList := by
  rw [Utf8.toList_decodeLossy, List.mem_map]
  rintro ⟨read, hread, hslash⟩
  cases read with
  | none =>
      exact absurd hslash (by decide)
  | some c =>
      cases hslash
      exact Utf8.slash_not_mem_scan Utf8.ahead_none hbytes hread

/-- The slashes of bytes are those of their text, however they are read. -/
theorem splitOn_decodeLossy (bytes : Bytes) :
    (Utf8.decodeLossy bytes).toList.splitOn '/' =
      (split bytes).map fun segment => (Utf8.decodeLossy segment).toList := by
  induction bytes using separated_induction slash with
  | last bytes hnone =>
      rw [split_of_not_mem hnone, List.splitOn_eq_singleton (slash_not_mem_decodeLossy hnone)]
      rfl
  | next before after hbefore ih =>
      have hread : (Utf8.decodeLossy (before ++ slash :: after)).toList =
          (Utf8.decodeLossy before).toList ++ '/' :: (Utf8.decodeLossy after).toList := by
        simp [Utf8.toList_decodeLossy, Utf8.scan_append_slash Utf8.ahead_none]
      rw [hread, List.splitOn_append_cons_self, ih, split_append_slash, split_of_not_mem hbefore,
        List.splitOn_eq_singleton (slash_not_mem_decodeLossy hbefore)]
      rfl

/-- A path that is read as text has the same parts, each read by itself. -/
theorem split_display (path : Path) :
    split (ofString path.display).bytes =
      (split path.bytes).map fun segment => Utf8.encode (Utf8.decodeLossy segment) := by
  rw [ofString, Utf8.encode, display, split_encodeChars, splitOn_decodeLossy, List.map_map]
  rfl

theorem segments_display (path : Path) :
    (ofString path.display).segments =
      path.segments.map fun segment => Utf8.encode (Utf8.decodeLossy segment) := by
  rw [segments, split_display, segments, List.filter_map]
  congr
  funext segment
  simp [Utf8.encode_decodeLossy_eq_nil]

theorem isAbsolute_display (path : Path) : (ofString path.display).isAbsolute = path.isAbsolute := by
  rw [Bool.eq_iff_iff, isAbsolute_iff_split, isAbsolute_iff_split, split_display]
  constructor
  · rintro ⟨rest, hsplit, hrest⟩
    rcases List.map_eq_cons_iff.1 hsplit with ⟨first, others, hpath, hfirst, rfl⟩
    rw [Utf8.encode_decodeLossy_eq_nil] at hfirst
    subst hfirst
    exact ⟨others, hpath, by simpa using hrest⟩
  · rintro ⟨rest, hsplit, hrest⟩
    exact ⟨_, by rw [hsplit, List.map_cons]; rfl, by simpa using hrest⟩

end Path
end NativeLaunch
