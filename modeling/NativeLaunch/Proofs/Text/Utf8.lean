import Mathlib
import NativeLaunch.Text.Utf8

/-!
# Texts and their bytes

A scan reads back what was encoded, one character after the other, and what it reads without a fault
was encoded so.  This file defines:

* `tail` — the bytes of a character's number after the first one.

Texts and well-formed bytes are then the same thing twice (`decode?_eq_some_iff`), and a lossy reading
in which nothing was replaced is an exact one (`encode_of_decodeLossy`).
-/

namespace NativeLaunch
namespace Utf8

/-! ## The bytes after the first -/

/-- The last bytes of a number's sequence, six bits in each. -/
def tail : (count : Nat) → (number : Nat) → Bytes
  | 0, _ => []
  | count + 1, number => UInt8.ofNat (0x80 + number / 64 ^ count % 64) :: tail count number

theorem toNat_tailByte (number : Nat) :
    (UInt8.ofNat (0x80 + number % 64)).toNat = 0x80 + number % 64 := by
  rw [UInt8.toNat_ofNat']
  omega

/-- The sequence of a number goes on after its first bits: the next byte lies in the given range. -/
def Fits (sequence : Unfinished) (number : Nat) : Prop :=
  0 < sequence.missing ∧ sequence.value = number / 64 ^ sequence.missing ∧
    sequence.low.toNat ≤ 0x80 + number / 64 ^ (sequence.missing - 1) % 64 ∧
    0x80 + number / 64 ^ (sequence.missing - 1) % 64 ≤ sequence.high.toNat

theorem scan_tail {sequence : Unfinished} {number : Nat} (hfits : Fits sequence number)
    (rest : Bytes) :
    scan (some sequence) (tail sequence.missing number ++ rest) =
      some (Char.ofNat number) :: scan none rest := by
  obtain ⟨value, missing, low, high⟩ := sequence
  induction missing generalizing value low high with
  | zero =>
      exact absurd hfits.1 (Nat.lt_irrefl 0)
  | succ count ih =>
      rcases hfits with ⟨_, hvalue, hlow, hhigh⟩
      simp only [Nat.add_sub_cancel] at hvalue hlow hhigh
      have hbyte := toNat_tailByte (number / 64 ^ count)
      have hbits : number / 64 ^ (count + 1) * 64 + number / 64 ^ count % 64 =
          number / 64 ^ count := by
        rw [Nat.pow_succ, ← Nat.div_div_eq_div_mul]
        omega
      rw [tail, List.cons_append, scan, if_pos]
      · simp only [hbyte, Nat.add_sub_cancel_left, hvalue, hbits]
        cases count with
        | zero =>
            simp [tail]
        | succ count =>
            rw [if_neg (by omega)]
            refine ih _ _ _ ⟨Nat.succ_pos count, rfl, ?_, ?_⟩
            · simp
            · simp only [Nat.add_sub_cancel, show (0xBF : UInt8).toNat = 0xBF from rfl]
              omega
      · rw [UInt8.le_iff_toNat_le, UInt8.le_iff_toNat_le, hbyte]
        exact ⟨hlow, hhigh⟩

/-- A sequence that is finished without a fault was that of some number. -/
theorem exists_tail {sequence : Unfinished} {bytes : Bytes} (hmissing : 0 < sequence.missing)
    (hlow : 0x80 ≤ sequence.low.toNat) (hhigh : sequence.high.toNat ≤ 0xBF)
    (hwhole : none ∉ scan (some sequence) bytes) :
    ∃ number rest, Fits sequence number ∧ bytes = tail sequence.missing number ++ rest := by
  obtain ⟨value, missing, low, high⟩ := sequence
  induction missing generalizing value low high bytes with
  | zero =>
      exact absurd hmissing (Nat.lt_irrefl 0)
  | succ count ih =>
      simp only at hlow hhigh
      cases bytes with
      | nil =>
          simp [scan] at hwhole
      | cons b bytes =>
          rw [scan] at hwhole
          split at hwhole
          · rename_i hrange
            simp only [UInt8.le_iff_toNat_le] at hrange
            cases count with
            | zero =>
                refine ⟨value * 64 + (b.toNat - 0x80), bytes, ⟨Nat.zero_lt_one, ?_, ?_, ?_⟩, ?_⟩
                · simp only [Nat.zero_add, Nat.pow_one]
                  omega
                · simp only [Nat.sub_self, Nat.pow_zero, Nat.div_one, Nat.zero_add]
                  omega
                · simp only [Nat.sub_self, Nat.pow_zero, Nat.div_one, Nat.zero_add]
                  omega
                · simp only [tail, Nat.pow_zero, Nat.div_one, List.cons_append, List.nil_append,
                    List.cons.injEq, and_true]
                  apply UInt8.toNat_inj.1
                  rw [toNat_tailByte]
                  omega
            | succ count =>
                simp only [show ¬ count + 1 + 1 ≤ 1 by omega, if_false, Nat.add_sub_cancel] at hwhole
                rcases ih _ _ _ (Nat.succ_pos count) (Nat.le_refl _) (Nat.le_refl _) hwhole with
                  ⟨number, rest, ⟨_, hvalue, _, _⟩, hbytes⟩
                simp only at hvalue hbytes
                have hfirst : 0x80 + number / 64 ^ (count + 1) % 64 = b.toNat := by omega
                refine ⟨number, rest, ⟨Nat.succ_pos _, ?_, ?_, ?_⟩, ?_⟩
                · simp only
                  rw [Nat.pow_succ, ← Nat.div_div_eq_div_mul]
                  omega
                · simp only [Nat.add_sub_cancel]
                  omega
                · simp only [Nat.add_sub_cancel]
                  omega
                · rw [hbytes, ← UInt8.ofNat_toNat (x := b), ← hfirst]
                  rfl
          · simp at hwhole

/-! ## Characters -/

theorem toNat_lt (c : Char) : c.toNat < 0x110000 := by
  rcases c.valid with hlow | ⟨_, hhigh⟩
  · exact Nat.lt_trans hlow (by decide)
  · exact hhigh

theorem toNat_ofNat {number : Nat} (hvalid : number.isValidChar) :
    (Char.ofNat number).toNat = number := by
  rw [Char.ofNat, dif_pos hvalid]
  rfl

/-- The first byte of a character says of itself that it is the whole, or what is still to come. -/
theorem lead_encodeChar (c : Char) :
    (∃ b, encodeChar c = [b] ∧ lead b = .complete c) ∨
      ∃ b sequence, encodeChar c = b :: tail sequence.missing c.toNat ∧ lead b = .opens sequence ∧
        Fits sequence c.toNat := by
  have hvalid : c.toNat < 0xD800 ∨ 0xDFFF < c.toNat ∧ c.toNat < 0x110000 := c.valid
  generalize hn : c.toNat = n at hvalid
  have hc : c = Char.ofNat n := by rw [← hn, Char.ofNat_toNat]
  unfold encodeChar
  simp only [hn]
  split
  · refine .inl ⟨_, rfl, ?_⟩
    simp only [lead, UInt8.toNat_ofNat', show n % 2 ^ 8 = n by omega]
    rw [if_pos (by omega), hc]
  split
  · refine .inr ⟨UInt8.ofNat (0xC0 + n / 64), ⟨n / 64, 1, 0x80, 0xBF⟩, by simp [tail], ?_, ?_⟩
    · have hfirst : (0xC0 + n / 64) % 2 ^ 8 = 0xC0 + n / 64 := by omega
      simp only [lead, UInt8.toNat_ofNat', hfirst]
      rw [if_neg (by omega), if_neg (by omega), if_pos (by omega), Nat.add_sub_cancel_left]
    · simp [Fits]
      omega
  split
  · have hfirst : (0xE0 + n / 4096) % 2 ^ 8 = 0xE0 + n / 4096 := by omega
    have hlead : lead (UInt8.ofNat (0xE0 + n / 4096)) =
        .opens (if n / 4096 = 0 then ⟨0, 2, 0xA0, 0xBF⟩
          else if n / 4096 = 0xD then ⟨0xD, 2, 0x80, 0x9F⟩ else ⟨n / 4096, 2, 0x80, 0xBF⟩) := by
      simp only [lead, UInt8.toNat_ofNat', hfirst]
      rw [if_neg (by omega), if_neg (by omega), if_neg (by omega)]
      grind
    refine .inr ⟨UInt8.ofNat (0xE0 + n / 4096), _, ?_, hlead, ?_⟩
    · split
      · simp [tail]
      split <;> simp [tail]
    · split
      · simp [Fits]
        omega
      split <;>
      · simp [Fits]
        omega
  · have hfirst : (0xF0 + n / 262144) % 2 ^ 8 = 0xF0 + n / 262144 := by omega
    have hlead : lead (UInt8.ofNat (0xF0 + n / 262144)) =
        .opens (if n / 262144 = 0 then ⟨0, 3, 0x90, 0xBF⟩
          else if n / 262144 = 4 then ⟨4, 3, 0x80, 0x8F⟩ else ⟨n / 262144, 3, 0x80, 0xBF⟩) := by
      simp only [lead, UInt8.toNat_ofNat', hfirst]
      rw [if_neg (by omega), if_neg (by omega), if_neg (by omega), if_neg (by omega),
        if_neg (by omega), if_neg (by omega)]
      grind
    refine .inr ⟨UInt8.ofNat (0xF0 + n / 262144), _, ?_, hlead, ?_⟩
    · split
      · simp [tail]
      split <;> simp [tail]
    · split
      · simp [Fits]
        omega
      split <;>
      · simp [Fits]
        omega

/-- The rows of the table for two, three and four bytes. -/
theorem opens_cases {b : UInt8} {sequence : Unfinished} (hlead : lead b = .opens sequence) :
    0x80 ≤ sequence.low.toNat ∧ sequence.high.toNat ≤ 0xBF ∧
      (sequence.missing = 1 ∧ b.toNat = 0xC0 + sequence.value ∧ 2 ≤ sequence.value ∧
          sequence.value < 0x20 ∨
        sequence.missing = 2 ∧ b.toNat = 0xE0 + sequence.value ∧ sequence.value < 0x10 ∧
          (sequence.value = 0 → 0xA0 ≤ sequence.low.toNat) ∧
          (sequence.value = 0xD → sequence.high.toNat ≤ 0x9F) ∨
        sequence.missing = 3 ∧ b.toNat = 0xF0 + sequence.value ∧ sequence.value < 5 ∧
          (sequence.value = 0 → 0x90 ≤ sequence.low.toNat) ∧
          (sequence.value = 4 → sequence.high.toNat ≤ 0x8F)) := by
  simp only [lead] at hlead
  repeat' split at hlead
  all_goals simp only [reduceCtorEq, Lead.opens.injEq] at hlead
  all_goals
    subst hlead
    refine ⟨by simp, by simp, ?_⟩
    simp
    omega

/-- What a first byte says is to come is what the character's sequence has. -/
theorem encodeChar_of_opens {b : UInt8} {sequence : Unfinished} {number : Nat}
    (hlead : lead b = .opens sequence) (hfits : Fits sequence number) :
    encodeChar (Char.ofNat number) = b :: tail sequence.missing number := by
  obtain ⟨value, missing, low, high⟩ := sequence
  rcases hfits with ⟨_, hvalue, hlow, hhigh⟩
  -- With two, three and four bytes, the first one is the length's mark and the number's first bits.
  rcases opens_cases hlead with ⟨_, _, htwo | hthree | hfour⟩
  · rcases htwo with ⟨hmissing, hb, hleast, hmost⟩
    simp only at hmissing hb hleast hmost hvalue hlow hhigh
    subst hmissing
    have hvalid : number.isValidChar := .inl (by omega)
    have hfirst : 0xC0 + number / 64 = b.toNat := by omega
    rw [encodeChar, toNat_ofNat hvalid, if_neg (by omega), if_pos (by omega), hfirst,
      UInt8.ofNat_toNat]
    simp [tail]
  · rcases hthree with ⟨hmissing, hb, hmost, hoverlong, hsurrogate⟩
    simp only at hmissing hb hmost hoverlong hsurrogate hvalue hlow hhigh
    subst hmissing
    have hvalid : number.isValidChar := by
      unfold Nat.isValidChar
      omega
    have hfirst : 0xE0 + number / 4096 = b.toNat := by omega
    rw [encodeChar, toNat_ofNat hvalid, if_neg (by omega), if_neg (by omega), if_pos (by omega),
      hfirst, UInt8.ofNat_toNat]
    simp [tail]
  · rcases hfour with ⟨hmissing, hb, hmost, hoverlong, hlast⟩
    simp only at hmissing hb hmost hoverlong hlast hvalue hlow hhigh
    subst hmissing
    have hvalid : number.isValidChar := .inr (by omega)
    have hfirst : 0xF0 + number / 262144 = b.toNat := by omega
    rw [encodeChar, toNat_ofNat hvalid, if_neg (by omega), if_neg (by omega), if_neg (by omega),
      hfirst, UInt8.ofNat_toNat]
    simp [tail]

theorem encodeChar_of_complete {b : UInt8} {c : Char} (hlead : lead b = .complete c) :
    encodeChar c = [b] := by
  simp only [lead] at hlead
  repeat' split at hlead
  all_goals cases hlead
  have hvalid : b.toNat.isValidChar := .inl (by omega)
  rw [encodeChar, toNat_ofNat hvalid, if_pos (by omega), UInt8.ofNat_toNat]

/-! ## Texts -/

theorem scan_encodeChar (c : Char) (rest : Bytes) :
    scan none (encodeChar c ++ rest) = some c :: scan none rest := by
  rcases lead_encodeChar c with ⟨b, hbytes, hlead⟩ | ⟨b, sequence, hbytes, hlead, hfits⟩
  · rw [hbytes, List.singleton_append, scan]
    simp only [hlead]
  · rw [hbytes, List.cons_append, scan]
    simp only [hlead]
    rw [scan_tail hfits, Char.ofNat_toNat]

theorem scan_encodeChars (text : List Char) : scan none (encodeChars text) = text.map some := by
  induction text with
  | nil =>
      rfl
  | cons c text ih =>
      rw [encodeChars_cons, scan_encodeChar, ih, List.map_cons]

/-- Bytes that are scanned without a fault start with a character's, if there are any. -/
theorem exists_encodeChar {b : UInt8} {bytes : Bytes} (hwhole : none ∉ scan none (b :: bytes)) :
    ∃ c rest, b :: bytes = encodeChar c ++ rest := by
  rw [scan] at hwhole
  cases hlead : lead b with
  | complete c =>
      exact ⟨c, bytes, by rw [encodeChar_of_complete hlead, List.singleton_append]⟩
  | opens sequence =>
      simp only [hlead] at hwhole
      have hrows := opens_cases hlead
      rcases exists_tail (by omega) hrows.1 hrows.2.1 hwhole with ⟨number, rest, hfits, hbytes⟩
      exact ⟨Char.ofNat number, rest,
        by rw [encodeChar_of_opens hlead hfits, List.cons_append, hbytes]⟩
  | illFormed =>
      simp [hlead] at hwhole

/-- Bytes that are scanned without a fault are those of a text. -/
theorem exists_encodeChars (bytes : Bytes) (hwhole : none ∉ scan none bytes) :
    ∃ text, bytes = encodeChars text := by
  -- A character takes one byte or more away, so the induction is on the length.
  induction hlength : bytes.length using Nat.strongRecOn generalizing bytes with
  | ind length ih =>
      cases bytes with
      | nil =>
          exact ⟨[], rfl⟩
      | cons b bytes =>
          rcases exists_encodeChar hwhole with ⟨c, rest, hbytes⟩
          rw [hbytes, scan_encodeChar] at hwhole
          have hshorter : rest.length < length := by
            rw [← hlength, hbytes, List.length_append]
            have hpos : encodeChar c ≠ [] := by
              unfold encodeChar
              grind
            have := List.length_pos_iff.2 hpos
            omega
          rcases ih rest.length hshorter rest (by simp_all) rfl with ⟨text, rfl⟩
          exact ⟨c :: text, by rw [hbytes, encodeChars_cons]⟩

theorem mapM_id_eq_some_iff {α : Type} {parts : List (Option α)} {whole : List α} :
    parts.mapM id = some whole ↔ parts = whole.map some := by
  induction parts generalizing whole with
  | nil =>
      cases whole <;> simp
  | cons part parts ih =>
      cases part with
      | none =>
          cases whole <;> simp [List.mapM_cons]
      | some c =>
          cases whole with
          | nil =>
              cases hparts : parts.mapM id <;> simp [List.mapM_cons, hparts]
          | cons d whole =>
              rw [List.map_cons, List.cons.injEq, ← ih]
              cases hparts : parts.mapM id <;> simp [List.mapM_cons, hparts]

/-- To decode is to find the text that is encoded so. -/
theorem decodeChars?_eq_some_iff {bytes : Bytes} {text : List Char} :
    decodeChars? bytes = some text ↔ bytes = encodeChars text := by
  rw [decodeChars?, mapM_id_eq_some_iff]
  constructor
  · intro hscan
    rcases exists_encodeChars bytes (by simp [hscan]) with ⟨text', rfl⟩
    rw [scan_encodeChars] at hscan
    rw [List.map_inj_right (by simp) |>.1 hscan]
  · rintro rfl
    exact scan_encodeChars text

theorem decode?_eq_some_iff {bytes : Bytes} {text : String} :
    decode? bytes = some text ↔ bytes = encode text := by
  rw [decode?, Option.map_eq_some_iff]
  constructor
  · rintro ⟨chars, hchars, rfl⟩
    rw [decodeChars?_eq_some_iff.1 hchars, encode, String.toList_ofList]
  · rintro rfl
    exact ⟨text.toList, decodeChars?_eq_some_iff.2 rfl, String.ofList_toList⟩

theorem mapM_decode?_eq_some_iff {words : List Bytes} {texts : List String} :
    words.mapM decode? = some texts ↔ words = texts.map encode := by
  induction words generalizing texts with
  | nil =>
      simp [eq_comm]
  | cons word words ih =>
      rw [List.mapM_cons]
      constructor
      · intro h
        simp only [Option.bind_eq_bind, Option.bind_eq_some_iff, Option.pure_def] at h
        rcases h with ⟨text, hword, rest, hrest, htexts⟩
        cases htexts
        rw [List.map_cons, decode?_eq_some_iff.1 hword, ih.1 hrest]
      · intro h
        cases texts with
        | nil =>
            cases h
        | cons text rest =>
            rw [List.map_cons, List.cons.injEq] at h
            rw [decode?_eq_some_iff.2 h.1, ih.2 h.2]
            rfl

theorem encodeChars_inj {text other : List Char} :
    encodeChars text = encodeChars other ↔ text = other := by
  constructor
  · intro h
    have hscan := congrArg (scan none) h
    rw [scan_encodeChars, scan_encodeChars] at hscan
    exact List.map_injective_iff.2 (Option.some_injective _) hscan
  · rintro rfl
    rfl

theorem encode_inj {text other : String} : encode text = encode other ↔ text = other :=
  encodeChars_inj.trans String.toList_inj

theorem decodeLossy_encode (text : String) : decodeLossy (encode text) = text := by
  simp [decodeLossy, encode, scan_encodeChars, Function.comp_def]

/-- A lossy reading without replacements is exact. -/
theorem encode_of_decodeLossy {bytes : Bytes} {text : String} (hread : decodeLossy bytes = text)
    (hnone : '\uFFFD' ∉ text.toList) : bytes = encode text := by
  have hwhole : none ∉ scan none bytes := by
    intro hfault
    apply hnone
    rw [← hread, decodeLossy, String.toList_ofList]
    exact List.mem_map.2 ⟨none, hfault, rfl⟩
  rcases exists_encodeChars bytes hwhole with ⟨chars, rfl⟩
  rw [← hread, decodeLossy, scan_encodeChars]
  simp [encode, Function.comp_def]

/-! ## The standard encoding -/

theorem encodeChar_eq (c : Char) : encodeChar c = String.utf8EncodeChar c := by
  have hvalid := toNat_lt c
  have hval : c.val.toNat = c.toNat := rfl
  unfold encodeChar String.utf8EncodeChar
  simp only [hval]
  grind

/-- The encoding is that of the standard library. -/
theorem toList_toUTF8 (text : String) : text.toUTF8.data.toList = encode text := by
  have hencode : text.toUTF8 = (text.toList.flatMap String.utf8EncodeChar).toByteArray :=
    String.utf8Encode_toList.symm
  rw [hencode, encode, encodeChars, funext encodeChar_eq]
  simp

end Utf8
end NativeLaunch
