/-!
# UTF-8

Text as bytes and bytes as text.  File contents, paths and arguments are bytes; settings and
messages are text.  This file defines:

* `Utf8.encode` — the bytes of a text;
* `Utf8.decode?` — the text of well-formed bytes, and nothing for any others;
* `Utf8.decodeLossy` — the text of any bytes, with one replacement character for each maximal
  ill-formed part.

Both decoders are views of one scan, so they agree wherever the bytes are well formed.
-/

namespace NativeLaunch

/-- Raw bytes: what files hold and what paths and arguments are made of. -/
abbrev Bytes := List UInt8

namespace Utf8

/-! ## Encoding -/

/-- The one to four bytes of a character. -/
def encodeChar (c : Char) : Bytes :=
  let n := c.toNat
  if n < 0x80 then
    [UInt8.ofNat n]
  else if n < 0x800 then
    [UInt8.ofNat (0xC0 + n / 64), UInt8.ofNat (0x80 + n % 64)]
  else if n < 0x10000 then
    [UInt8.ofNat (0xE0 + n / 4096), UInt8.ofNat (0x80 + n / 64 % 64), UInt8.ofNat (0x80 + n % 64)]
  else
    [UInt8.ofNat (0xF0 + n / 262144), UInt8.ofNat (0x80 + n / 4096 % 64),
      UInt8.ofNat (0x80 + n / 64 % 64), UInt8.ofNat (0x80 + n % 64)]

/-- The bytes of a sequence of characters. -/
def encodeChars (text : List Char) : Bytes :=
  text.flatMap encodeChar

/-- The bytes of a text. -/
def encode (text : String) : Bytes :=
  encodeChars text.toList

@[simp] theorem encodeChars_nil : encodeChars [] = [] := rfl

@[simp] theorem encodeChars_cons (c : Char) (text : List Char) :
    encodeChars (c :: text) = encodeChar c ++ encodeChars text := rfl

theorem encodeChars_append (s t : List Char) :
    encodeChars (s ++ t) = encodeChars s ++ encodeChars t := by
  simp [encodeChars]

/-! ## Decoding -/

/-- A sequence whose first bytes have been read: the bits so far, how many bytes are still to
come, and the range the next one must lie in. -/
structure Unfinished where
  value : Nat
  missing : Nat
  low : UInt8
  high : UInt8
deriving DecidableEq, Repr

/-- What a byte means where a sequence may start. -/
inductive Lead
  | complete (c : Char)
  | opens (sequence : Unfinished)
  | illFormed
deriving DecidableEq, Repr

/-- The table of first bytes.  The narrowed ranges after `E0`, `ED`, `F0` and `F4` keep out
overlong forms, surrogates and values past the last code point. -/
def lead (b : UInt8) : Lead :=
  let n := b.toNat
  if n < 0x80 then .complete (Char.ofNat n)
  else if n < 0xC2 then .illFormed
  else if n < 0xE0 then .opens ⟨n - 0xC0, 1, 0x80, 0xBF⟩
  else if n = 0xE0 then .opens ⟨0, 2, 0xA0, 0xBF⟩
  else if n = 0xED then .opens ⟨0xD, 2, 0x80, 0x9F⟩
  else if n < 0xF0 then .opens ⟨n - 0xE0, 2, 0x80, 0xBF⟩
  else if n = 0xF0 then .opens ⟨0, 3, 0x90, 0xBF⟩
  else if n < 0xF4 then .opens ⟨n - 0xF0, 3, 0x80, 0xBF⟩
  else if n = 0xF4 then .opens ⟨4, 3, 0x80, 0x8F⟩
  else .illFormed

/-- Reads bytes one at a time: `some c` for each character and `none` for each maximal ill-formed
part.  A byte that cannot continue a sequence ends it and is read again as a first byte. -/
def scan : Option Unfinished → Bytes → List (Option Char)
  | none, [] => []
  | some _, [] => [none]
  | none, b :: rest =>
    match lead b with
    | .complete c => some c :: scan none rest
    | .opens sequence => scan (some sequence) rest
    | .illFormed => none :: scan none rest
  | some u, b :: rest =>
    if u.low ≤ b ∧ b ≤ u.high then
      let value := u.value * 64 + (b.toNat - 0x80)
      if u.missing ≤ 1 then
        some (Char.ofNat value) :: scan none rest
      else
        scan (some ⟨value, u.missing - 1, 0x80, 0xBF⟩) rest
    else
      none ::
        match lead b with
        | .complete c => some c :: scan none rest
        | .opens sequence => scan (some sequence) rest
        | .illFormed => none :: scan none rest

/-- The characters of well-formed bytes. -/
def decodeChars? (bytes : Bytes) : Option (List Char) :=
  (scan none bytes).mapM id

/-- The text of well-formed bytes; nothing if any part is ill formed. -/
def decode? (bytes : Bytes) : Option String :=
  (decodeChars? bytes).map String.ofList

/-- The text of any bytes, each maximal ill-formed part shown as U+FFFD. -/
def decodeLossy (bytes : Bytes) : String :=
  String.ofList ((scan none bytes).map (·.getD '\uFFFD'))

end Utf8

end NativeLaunch
