import NativeLaunch.Failure
import NativeLaunch.Invocation

/-!
# Argument blocks

The arguments of an invocation as native code takes them: strings that each end in a zero byte, and
a list of pointers to them that ends in a null pointer.  An argument that holds a zero byte cannot
be passed.  Reading a block back gives the arguments that went in, which is what the native side
sees.
-/

namespace NativeLaunch

/-- Strings in memory and pointers to them. -/
structure ArgumentBlock where
  /-- The strings, one after another, each with a zero byte at its end. -/
  memory : Bytes
  /-- Where each string starts; the last entry is the null pointer. -/
  pointers : List (Option Nat)
deriving DecidableEq, Repr

namespace ArgumentBlock

/-- The number of arguments that a native count can hold is below this. -/
def countLimit : Nat := 0x80000000

/-- The memory of some strings and where each of them starts, after what is there already. -/
def layOut : (start : Nat) → List Bytes → Bytes × List (Option Nat)
  | _, [] => ([], [none])
  | start, text :: rest =>
    let (memory, pointers) := layOut (start + text.length + 1) rest
    (text ++ 0 :: memory, some start :: pointers)

/-- The block of some strings. -/
def ofStrings (strings : List Bytes) : ArgumentBlock :=
  let (memory, pointers) := layOut 0 strings
  ⟨memory, pointers⟩

/-- Makes the block of an invocation.  The first argument that holds a zero byte is refused, and so
are more arguments than can be counted. -/
def marshal (invocation : Invocation) : Except Failure ArgumentBlock :=
  let strings := invocation.arguments.map Utf8.encode
  match strings.findIdx? (·.contains 0) with
  | some index => .error (.invalidArgument index)
  | none =>
    if strings.length < countLimit then .ok (ofStrings strings)
    else .error (.invalidArgument strings.length)

/-- The number of arguments. -/
def count (block : ArgumentBlock) : Nat := block.pointers.length - 1

/-- The string at a place in the memory, up to its first zero byte. -/
def stringAt (block : ArgumentBlock) (start : Nat) : Bytes :=
  (block.memory.drop start).takeWhile (· ≠ 0)

/-- The strings that the pointers lead to. -/
def strings (block : ArgumentBlock) : List Bytes :=
  block.pointers.filterMap fun pointer => pointer.map block.stringAt

end ArgumentBlock

end NativeLaunch
