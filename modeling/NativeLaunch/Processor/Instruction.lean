import NativeLaunch.Memory

/-!
# Instructions

The instructions of an x86-64 processor that plain integer code is made of, and their decoding.
Decoding looks at bytes only: it gives an instruction and its length, or nothing for bytes outside
this part of the instruction set.
-/

namespace NativeLaunch

namespace Processor

/-! ## Operands -/

/-- A register by its number: 0 is the accumulator, 4 the stack pointer. -/
abbrev Register := Fin 16

namespace Register

/-- Holds results and the number of a system call. -/
def accumulator : Register := 0

/-- Holds the count of a shift. -/
def count : Register := 1

/-- Holds a third argument. -/
def data : Register := 2

/-- Points to the top of the stack. -/
def stackPointer : Register := 4

/-- Points to the frame of a function. -/
def framePointer : Register := 5

/-- Holds a second argument. -/
def source : Register := 6

/-- Holds a first argument. -/
def destination : Register := 7

end Register

/-- The width of an operand. -/
inductive Width
  | byte | word | double | quad
deriving DecidableEq, Repr

namespace Width

/-- The number of bytes. -/
def bytes : Width → Nat
  | .byte => 1
  | .word => 2
  | .double => 4
  | .quad => 8

/-- One more than the largest value. -/
def modulus (width : Width) : Nat := 1 <<< (8 * width.bytes)

end Width

/-- An address as an instruction spells it. -/
structure Address where
  base : Option Register := none
  index : Option Register := none
  scale : Nat := 1
  /-- Whether the address is counted from the end of the instruction. -/
  relative : Bool := false
  displacement : Int := 0
deriving DecidableEq, Repr

/-- A place that holds a value. -/
inductive Place
  | register (r : Register)
  /-- The second byte of one of the first four registers. -/
  | highByte (r : Register)
  | memory (address : Address)
deriving DecidableEq, Repr

/-- What an instruction reads. -/
inductive Operand
  | place (place : Place)
  | constant (value : Int)
deriving DecidableEq, Repr

/-! ## Instructions -/

/-- Two-operand arithmetic. -/
inductive Arithmetic
  | add | or | addCarry | subtractBorrow | and | subtract | xor | compare
deriving DecidableEq, Repr

namespace Arithmetic

/-- The operations in the order of their codes. -/
def ofCode : Nat → Arithmetic
  | 0 => .add
  | 1 => .or
  | 2 => .addCarry
  | 3 => .subtractBorrow
  | 4 => .and
  | 5 => .subtract
  | 6 => .xor
  | _ => .compare

end Arithmetic

/-- One-operand arithmetic. -/
inductive Unary
  | increment | decrement | complement | negate
deriving DecidableEq, Repr

/-- Shifts. -/
inductive Shift
  | left | right | rightSigned
deriving DecidableEq, Repr

/-- A condition on the flags: a test, taken as it is or negated. -/
structure Condition where
  /-- Overflow, carry, zero, carry or zero, sign, parity, less, less or equal. -/
  test : Nat
  negated : Bool
deriving DecidableEq, Repr

/-- The condition of a code. -/
def Condition.ofCode (code : Nat) : Condition := ⟨code / 2, code % 2 = 1⟩

/-- An instruction. -/
inductive Instruction
  | arithmetic (op : Arithmetic) (width : Width) (target : Place) (source : Operand)
  | test (width : Width) (left : Place) (right : Operand)
  | move (width : Width) (target : Place) (source : Operand)
  | extend (signed : Bool) (wide narrow : Width) (target : Register) (source : Place)
  | loadAddress (width : Width) (target : Register) (address : Address)
  | unary (op : Unary) (width : Width) (target : Place)
  | shift (op : Shift) (width : Width) (target : Place) (count : Operand)
  | multiply (width : Width) (target : Register) (left : Place) (right : Operand)
  | exchange (width : Width) (target : Place) (r : Register)
  | push (source : Operand)
  | pop (target : Place)
  | leave
  | jump (distance : Int)
  | jumpIf (condition : Condition) (distance : Int)
  | jumpTo (target : Place)
  | call (distance : Int)
  | callTo (target : Place)
  | ret
  | setIf (condition : Condition) (target : Place)
  | moveIf (condition : Condition) (width : Width) (target : Register) (source : Place)
  /-- Spreads the sign of the accumulator's lower half over the whole of it. -/
  | widenAccumulator (width : Width)
  /-- Spreads the sign of the accumulator over the data register. -/
  | spreadSign (width : Width)
  | systemCall
  | nothing
deriving Repr

/-! ## Decoding -/

/-- What stands before the code of an instruction. -/
structure Prefixes where
  /-- Whether operands have 16 bits where they would have 32. -/
  short : Bool := false
  /-- The extension byte, if there is one. -/
  extension : Option Nat := none
deriving Repr

namespace Prefixes

/-- A bit of the extension byte; zero if there is none. -/
def bit (prefixes : Prefixes) (n : Nat) : Nat := (prefixes.extension.getD 0 >>> n) % 2

/-- The width of operands that are not bytes. -/
def width (prefixes : Prefixes) : Width :=
  if prefixes.bit 3 = 1 then .quad else if prefixes.short then .word else .double

/-- The width by the lowest bit of a code. -/
def widthOf (prefixes : Prefixes) (code : Nat) : Width :=
  if code % 2 = 0 then .byte else prefixes.width

/-- A register by its three bits and a bit of the extension. -/
def register (prefixes : Prefixes) (bits extensionBit : Nat) : Register :=
  Fin.ofNat 16 (bits + 8 * prefixes.bit extensionBit)

/-- A register as a place; without an extension byte, the codes 4 to 7 name second bytes. -/
def place (prefixes : Prefixes) (width : Width) (bits extensionBit : Nat) : Place :=
  if width = .byte && prefixes.extension.isNone && 4 ≤ bits then .highByte (Fin.ofNat 16 (bits - 4))
  else .register (prefixes.register bits extensionBit)

end Prefixes

/-- Reads the prefixes of an instruction; the extension byte comes last. -/
def readPrefixes (prefixes : Prefixes) : Bytes → Prefixes × Bytes
  | [] => (prefixes, [])
  | b :: rest =>
    if b = 0x66 then readPrefixes { prefixes with short := true } rest
    else if b = 0xF2 || b = 0xF3 then readPrefixes prefixes rest
    else if b.toNat / 16 = 4 then ({ prefixes with extension := some (b.toNat % 16) }, rest)
    else (prefixes, b :: rest)

/-- Reads a signed little-endian number. -/
def readSigned (count : Nat) (bytes : Bytes) : Option (Int × Bytes) :=
  if bytes.length < count then none
  else
    let n := littleEndian (bytes.take count)
    let value : Int := if 1 <<< (8 * count) ≤ 2 * n then (n : Int) - (1 <<< (8 * count) : Nat) else n
    some (value, bytes.drop count)

/-- The length of a constant in an instruction: operands of 64 bits have constants of 32. -/
def constantLength : Width → Nat
  | .byte => 1
  | .word => 2
  | _ => 4

/-- The byte that names a register and a place, once read. -/
structure Selector where
  code : Nat
  place : Width → Place

/-- Reads the byte that names a register and a place, with what belongs to the place's address. -/
def readSelector (prefixes : Prefixes) : Bytes → Option (Selector × Bytes)
  | [] => none
  | b :: rest =>
    let mode := b.toNat / 64
    let code := b.toNat / 8 % 8
    let low := b.toNat % 8
    let inMemory (address : Address) (rest : Bytes) : Option (Selector × Bytes) :=
      some (⟨code, fun _ => .memory address⟩, rest)
    let displaced (address : Address) (rest : Bytes) : Option (Selector × Bytes) :=
      if mode = 0 then inMemory address rest
      else
        (readSigned (if mode = 1 then 1 else 4) rest).bind fun (d, rest) =>
          inMemory { address with displacement := d } rest
    let far (address : Address) (rest : Bytes) : Option (Selector × Bytes) :=
      (readSigned 4 rest).bind fun (d, rest) => inMemory { address with displacement := d } rest
    if mode = 3 then some (⟨code, fun width => prefixes.place width low 0⟩, rest)
    else if low = 4 then
      match rest with
      | [] => none
      | s :: rest =>
        let index := prefixes.register (s.toNat / 8 % 8) 1
        let indexed : Address :=
          { index := if index = Register.stackPointer then none else some index
            scale := 1 <<< (s.toNat / 64) }
        if s.toNat % 8 = 5 && mode = 0 then far indexed rest
        else displaced { indexed with base := some (prefixes.register (s.toNat % 8) 0) } rest
    else if low = 5 && mode = 0 then far { relative := true } rest
    else displaced { base := some (prefixes.register low 0) } rest

/-- Decodes an instruction whose code starts with `0F`. -/
def decodeSecond (prefixes : Prefixes) (code : Nat) (rest : Bytes) : Option (Instruction × Bytes) :=
  let width := prefixes.width
  let selected (make : Selector → Option Instruction) : Option (Instruction × Bytes) :=
    (readSelector prefixes rest).bind fun (s, rest) => (make s).map fun i => (i, rest)
  let target (s : Selector) : Register := prefixes.register s.code 2
  if code = 0x05 then some (.systemCall, rest)
  else if code = 0x1E || code = 0x1F then selected fun _ => some .nothing
  else if code / 16 = 4 then
    selected fun s => some (.moveIf (.ofCode (code % 16)) width (target s) (s.place width))
  else if code / 16 = 8 then
    (readSigned 4 rest).map fun (d, rest) => (.jumpIf (.ofCode (code % 16)) d, rest)
  else if code / 16 = 9 then selected fun s => some (.setIf (.ofCode (code % 16)) (s.place .byte))
  else if code = 0xAF then
    selected fun s =>
      let r := target s
      some (.multiply width r (.register r) (.place (s.place width)))
  else if code = 0xB6 || code = 0xB7 || code = 0xBE || code = 0xBF then
    let narrow : Width := if code % 2 = 0 then .byte else .word
    selected fun s => some (.extend (0xBE ≤ code) width narrow (target s) (s.place narrow))
  else none

/-- Decodes an instruction after its prefixes. -/
def decodeFirst (prefixes : Prefixes) (code : Nat) (rest : Bytes) : Option (Instruction × Bytes) :=
  let width := prefixes.width
  let sized := prefixes.widthOf code
  let selected (make : Selector → Option Instruction) : Option (Instruction × Bytes) :=
    (readSelector prefixes rest).bind fun (s, rest) => (make s).map fun i => (i, rest)
  let constant (count : Nat) (make : Int → Instruction) : Option (Instruction × Bytes) :=
    (readSigned count rest).map fun (value, rest) => (make value, rest)
  let selectedConstant (count : Nat) (make : Selector → Int → Option Instruction) :
      Option (Instruction × Bytes) :=
    (readSelector prefixes rest).bind fun (s, rest) =>
      (readSigned count rest).bind fun (value, rest) => (make s value).map fun i => (i, rest)
  let target (s : Selector) : Place := prefixes.place sized s.code 2
  let accumulator : Place := .register Register.accumulator
  let shiftOf (s : Selector) (count : Operand) : Option Instruction :=
    let make (op : Shift) : Option Instruction := some (.shift op sized (s.place sized) count)
    if s.code = 4 || s.code = 6 then make .left
    else if s.code = 5 then make .right
    else if s.code = 7 then make .rightSigned
    else none
  if code < 0x40 && code % 8 < 6 then
    let op := Arithmetic.ofCode (code / 8)
    if code % 8 < 2 then
      selected fun s => some (.arithmetic op sized (s.place sized) (.place (target s)))
    else if code % 8 < 4 then
      selected fun s => some (.arithmetic op sized (target s) (.place (s.place sized)))
    else
      constant (constantLength sized) fun v => .arithmetic op sized accumulator (.constant v)
  else if code / 8 = 0x50 / 8 then
    some (.push (.place (.register (prefixes.register (code % 8) 0))), rest)
  else if code / 8 = 0x58 / 8 then
    some (.pop (.register (prefixes.register (code % 8) 0)), rest)
  else if code = 0x63 then
    selected fun s => some (.extend true width .double (prefixes.register s.code 2) (s.place .double))
  else if code = 0x68 then constant 4 fun v => .push (.constant v)
  else if code = 0x6A then constant 1 fun v => .push (.constant v)
  else if code = 0x69 || code = 0x6B then
    selectedConstant (if code = 0x6B then 1 else constantLength width) fun s v =>
      some (.multiply width (prefixes.register s.code 2) (s.place width) (.constant v))
  else if code / 16 = 7 then constant 1 fun d => .jumpIf (.ofCode (code % 16)) d
  else if code = 0x80 || code = 0x81 || code = 0x83 then
    selectedConstant (if code = 0x81 then constantLength width else 1) fun s v =>
      some (.arithmetic (.ofCode s.code) sized (s.place sized) (.constant v))
  else if code = 0x84 || code = 0x85 then
    selected fun s => some (.test sized (s.place sized) (.place (target s)))
  else if code = 0x86 || code = 0x87 then
    selected fun s =>
      match target s with
      | .register r => some (.exchange sized (s.place sized) r)
      | _ => none
  else if code = 0x88 || code = 0x89 then
    selected fun s => some (.move sized (s.place sized) (.place (target s)))
  else if code = 0x8A || code = 0x8B then
    selected fun s => some (.move sized (target s) (.place (s.place sized)))
  else if code = 0x8D then
    selected fun s =>
      match s.place width with
      | .memory address => some (.loadAddress width (prefixes.register s.code 2) address)
      | _ => none
  else if code = 0x8F then selected fun s => if s.code = 0 then some (.pop (s.place .quad)) else none
  else if code = 0x90 then some (.nothing, rest)
  else if code = 0x98 then some (.widenAccumulator width, rest)
  else if code = 0x99 then some (.spreadSign width, rest)
  else if code = 0xA8 || code = 0xA9 then
    constant (constantLength sized) fun v => .test sized accumulator (.constant v)
  else if code / 8 = 0xB0 / 8 then
    constant 1 fun v => .move .byte (prefixes.place .byte (code % 8) 0) (.constant v)
  else if code / 8 = 0xB8 / 8 then
    let r := prefixes.register (code % 8) 0
    constant width.bytes fun v => .move width (.register r) (.constant v)
  else if code = 0xC0 || code = 0xC1 then
    selectedConstant 1 fun s v => shiftOf s (.constant v)
  else if code = 0xC3 then some (.ret, rest)
  else if code = 0xC6 || code = 0xC7 then
    selectedConstant (constantLength sized) fun s v =>
      if s.code = 0 then some (.move sized (s.place sized) (.constant v)) else none
  else if code = 0xC9 then some (.leave, rest)
  else if code = 0xD0 || code = 0xD1 then selected fun s => shiftOf s (.constant 1)
  else if code = 0xD2 || code = 0xD3 then
    selected fun s => shiftOf s (.place (.register Register.count))
  else if code = 0xE8 then constant 4 .call
  else if code = 0xE9 then constant 4 .jump
  else if code = 0xEB then constant 1 .jump
  else if code = 0xF6 || code = 0xF7 then
    (readSelector prefixes rest).bind fun (s, rest) =>
      if s.code = 0 then
        (readSigned (constantLength sized) rest).map fun (v, rest) =>
          (.test sized (s.place sized) (.constant v), rest)
      else if s.code = 2 then some (.unary .complement sized (s.place sized), rest)
      else if s.code = 3 then some (.unary .negate sized (s.place sized), rest)
      else none
  else if code = 0xFE || code = 0xFF then
    selected fun s =>
      if s.code = 0 then some (.unary .increment sized (s.place sized))
      else if s.code = 1 then some (.unary .decrement sized (s.place sized))
      else if code = 0xFE then none
      else if s.code = 2 then some (.callTo (s.place .quad))
      else if s.code = 4 then some (.jumpTo (s.place .quad))
      else if s.code = 6 then some (.push (.place (s.place .quad)))
      else none
  else none

/-- Decodes the instruction at the start of some bytes: the instruction and its length. -/
def decode (bytes : Bytes) : Option (Instruction × Nat) :=
  let (prefixes, rest) := readPrefixes {} bytes
  let decoded := match rest with
    | [] => none
    | first :: rest =>
      if first = 0x0F then
        match rest with
        | [] => none
        | second :: rest => decodeSecond prefixes second.toNat rest
      else decodeFirst prefixes first.toNat rest
  decoded.map fun (instruction, rest) => (instruction, bytes.length - rest.length)

end Processor

end NativeLaunch
