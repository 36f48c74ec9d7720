import NativeLaunch.ArgumentBlock
import NativeLaunch.Processor.Instruction
import NativeLaunch.Memory
import NativeLaunch.World

/-!
# Running native code

A processor with its memory, and the files that its system calls reach.  Values are natural numbers
below the modulus of their width.  This file defines:

* `Machine` with its registers, flags and memory;
* `Machine.execute` — the effect of one instruction;
* `Machine.callFunction` — a call of a function with an argument block, up to its return.

Code that leaves its memory or uses an instruction outside the decoded part comes to a halt, and
the call then ends with what the accumulator holds.
-/

namespace NativeLaunch

namespace Processor

/-- The flags that arithmetic sets. -/
structure Flags where
  carry : Bool := false
  zero : Bool := false
  sign : Bool := false
  overflow : Bool := false
  parity : Bool := false
deriving DecidableEq, Repr

/-- A file or directory that the code has open. -/
structure OpenFile where
  place : Location
  writable : Bool
  /-- Where the next bytes are written; nothing stands for the end. -/
  position? : Option Nat
  /-- Of a directory, the entries that have not been listed yet. -/
  unlisted? : Option (List (Bytes × FileNode)) := none
deriving Repr

/-- A processor, its memory and its surroundings. -/
structure Machine where
  registers : Vector Nat 16
  /-- The address of the next instruction. -/
  next : Nat
  flags : Flags := {}
  memory : Memory
  world : World
  /-- What the code has open, by number. -/
  openFiles : List (Nat × OpenFile) := []
deriving Repr

namespace Machine

/-! ## Operands -/

/-- An integer as a value of a width. -/
def wrap (width : Width) (value : Int) : Nat := (value % (width.modulus : Int)).toNat

/-- A value read as a signed integer. -/
def signed (width : Width) (value : Nat) : Int :=
  if width.modulus ≤ 2 * value then (value : Int) - width.modulus else value

/-- The value of a register. -/
def register (machine : Machine) (r : Register) : Nat := machine.registers[r]

/-- Sets a register.  Narrow values leave the rest of it; values of 32 bits clear the upper half. -/
def setRegister (machine : Machine) (r : Register) (width : Width) (value : Nat) : Machine :=
  let whole := match width with
    | .quad => value
    | .double => value
    | _ => machine.register r / width.modulus * width.modulus + value
  { machine with registers := machine.registers.set r whole }

/-- The address that an instruction's address stands for, seen from the next instruction. -/
def locate (machine : Machine) (address : Address) : Nat :=
  let valueOf (r : Option Register) : Int := match r with
    | some r => machine.register r
    | none => 0
  let start : Int := if address.relative then machine.next else valueOf address.base
  wrap .quad (start + valueOf address.index * address.scale + address.displacement)

/-- Writes a value into memory. -/
def store? (machine : Machine) (address : Nat) (width : Width) (value : Nat) : Option Machine :=
  (machine.memory.write? address (bytesOfNumber width.bytes value)).map fun memory =>
    { machine with memory := memory }

/-- Reads a place. -/
def readPlace? (machine : Machine) (width : Width) : Place → Option Nat
  | .register r => some (machine.register r % width.modulus)
  | .highByte r => some (machine.register r / 256 % 256)
  | .memory address => machine.memory.numberAt? (machine.locate address) width.bytes

/-- Reads an operand. -/
def readOperand? (machine : Machine) (width : Width) : Operand → Option Nat
  | .place place => machine.readPlace? width place
  | .constant value => some (wrap width value)

/-- Writes a place. -/
def writePlace? (machine : Machine) (width : Width) (place : Place) (value : Nat) :
    Option Machine :=
  match place with
  | .register r => some (machine.setRegister r width value)
  | .highByte r =>
    let old := machine.register r
    some { machine with registers := machine.registers.set r (old / 65536 * 65536 + value * 256 + old % 256) }
  | .memory address => machine.store? (machine.locate address) width value

/-! ## Arithmetic -/

/-- The flags that follow from a result alone. -/
def flagsOf (width : Width) (result : Nat) (carry overflow : Bool) : Flags where
  carry := carry
  zero := result = 0
  sign := decide (width.modulus ≤ 2 * result)
  overflow := overflow
  parity := ((List.range 8).foldl (fun n i => n + (result >>> i) % 2) 0) % 2 = 0

/-- The result and flags of a sum. -/
def sum (width : Width) (a b carry : Nat) : Nat × Flags :=
  let result := (a + b + carry) % width.modulus
  let exact := signed width a + signed width b + carry
  (result, flagsOf width result (width.modulus ≤ a + b + carry) (exact ≠ signed width result))

/-- The result and flags of a difference. -/
def difference (width : Width) (a b borrow : Nat) : Nat × Flags :=
  let result := wrap width ((a : Int) - b - borrow)
  let exact := signed width a - signed width b - borrow
  (result, flagsOf width result (a < b + borrow) (exact ≠ signed width result))

/-- The result and flags of two-operand arithmetic. -/
def compute (op : Arithmetic) (width : Width) (a b : Nat) (carry : Bool) : Nat × Flags :=
  let plain (result : Nat) : Nat × Flags := (result, flagsOf width result false false)
  match op with
  | .add => sum width a b 0
  | .addCarry => sum width a b carry.toNat
  | .subtract => difference width a b 0
  | .compare => difference width a b 0
  | .subtractBorrow => difference width a b carry.toNat
  | .or => plain (a ||| b)
  | .and => plain (a &&& b)
  | .xor => plain (a ^^^ b)

/-- Whether a condition holds. -/
def holds (flags : Flags) (condition : Condition) : Bool :=
  let plain := match condition.test with
    | 0 => flags.overflow
    | 1 => flags.carry
    | 2 => flags.zero
    | 3 => flags.carry || flags.zero
    | 4 => flags.sign
    | 5 => flags.parity
    | 6 => flags.sign != flags.overflow
    | _ => flags.zero || (flags.sign != flags.overflow)
  plain != condition.negated

/-! ## System calls -/

/-- The number with which a system call reports a fault, before negation. -/
def errorNumber : FaultKind → Nat
  | .notFound => 2
  | .permissionDenied => 13
  | .resourceBusy => 16
  | .alreadyExists => 17
  | .notADirectory => 20
  | .isADirectory => 21
  | .invalidFilename => 36
  | .directoryNotEmpty => 39
  | .filesystemLoop => 40
  | _ => 22

/-- Puts the answer of a system call into the accumulator. -/
def answer (machine : Machine) (value : Int) : Machine :=
  machine.setRegister Register.accumulator .quad (wrap .quad value)

/-- Puts the fault of a system call into the accumulator. -/
def refuse (machine : Machine) (kind : FaultKind) : Machine :=
  machine.answer (-(errorNumber kind : Int))

/-- Puts into the accumulator what became of an operation on the surroundings. -/
def conclude {α : Type} (machine : Machine) (outcome : Except FaultKind α × World) : Machine :=
  match outcome with
  | (.error kind, _) => machine.refuse kind
  | (.ok _, world) => { machine with world := world }.answer 0

/-- The text at an address as a path. -/
def pathAt (machine : Machine) (address : Nat) : Path :=
  ⟨machine.memory.textAt FileTree.pathLimit address⟩

/-- What can be listed of a directory: itself, the one above it, and what is in it. -/
def listing (files : FileTree) (place : Location) : List (Bytes × FileNode) :=
  ([Path.dot], .directory) :: ([Path.dot, Path.dot], .directory) :: files.children place

/-- Opens a file.  Asked to create, it makes the file if its name is free; asked to truncate, it
empties the file.  A directory can be opened for reading alone. -/
def openFile (machine : Machine) (path : Path) (writable create truncate append : Bool) : Machine :=
  let world := machine.world
  let opened : Except FaultKind Unit × World :=
    if create then
      match world.read path with
      | .ok content => world.write path (if truncate then [] else content)
      | .error _ => world.write path []
    else
      match world.read path with
      | .ok content => if truncate && content ≠ [] then world.write path [] else (.ok (), world)
      | .error kind =>
        if kind = .isADirectory && !writable && !truncate then (.ok (), world)
        else (.error kind, world)
  match opened with
  | (.error kind, _) => machine.refuse kind
  | (.ok _, world) =>
    match world.files.find world.workingDirectory path with
    | .error kind => machine.refuse kind
    | .ok (place, node) =>
      let number := machine.openFiles.foldl (fun n (m, _) => max n (m + 1)) 3
      let handle : OpenFile :=
        { place := place
          writable := writable
          position? := if append then none else some 0
          unlisted? := if node.isDirectory then some (listing world.files place) else none }
      { machine with world := world, openFiles := (number, handle) :: machine.openFiles }.answer number

/-- Keeps what has become of something open. -/
def update (machine : Machine) (number : Nat) (handle : OpenFile) : Machine :=
  { machine with openFiles := (number, handle) :: machine.openFiles.filter (·.1 ≠ number) }

/-- Bytes with others written over them from a position on, after zeros if they end before it. -/
def overwrite (content : Bytes) (position : Nat) (bytes : Bytes) : Bytes :=
  content.take position ++ List.replicate (position - content.length) 0 ++ bytes ++
    content.drop (position + bytes.length)

/-- Writes to standard output, to an open file, or nowhere. -/
def writeFile (machine : Machine) (number : Nat) (bytes : Bytes) : Machine :=
  if number = 1 then { machine with world := machine.world.print bytes }.answer bytes.length
  else if number = 2 then machine.answer bytes.length
  else
    match (machine.openFiles.lookup number).filter (·.writable) with
    | none => machine.answer (-9)
    | some handle =>
      let files := machine.world.files
      let files := match files.node? handle.place with
        | some (.file content) =>
          let position := handle.position?.getD content.length
          files.insert handle.place (.file (overwrite content position bytes))
        | _ => files
      let advanced := { handle with position? := handle.position?.map (· + bytes.length) }
      let written := { machine with world := { machine.world with files := files } }
      (written.update number advanced).answer bytes.length

/-- The number for the kind of a directory entry. -/
def entryKind : FileNode → UInt8
  | .sink => 2
  | .directory => 4
  | .file _ => 8
  | .link _ => 10

/-- The record of a directory entry: two numbers that nothing here depends on, the record's length,
which is a multiple of eight, the entry's kind, and its name with a zero after it. -/
def entryRecord (name : Bytes) (node : FileNode) : Bytes :=
  let length := (name.length + 27) / 8 * 8
  bytesOfNumber 8 1 ++ bytesOfNumber 8 1 ++ bytesOfNumber 2 length ++ entryKind node :: name ++
    List.replicate (length - 19 - name.length) 0

/-- The records of the first entries that find room, and the entries that are left. -/
def packEntries : (room : Nat) → List (Bytes × FileNode) → Bytes × List (Bytes × FileNode)
  | _, [] => ([], [])
  | room, (name, node) :: rest =>
    let record := entryRecord name node
    if room < record.length then ([], (name, node) :: rest)
    else
      let (records, left) := packEntries (room - record.length) rest
      (record ++ records, left)

/-- Lists entries of an open directory into a stretch of memory, as many as find room there. -/
def listEntries (machine : Machine) (number address size : Nat) : Machine :=
  match machine.openFiles.lookup number with
  | none => machine.answer (-9)
  | some handle =>
    match handle.unlisted? with
    | none => machine.refuse .notADirectory
    | some entries =>
      let (records, left) := packEntries size entries
      if records = [] && left ≠ [] then machine.refuse .invalidInput
      else
        match machine.memory.write? address records with
        | none => machine.answer (-14)
        | some memory =>
          let filled := { machine with memory := memory }
          (filled.update number { handle with unlisted? := some left }).answer records.length

/-- Renames what a path names.  Open files are still open where they are now. -/
def renameFile (machine : Machine) (path next : Path) : Machine :=
  match machine.world.rename path next with
  | (.error kind, _) => machine.refuse kind
  | (.ok (source, target), world) =>
    let openFiles := machine.openFiles.map fun (number, handle) =>
      (number, { handle with place := FileTree.relocate source target handle.place })
    { machine with world := world, openFiles := openFiles }.answer 0

/-- Performs the system call that the accumulator names. -/
def systemCall (machine : Machine) : Machine :=
  let first := machine.register Register.destination
  let second := machine.register Register.source
  let third := machine.register Register.data
  match machine.register Register.accumulator with
  | 1 => machine.writeFile (first % 0x100000000) (machine.memory.bytesFrom third second)
  | 2 =>
    machine.openFile (machine.pathAt first) (second % 4 ≠ 0) (second / 64 % 2 = 1)
      (second / 512 % 2 = 1) (second / 1024 % 2 = 1)
  | 3 =>
    let kept := machine.openFiles.filter (·.1 ≠ first)
    if kept.length = machine.openFiles.length then machine.answer (-9)
    else { machine with openFiles := kept }.answer 0
  | 82 => machine.renameFile (machine.pathAt first) (machine.pathAt second)
  | 83 => machine.conclude (machine.world.makeDirectory (machine.pathAt first))
  | 87 => machine.conclude (machine.world.unlink (machine.pathAt first))
  | 88 => machine.conclude (machine.world.makeLink (machine.pathAt second) (machine.pathAt first).bytes)
  | 217 => machine.listEntries (first % 0x100000000) second (third % 0x100000000)
  | _ => machine.answer (-38)

/-! ## Instructions -/

/-- Pushes a value of 64 bits. -/
def push? (machine : Machine) (value : Nat) : Option Machine :=
  let top := wrap .quad ((machine.register Register.stackPointer : Int) - 8)
  (machine.store? top .quad value).map fun pushed =>
    pushed.setRegister Register.stackPointer .quad top

/-- Pops a value of 64 bits. -/
def pop? (machine : Machine) : Option (Nat × Machine) :=
  let top := machine.register Register.stackPointer
  (machine.memory.numberAt? top 8).map fun value =>
    (value, machine.setRegister Register.stackPointer .quad (wrap .quad (top + 8)))

/-- Goes to an address. -/
def goto (machine : Machine) (address : Nat) : Machine := { machine with next := address }

/-- The address at a distance from the next instruction. -/
def ahead (machine : Machine) (distance : Int) : Nat := wrap .quad (machine.next + distance)

/-- The result of a shift by a count. -/
def shifted (op : Shift) (width : Width) (value count : Nat) : Nat :=
  match op with
  | .left => (value <<< count) % width.modulus
  | .right => value >>> count
  | .rightSigned => wrap width (signed width value / (1 <<< count : Nat))

/-- The last bit that a shift moves out. -/
def shiftedOut (op : Shift) (width : Width) (value count : Nat) : Bool :=
  match op with
  | .left => (value <<< count) / width.modulus % 2 = 1
  | .right => (value >>> (count - 1)) % 2 = 1
  | .rightSigned => (signed width value / (1 <<< (count - 1) : Nat)) % 2 = 1

/-- The effect of an instruction, the next address being that after it. -/
def execute? (machine : Machine) : Instruction → Option Machine
  | .arithmetic op width target source => do
    let a ← machine.readPlace? width target
    let b ← machine.readOperand? width source
    let (result, flags) := compute op width a b machine.flags.carry
    let flagged := { machine with flags := flags }
    if op = .compare then return flagged else flagged.writePlace? width target result
  | .test width left right => do
    let a ← machine.readPlace? width left
    let b ← machine.readOperand? width right
    return { machine with flags := (compute .and width a b false).2 }
  | .move width target source => do
    machine.writePlace? width target (← machine.readOperand? width source)
  | .extend isSigned wide narrow target source => do
    let value ← machine.readPlace? narrow source
    return machine.setRegister target wide
      (if isSigned then wrap wide (signed narrow value) else value)
  | .loadAddress width target address =>
    some (machine.setRegister target width (machine.locate address % width.modulus))
  | .unary op width target => do
    let a ← machine.readPlace? width target
    match op with
    | .increment =>
      let (result, flags) := sum width a 1 0
      { machine with flags := { flags with carry := machine.flags.carry } }.writePlace? width target result
    | .decrement =>
      let (result, flags) := difference width a 1 0
      { machine with flags := { flags with carry := machine.flags.carry } }.writePlace? width target result
    | .complement => machine.writePlace? width target (width.modulus - 1 - a)
    | .negate =>
      let (result, flags) := difference width 0 a 0
      { machine with flags := flags }.writePlace? width target result
  | .shift op width target count => do
    let a ← machine.readPlace? width target
    let n := (← machine.readOperand? .byte count) % (if width = .quad then 64 else 32)
    if n = 0 then return machine
    else
      let result := shifted op width a n
      let flags := flagsOf width result (shiftedOut op width a n) false
      { machine with flags := flags }.writePlace? width target result
  | .multiply width target left right => do
    let a := signed width (← machine.readPlace? width left)
    let b := signed width (← machine.readOperand? width right)
    let result := wrap width (a * b)
    let lost : Bool := signed width result ≠ a * b
    return { machine with flags := flagsOf width result lost lost }.setRegister target width result
  | .exchange width target r => do
    let a ← machine.readPlace? width target
    let b := machine.register r % width.modulus
    let stored ← machine.writePlace? width target b
    return stored.setRegister r width a
  | .push source => do machine.push? (← machine.readOperand? .quad source)
  | .pop target => do
    let (value, popped) ← machine.pop?
    popped.writePlace? .quad target value
  | .leave => do
    let frame := machine.register Register.framePointer
    let (value, popped) ← (machine.setRegister Register.stackPointer .quad frame).pop?
    return popped.setRegister Register.framePointer .quad value
  | .jump distance => some (machine.goto (machine.ahead distance))
  | .jumpIf condition distance =>
    some (if holds machine.flags condition then machine.goto (machine.ahead distance) else machine)
  | .jumpTo target => do return machine.goto (← machine.readPlace? .quad target)
  | .call distance => do
    let pushed ← machine.push? machine.next
    return pushed.goto (machine.ahead distance)
  | .callTo target => do
    let address ← machine.readPlace? .quad target
    let pushed ← machine.push? machine.next
    return pushed.goto address
  | .ret => do
    let (address, popped) ← machine.pop?
    return popped.goto address
  | .setIf condition target =>
    machine.writePlace? .byte target (holds machine.flags condition).toNat
  | .moveIf condition width target source => do
    let value ← machine.readPlace? width source
    let old := machine.register target % width.modulus
    return machine.setRegister target width (if holds machine.flags condition then value else old)
  | .widenAccumulator width =>
    let half : Width := match width with
      | .quad => .double
      | .double => .word
      | _ => .byte
    let value := machine.register Register.accumulator % half.modulus
    some (machine.setRegister Register.accumulator width (wrap width (signed half value)))
  | .spreadSign width =>
    let value := machine.register Register.accumulator % width.modulus
    let sign := if width.modulus ≤ 2 * value then width.modulus - 1 else 0
    some (machine.setRegister Register.data width sign)
  | .systemCall => some machine.systemCall
  | .nothing => some machine

/-! ## Calls -/

/-- The longest instruction, in bytes. -/
def longestInstruction : Nat := 15

/-- Fetches, decodes and executes one instruction. -/
def step? (machine : Machine) : Option Machine :=
  (decode (machine.memory.bytesFrom longestInstruction machine.next)).bind fun (instruction, length) =>
    { machine with next := machine.next + length }.execute? instruction

/-- Runs instructions until the given address is reached, the machine halts, or the budget is
spent. -/
def run (final : Nat) : (budget : Nat) → Machine → Machine
  | 0, machine => machine
  | budget + 1, machine =>
    if machine.next = final then machine
    else
      match machine.step? with
      | none => machine
      | some after => run final budget after

/-- How many instructions one call may take. -/
def budget : Nat := 16000000

/-- Where the argument strings and the pointers to them are. -/
def argumentBase : Nat := 0x7E0000000000

/-- Where the stack starts, and its size. -/
def stackBase : Nat := 0x7FFF00000000

/-- The size of the stack. -/
def stackSize : Nat := 16384

/-- The address to which the function returns. -/
def returnAddress : Nat := 0x7D0000000000

/-- Calls a function in some memory with an argument block: the value it returns, and the
surroundings afterwards. -/
def callFunction (memory : Memory) (function : Nat) (block : ArgumentBlock) (world : World) :
    Nat × World :=
  let pointersBase := argumentBase + 0x1000000000
  let pointers := block.pointers.flatMap fun pointer =>
    bytesOfNumber 8 (match pointer with
      | some start => argumentBase + start
      | none => 0)
  let top := stackBase + stackSize - 4096 - 8
  let machine : Machine :=
    { registers := Vector.replicate 16 0
      next := function
      memory := memory
        |>.map ⟨argumentBase, block.memory.length, block.memory.toArray, true⟩
        |>.map ⟨pointersBase, pointers.length, pointers.toArray, true⟩
        |>.map ⟨stackBase, stackSize, Array.replicate stackSize 0, true⟩
      world := world }
  let started :=
    machine.setRegister Register.destination .quad block.count
      |>.setRegister Register.source .quad pointersBase
      |>.setRegister Register.stackPointer .quad (top + 8)
  let ended := match started.push? returnAddress with
    | some entered => run returnAddress budget entered
    | none => started
  (ended.register Register.accumulator, ended.world)

end Machine

end Processor

end NativeLaunch
