import NativeLaunch.Text.Utf8

/-!
# Memory

An address space in which stretches of bytes are mapped.  This file defines:

* `Mapping` — bytes at an address, with zeros after them;
* `Memory` — mappings that do not overlap: mapping a stretch takes the place of what was there;
* reading and writing, where every byte has to be mapped, and for writing be writable.
-/

namespace NativeLaunch

/-- The little-endian number of some bytes. -/
def littleEndian : Bytes → Nat
  | [] => 0
  | b :: rest => b.toNat + 256 * littleEndian rest

/-- A stretch of mapped memory: some bytes, and zeros up to its size. -/
structure Mapping where
  address : Nat
  size : Nat
  bytes : Array UInt8
  writable : Bool
deriving Repr

namespace Mapping

/-- The first address after a mapping. -/
def stop (m : Mapping) : Nat := m.address + m.size

/-- Whether an address is mapped. -/
def contains (m : Mapping) (address : Nat) : Bool := m.address ≤ address && address < m.stop

/-- The byte at an address of the mapping. -/
def byteAt (m : Mapping) (address : Nat) : UInt8 := m.bytes.getD (address - m.address) 0

/-- The part of a mapping between two addresses. -/
def slice (m : Mapping) (start stop : Nat) : Mapping :=
  let first := max start m.address
  let last := min stop m.stop
  { m with
    address := first
    size := last - first
    bytes := m.bytes.extract (first - m.address) (last - m.address) }

/-- How many of the addresses between two are mapped. -/
def overlap (m : Mapping) (start stop : Nat) : Nat := min stop m.stop - max start m.address

/-- Sets a byte of an array, with zeros before it if the array ends earlier. -/
def setByte (bytes : Array UInt8) (index : Nat) (b : UInt8) : Array UInt8 :=
  if index < bytes.size then bytes.setIfInBounds index b
  else (bytes ++ Array.replicate (index - bytes.size) 0).push b

/-- Stores bytes from an address on, as far as the mapping reaches. -/
def store (m : Mapping) (address : Nat) (stored : Bytes) : Mapping :=
  { m with
    bytes := (stored.zipIdx address).foldl
      (fun bytes (b, place) => if m.contains place then setByte bytes (place - m.address) b else bytes)
      m.bytes }

end Mapping

/-- An address space.  Its mappings do not overlap. -/
structure Memory where
  mappings : List Mapping := []
deriving Repr

namespace Memory

/-! ## Pages -/

/-- The size of a page. -/
def pageSize : Nat := 4096

/-- The start of the page that holds an address. -/
def pageDown (address : Nat) : Nat := address / pageSize * pageSize

/-- The first start of a page that is not before an address. -/
def pageUp (address : Nat) : Nat := pageDown (address + (pageSize - 1))

/-! ## Mapping -/

/-- Takes away what is mapped between two addresses. -/
def unmap (start stop : Nat) (memory : Memory) : Memory :=
  ⟨memory.mappings.flatMap fun m =>
    [m.slice m.address start, m.slice stop m.stop].filter (·.size ≠ 0)⟩

/-- Maps a stretch in place of what is there. -/
def map (m : Mapping) (memory : Memory) : Memory :=
  if m.size = 0 then memory else ⟨m :: (memory.unmap m.address m.stop).mappings⟩

/-- The memory with all addresses moved up. -/
def shift (distance : Nat) (memory : Memory) : Memory :=
  ⟨memory.mappings.map fun m => { m with address := m.address + distance }⟩

/-- How many bytes are kept; zeros after a mapping's bytes do not count. -/
def storedSize (memory : Memory) : Nat :=
  memory.mappings.foldl (fun sum m => sum + m.bytes.size) 0

/-! ## Reading and writing -/

/-- The byte at an address. -/
def byteAt? (memory : Memory) (address : Nat) : Option UInt8 :=
  (memory.mappings.find? (·.contains address)).map (·.byteAt address)

/-- The number in a field at an address. -/
def numberAt? (memory : Memory) (address width : Nat) : Option Nat :=
  ((List.range width).mapM fun i => memory.byteAt? (address + i)).map littleEndian

/-- Some bytes from an address on; fewer if the memory ends. -/
def bytesFrom (memory : Memory) : (count : Nat) → (address : Nat) → Bytes
  | 0, _ => []
  | count + 1, address =>
    match memory.byteAt? address with
    | none => []
    | some b => b :: memory.bytesFrom count (address + 1)

/-- The text at an address, up to its zero byte or a limit. -/
def textAt (memory : Memory) : (limit : Nat) → (address : Nat) → Bytes
  | 0, _ => []
  | limit + 1, address =>
    match memory.byteAt? address with
    | none => []
    | some b => if b = 0 then [] else b :: memory.textAt limit (address + 1)

/-- Stores bytes from an address on, if all of them lie in mappings that admit it. -/
def store? (memory : Memory) (admits : Mapping → Bool) (address : Nat) (bytes : Bytes) :
    Option Memory :=
  let stop := address + bytes.length
  let reached := memory.mappings.foldl
    (fun sum m => if admits m then sum + m.overlap address stop else sum) 0
  if reached = bytes.length then
    some ⟨memory.mappings.map fun m =>
      if m.overlap address stop = 0 then m else m.store address bytes⟩
  else none

/-- Writes bytes from an address on, if all of them lie in writable memory. -/
def write? (memory : Memory) (address : Nat) (bytes : Bytes) : Option Memory :=
  memory.store? (·.writable) address bytes

/-- Puts bytes at an address whether or not its memory is writable, if all of it is mapped. -/
def fill? (memory : Memory) (address : Nat) (bytes : Bytes) : Option Memory :=
  memory.store? (fun _ => true) address bytes

end Memory

/-- The bytes of a number, least first. -/
def bytesOfNumber : (count : Nat) → Nat → Bytes
  | 0, _ => []
  | count + 1, value => UInt8.ofNat value :: bytesOfNumber count (value / 256)

end NativeLaunch
