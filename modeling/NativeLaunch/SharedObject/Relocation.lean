import NativeLaunch.SharedObject.Symbol

/-!
# Relocations

Places of a shared object whose content depends on where it and others are loaded.  Each relocation
names a place, a kind, a symbol and a number to be added.  Unless the object asks for all at once,
calls to other functions are bound when they are first made, so their places are only moved with the
object; every other symbol has to be found, unless it is weak.  This file defines:

* `Relocation` and its kinds;
* `SharedObject.relocationTarget?` — what a relocation's symbol stands for;
* `SharedObject.relocated?` — the object with its relocations performed.
-/

namespace NativeLaunch

namespace SharedObject

/-- An entry of a relocation table. -/
structure Relocation where
  place : Nat
  kind : Nat
  symbol : Nat
  addend : Nat
deriving DecidableEq, Repr

namespace Relocation

/-- The kinds of relocations. -/
inductive Kind
  | nothing
  /-- The address of a symbol with the addend, in some bytes. -/
  | sum (width : Nat)
  /-- The size of a symbol with the addend, in some bytes. -/
  | size (width : Nat)
  /-- The address of a symbol with the addend, counted from the place, in four bytes. -/
  | distance
  /-- The content of a symbol. -/
  | copy
  /-- The address of a symbol alone. -/
  | address
  /-- The address of a function to be called. -/
  | jump
  /-- The addend moved with the object. -/
  | relative
  /-- Something about a variable of which each thread has one. -/
  | threadLocal
  /-- How to reach such a variable. -/
  | descriptor
  /-- What a function of the object returns. -/
  | computed
deriving DecidableEq, Repr

namespace Kind

/-- The kind with a number. -/
def ofNumber? : Nat → Option Kind
  | 0 => some .nothing
  | 1 => some (.sum 8)
  | 2 => some .distance
  | 5 => some .copy
  | 6 => some .address
  | 7 => some .jump
  | 8 => some .relative
  | 10 => some (.sum 4)
  | 16 => some .threadLocal
  | 17 => some .threadLocal
  | 18 => some .threadLocal
  | 32 => some (.size 4)
  | 33 => some (.size 8)
  | 36 => some .descriptor
  | 37 => some .computed
  | 38 => some .relative
  | _ => none

/-- Whether a symbol counts for relocations of a kind: for some it has to have a home. -/
def admits (kind : Kind) (symbol : Symbol) : Bool :=
  match kind with
  | .jump | .threadLocal | .descriptor => symbol.hasHome
  | _ => true

end Kind

/-- Reads the relocation at an address. -/
def read? (memory : Memory) (address : Nat) : Option Relocation := do
  let info ← memory.numberAt? (address + 8) 8
  return {
    place := ← memory.numberAt? address 8
    kind := info % 0x100000000
    symbol := info / 0x100000000
    addend := ← memory.numberAt? (address + 16) 8 }

/-- Reads a table of relocations. -/
def readTable? (memory : Memory) (address size : Nat) : Option (List Relocation) :=
  if memory.storedSize < size then none
  else (List.range (size / 24)).mapM fun i => read? memory (address + i * 24)

end Relocation

/-- The relocations of the main table. -/
def mainRelocations? (object : SharedObject) : Option (List Relocation) :=
  match object.tag? .relocations, object.tag? .relocationsSize with
  | some address, some size => Relocation.readTable? object.memory address size
  | _, _ => some []

/-- The relocations of calls.  They count only if the object tells their kind. -/
def jumpRelocations? (object : SharedObject) : Option (List Relocation) :=
  match object.tag? .jumpKind, object.tag? .jumpRelocations, object.tag? .jumpSize with
  | some _, some address, some size => Relocation.readTable? object.memory address size
  | _, _, _ => some []

/-! ## Targets -/

/-- What a relocation's symbol stands for. -/
structure Target where
  address : Nat
  size : Nat
deriving DecidableEq, Repr

/-- What a weak symbol stands for that is nowhere to be found. -/
def Target.absent : Target := ⟨0, 0⟩

/-- A symbol of an object as a target. -/
def targetOf (object : SharedObject) (symbol : Symbol) : Target :=
  ⟨object.addressOf symbol, symbol.size⟩

/-- What a relocation's symbol stands for.  A local or hidden entry stands for itself, any other for
what its name leads to among all that is loaded. -/
def relocationTarget? (object : SharedObject) (lookup : (Symbol → Bool) → Bytes → Option Target)
    (kind : Relocation.Kind) (index : Nat) : Option Target :=
  (object.symbolAt? index).bind fun symbol =>
    if symbol.binding = 0 || !symbol.isVisible then some (object.targetOf symbol)
    else
      match lookup kind.admits (object.stringAt symbol.nameOffset) with
      | some target => some target
      | none => if symbol.binding = 2 then some Target.absent else none

/-! ## Performing relocations -/

/-- Puts bytes into the memory of an object. -/
def fill? (object : SharedObject) (place : Nat) (bytes : Bytes) : Option SharedObject :=
  (object.memory.fill? place bytes).map fun memory =>
    { object with image := { object.image with memory := memory } }

/-- Puts a number of some bytes into the memory of an object. -/
def fillNumber? (object : SharedObject) (place width value : Nat) : Option SharedObject :=
  object.fill? place (bytesOfNumber width value)

/-- Performs a relocation of a kind.  Nothing here has threads, so that the places for thread-local
variables stay as they are, and so do those for results of functions. -/
def relocateAs? (object : SharedObject) (lookup : (Symbol → Bool) → Bytes → Option Target)
    (relocation : Relocation) (kind : Relocation.Kind) : Option SharedObject :=
  let place := relocation.place
  let addend := relocation.addend
  let target? := object.relocationTarget? lookup kind relocation.symbol
  match kind with
  | .nothing => some object
  | .relative => object.fillNumber? place 8 (object.base + addend)
  | .address | .jump => target?.bind fun target => object.fillNumber? place 8 target.address
  | .sum width => target?.bind fun target => object.fillNumber? place width (target.address + addend)
  | .size width => target?.bind fun target => object.fillNumber? place width (target.size + addend)
  | .distance => target?.bind fun target =>
    object.fillNumber? place 4 (target.address + addend + (1 <<< 64) - (object.base + place))
  | .copy => target?.bind fun target =>
    let size := min target.size object.memory.storedSize
    object.fill? place (object.memory.bytesFrom size (target.address - object.base))
  | .threadLocal | .descriptor | .computed => target?.map fun _ => object

/-- Performs a relocation of the main table. -/
def relocate? (lookup : (Symbol → Bool) → Bytes → Option Target) (object : SharedObject)
    (relocation : Relocation) : Option SharedObject :=
  (Relocation.Kind.ofNumber? relocation.kind).bind (object.relocateAs? lookup relocation)

/-- Performs a relocation of a call that is bound when it is first made: its place is moved with the
object.  Few other kinds can stand with these. -/
def relocateLate? (lookup : (Symbol → Bool) → Bytes → Option Target) (object : SharedObject)
    (relocation : Relocation) : Option SharedObject :=
  match Relocation.Kind.ofNumber? relocation.kind with
  | some .jump =>
    (object.memory.numberAt? relocation.place 8).bind fun old =>
      object.fillNumber? relocation.place 8 (object.base + old)
  | some .descriptor => object.relocateAs? lookup relocation .descriptor
  | some .computed => some object
  | _ => none

/-- The object with all its relocations performed, when `lookup` says what names lead to. -/
def relocated? (object : SharedObject) (lookup : (Symbol → Bool) → Bytes → Option Target) :
    Option SharedObject :=
  object.mainRelocations?.bind fun main =>
    object.jumpRelocations?.bind fun jumps =>
      (main.foldlM (relocate? lookup) object).bind fun moved =>
        jumps.foldlM (if object.dynamic.bindsNow then relocate? lookup else relocateLate? lookup) moved

end SharedObject

end NativeLaunch
