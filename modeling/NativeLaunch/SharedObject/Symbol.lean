import NativeLaunch.SharedObject.Dynamic

/-!
# Symbols

Looking up a name in a shared object.  The object has one of two hash tables; a table leads to a
chain of entries that may have the name.  The first entry of the chain that defines it decides; an
entry that belongs to a later version of the name only counts if it is the only one.  This file
defines:

* `Symbol` and what makes it a definition;
* `SharedObject.chain`, the entries that a table has for a name;
* `SharedObject.symbol?`, the symbol that a name leads to from outside, and the address it has.
-/

namespace NativeLaunch

namespace SharedObject

/-- An entry of a symbol table. -/
structure Symbol where
  nameOffset : Nat
  binding : Nat
  kind : Nat
  visibility : Nat
  home : Nat
  value : Nat
  size : Nat
deriving DecidableEq, Repr

namespace Symbol

/-- The home of symbols whose value is no place in the object. -/
def absolute : Nat := 0xFFF1

/-- Whether the symbol has a home, in the object or outside. -/
def hasHome (symbol : Symbol) : Bool := symbol.home ≠ 0

/-- The kind of variables of which each thread has one. -/
def threadLocal : Nat := 6

/-- The kinds of code and data. -/
def kinds : List Nat := [0, 1, 2, 5, threadLocal, 10]

/-- Whether the entry defines its name as code or data. -/
def isDefinition (symbol : Symbol) : Bool :=
  (symbol.value ≠ 0 || symbol.home = absolute || symbol.kind = threadLocal) &&
    kinds.contains symbol.kind

/-- Whether names may lead to the symbol from outside: it is neither hidden nor internal. -/
def isVisible (symbol : Symbol) : Bool := symbol.visibility = 0 || symbol.visibility = 3

/-- Whether the symbol is seen from outside: global, weak or unique, and visible. -/
def isExported (symbol : Symbol) : Bool :=
  [1, 2, 10].contains symbol.binding && symbol.isVisible

end Symbol

/-- The entry of the symbol table at an index. -/
def symbolAt? (object : SharedObject) (index : Nat) : Option Symbol := do
  let table ← object.tag? .symbolTable
  let entry := table + index * 24
  let info ← object.memory.numberAt? (entry + 4) 1
  let other ← object.memory.numberAt? (entry + 5) 1
  return {
    nameOffset := ← object.memory.numberAt? entry 4
    binding := info / 16
    kind := info % 16
    visibility := other % 4
    home := ← object.memory.numberAt? (entry + 6) 2
    value := ← object.memory.numberAt? (entry + 8) 8
    size := ← object.memory.numberAt? (entry + 16) 8 }

/-- Whether the text at an address is a name and its closing zero. -/
def isNameAt (object : SharedObject) (address : Nat) : Bytes → Bool
  | [] => object.memory.byteAt? address = some 0
  | b :: rest => object.memory.byteAt? address = some b && object.isNameAt (address + 1) rest

/-- Whether a symbol has a name. -/
def hasName (object : SharedObject) (name : Bytes) (symbol : Symbol) : Bool :=
  (object.tag? .stringTable).any fun strings => object.isNameAt (strings + symbol.nameOffset) name

/-! ## Hash tables -/

/-- The hash of a name for the plain table. -/
def hashName (name : Bytes) : Nat :=
  name.foldl (fun h b =>
    let shifted := h * 16 + b.toNat
    let high := shifted / 0x10000000 % 16
    (shifted ^^^ (high * 16)) % 0x10000000) 0

/-- The hash of a name for the table with a filter. -/
def hashFiltered (name : Bytes) : Nat :=
  name.foldl (fun h b => (h * 33 + b.toNat) % 0x100000000) 5381

/-- The chain of the plain table from an index on; index zero ends it. -/
def plainChain (memory : Memory) (links : Nat) : (limit : Nat) → (index : Nat) → List Nat
  | 0, _ => []
  | limit + 1, index =>
    if index = 0 then []
    else
      match memory.numberAt? (links + index * 4) 4 with
      | none => [index]
      | some next => index :: plainChain memory links limit next

/-- The indices that the plain table has for a name. -/
def plainIndices (memory : Memory) (table : Nat) (name : Bytes) : List Nat :=
  match memory.numberAt? table 4 with
  | none => []
  | some buckets =>
    if buckets = 0 then []
    else
      let first := memory.numberAt? (table + 8 + hashName name % buckets * 4) 4
      plainChain memory (table + 8 + buckets * 4) (memory.storedSize / 4 + 1) (first.getD 0)

/-- The chain of the table with a filter from an index on: entries keep the hash of their names, and
the lowest bit of the last one is set.  `place` says where the hash of an entry is kept. -/
def filteredChain (memory : Memory) (place : Nat → Nat) (hash : Nat) :
    (limit : Nat) → (index : Nat) → List Nat
  | 0, _ => []
  | limit + 1, index =>
    match memory.numberAt? (place index) 4 with
    | none => []
    | some kept =>
      let rest := if kept % 2 = 1 then [] else filteredChain memory place hash limit (index + 1)
      if kept / 2 = hash / 2 then index :: rest else rest

/-- Whether a word of a filter admits a hash: two of its bits have to be set. -/
def admitsHash (word shift hash : Nat) : Bool :=
  (word >>> (hash % 64)) % 2 = 1 && (word >>> ((hash >>> (shift % 32)) % 64)) % 2 = 1

/-- The indices that the table with a filter has for a name. -/
def filteredIndices (memory : Memory) (table : Nat) (name : Bytes) : List Nat :=
  let hash := hashFiltered name
  let found : Option (List Nat) := do
    let buckets ← memory.numberAt? table 4
    let firstIndex ← memory.numberAt? (table + 4) 4
    let words ← memory.numberAt? (table + 8) 4
    let shift ← memory.numberAt? (table + 12) 4
    if buckets = 0 || words = 0 then none
    else
      let word ← memory.numberAt? (table + 16 + hash / 64 % words * 8) 8
      let bucketPlace := table + 16 + words * 8
      let first ← memory.numberAt? (bucketPlace + hash % buckets * 4) 4
      if first = 0 || !admitsHash word shift hash then none
      else
        let place (index : Nat) : Nat := bucketPlace + buckets * 4 + index * 4 - firstIndex * 4
        return filteredChain memory place hash (memory.storedSize / 4 + 1) first
  found.getD []

/-- The indices of the entries that may have a name, in the order in which they are looked at.  The
table with a filter comes before the plain one. -/
def chain (object : SharedObject) (name : Bytes) : List Nat :=
  match object.tag? .nameHash, object.tag? .hash with
  | some table, _ => filteredIndices object.memory table name
  | none, some table => plainIndices object.memory table name
  | none, none => []

/-! ## Lookup -/

/-- Which version of its name an entry is. -/
inductive Edition
  /-- The base version. -/
  | base
  /-- A later version that names without a version may lead to. -/
  | later
  /-- A later version for names with that version only. -/
  | concealed
deriving DecidableEq, Repr

/-- The table of the versions of symbols.  It counts only in an object that defines versions or
needs some. -/
def versionTable? (object : SharedObject) : Option Nat :=
  if (object.tag? .versionsDefined).isSome || (object.tag? .versionsNeeded).isSome then
    object.tag? .symbolVersions
  else none

/-- The edition of the entry at an index. -/
def edition (object : SharedObject) (index : Nat) : Edition :=
  match object.versionTable? with
  | none => .base
  | some table =>
    let number := (object.memory.numberAt? (table + index * 2) 2).getD 0
    if number % 0x8000 < 2 then .base
    else if number < 0x8000 then .later
    else .concealed

/-- The symbol that a name leads to from outside, when only some symbols count. -/
def symbolAmong? (object : SharedObject) (counts : Symbol → Bool) (name : Bytes) : Option Symbol :=
  let definitions : List (Edition × Symbol) := (object.chain name).filterMap fun index =>
    (object.symbolAt? index).bind fun symbol =>
      if counts symbol && symbol.isDefinition && object.hasName name symbol then
        some (object.edition index, symbol)
      else none
  let ofEdition (edition : Edition) : List Symbol :=
    (definitions.filter (·.1 = edition)).map (·.2)
  let deciding : Option Symbol := match ofEdition .base, ofEdition .later with
    | symbol :: _, _ => some symbol
    | [], [only] => some only
    | [], _ => none
  deciding.filter Symbol.isExported

/-- The symbol that a name leads to from outside. -/
def symbol? (object : SharedObject) (name : Bytes) : Option Symbol :=
  object.symbolAmong? (fun _ => true) name

/-- The address that a symbol of an object stands for. -/
def addressOf (object : SharedObject) (symbol : Symbol) : Nat :=
  if symbol.home = Symbol.absolute then symbol.value else object.base + symbol.value

end SharedObject

end NativeLaunch
