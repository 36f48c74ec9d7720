import NativeLaunch.SharedObject.Header

/-!
# Images of shared objects

The segments of a file as they are mapped, page by page.  A page holds what the file holds there,
also before and after the segment proper; only where a segment is longer in memory than in the file
its end is filled with zeros.  Addresses are counted from the place at which the object is loaded.
This file defines:

* `Segment.fileMapping` and `Segment.zeroMapping`, the two parts of a mapped segment;
* `Image` and `Image.ofSegments?` — the memory of an object, if there is room for it.
-/

namespace NativeLaunch

namespace SharedObject

namespace Segment

/-- Whether a segment lies in its page as in the file. -/
def isAligned (segment : Segment) : Bool :=
  segment.address % Memory.pageSize = segment.fileOffset % Memory.pageSize

/-- The pages of a segment that the file has a part of, up to an address.  Pages behind the end of
the file cannot be reached. -/
def fileMapping (file : Array UInt8) (stop : Nat) (segment : Segment) : Mapping :=
  let start := segment.pagesStart
  let offset := Memory.pageDown segment.fileOffset
  let bytes := file.extract offset (offset + (stop - start))
  let zerosStop := min segment.pagesStop segment.stop
  { address := start
    size := min (stop - start) (Memory.pageUp bytes.size)
    bytes := bytes.mapIdx fun i b =>
      if segment.fileStop ≤ start + i && start + i < zerosStop then 0 else b
    writable := segment.isWritable }

/-- The pages of a segment behind those that the file has a part of. -/
def zeroMapping (segment : Segment) : Mapping :=
  { address := segment.pagesStop
    size := Memory.pageUp segment.stop - segment.pagesStop
    bytes := #[]
    writable := segment.isWritable }

end Segment

/-- A mapped object: its memory, the range of addresses taken for it, and how far other mapped memory
goes on behind it. -/
structure Image where
  memory : Memory
  start : Nat
  stop : Nat
  mappedBehind : Nat
deriving Repr

namespace Image

/-- The size at which a stretch of addresses is not to be found any more. -/
def addressLimit : Nat := 0x555500000000

/-- The size at which writable memory is not granted. -/
def writableLimit : Nat := 1 <<< 35

/-- The greatest alignment asked for; one that is no power of two does not count. -/
def alignment (loads : List Segment) : Nat :=
  loads.foldl
    (fun most segment =>
      if segment.alignment &&& (segment.alignment - 1) = 0 then max most segment.alignment else most)
    0

/-- How much address space is taken for some length: with an alignment beyond pages, enough to hold
an aligned stretch. -/
def reserved (length alignment : Nat) : Nat :=
  if alignment ≤ Memory.pageSize then length
  else if alignment ≤ length then length + alignment
  else 2 * alignment

/-- Whether a page range follows upon the one before without a gap, from first to last. -/
def isContiguous : List Segment → Bool
  | first :: second :: rest =>
    first.pagesStop = second.pagesStart && isContiguous (second :: rest)
  | _ => true

/-- Whether more is taken for an object than it uses, as an alignment beyond pages has it; the rest
behind the object is free again. -/
def hasSlack (loads : List Segment) : Bool := Memory.pageSize < alignment loads

/-- How far a segment may reach behind the addresses taken for an object, where other memory is that
cannot be replaced. -/
def roomBehind (loads : List Segment) : Nat :=
  if hasSlack loads then alignment loads else 2 * Memory.pageSize

/-- How far other mapped memory goes on behind an object. -/
def mappedAfter (loads : List Segment) : Nat := if hasSlack loads then 0 else 0x100000

/-- Whether the memory that a segment asks for is granted, when it may reach up to some stop. -/
def isGranted (stop : Nat) (segment : Segment) : Bool :=
  let size := max segment.fileSize segment.memorySize
  segment.fileOffset < 1 <<< 63 && (!segment.isWritable || size < writableLimit) &&
    Memory.pageUp (segment.address + size) ≤ stop

/-- Maps segments in their order.  All lie in the stretch that is taken for the range from the first
one to the last one; if there are gaps, the last one must not begin inside the first. -/
def ofSegments? (file : Array UInt8) (loads : List Segment) : Option Image :=
  match loads, loads.getLast? with
  | first :: others, some last =>
    let start := first.pagesStart
    let length := last.stop - start
    if length = 0 || addressLimit ≤ reserved length (alignment loads) then none
    else if !loads.all Segment.isAligned ||
        !loads.all (isGranted (Memory.pageUp last.stop + roomBehind loads)) then none
    else if !isContiguous loads && last.pagesStart < first.pagesStop then none
    else
      let firstStop := min first.pagesStop (start + Memory.pageUp length)
      let opened := ({} : Memory).map (first.fileMapping file firstStop) |>.map first.zeroMapping
      let memory := others.foldl
        (fun memory segment =>
          memory.map (segment.fileMapping file segment.pagesStop) |>.map segment.zeroMapping)
        opened
      some ⟨memory, start, start + Memory.pageUp length, mappedAfter loads⟩
  | _, _ => none

/-- Whether a segment that is to be read-only covers no page, or none outside mapped memory. -/
def admitsSealed (image : Image) (segment : Segment) : Bool :=
  let start := segment.pagesStart
  let stop := Memory.pageDown segment.stop
  start = stop || (image.start ≤ start && start < stop && stop ≤ image.stop + image.mappedBehind)

end Image

end SharedObject

end NativeLaunch
