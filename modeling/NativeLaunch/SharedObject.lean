import NativeLaunch.SharedObject.Relocation

/-!
# Shared objects

From a file to the shared object that a loader makes of it: the headers are checked, the segments
mapped and the dynamic section read.  A file that fails any of this is refused.  Relocations come
later, when all that the object needs is there.
-/

namespace NativeLaunch

namespace SharedObject

/-- The shared object in a file, to be loaded at some address; nothing if a loader would refuse it. -/
def ofFile? (base : Nat) (content : Bytes) : Option SharedObject :=
  let file := content.toArray
  (Header.read? file).bind fun header =>
    (header.segments? file).bind fun segments =>
      (dynamicAddress? segments).bind fun address =>
        (Image.ofSegments? file (segments.filter (·.kind = Segment.load))).bind fun image =>
          let object : SharedObject := ⟨base, image, Dynamic.read image.memory address⟩
          let sealed := (segments.filter (·.kind = Segment.sealed)).getLast?
          if object.dynamic.mayBeOpened && object.hasKnownVersions &&
              sealed.all image.admitsSealed then
            some object
          else none

end SharedObject

end NativeLaunch
