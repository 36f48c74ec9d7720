import NativeLaunch.Launch
import NativeLaunch.Proofs.Launch.Arguments
import NativeLaunch.Proofs.Text.Utf8

/-!
# Arguments as native code reads them

Native code is told a count and given a list of pointers; it takes as many of them as the count says and
reads the string behind each up to its first zero byte.  Nothing but the count keeps it inside the list,
and nothing but the zeros keeps it inside the strings.  This file defines:

* `ArgumentBlock.read?` — such a reader, which fails where native code would leave the block;
* `Invocation.assembled` and `Invocation.given` — an invocation as callers build it, and the arguments in
  the order in which they gave them;
* `Invocation.Conveys` — the reader gets these arguments and no others, or the call is refused for the
  first of them that holds a zero byte.

An argument is looked at as the bytes of its text in the standard library's UTF-8.
-/

namespace NativeLaunch

/-- The bytes of a text. -/
def octets (text : String) : Bytes := text.toUTF8.data.toList

theorem octets_eq : octets = Utf8.encode := funext Utf8.toList_toUTF8

/-! ## The reader -/

namespace ArgumentBlock

/-- The count as native code is told it: 32 bits, one of them the sign. -/
def nativeCount (block : ArgumentBlock) : Int32 := Int32.ofNat block.count

/-- The string at a place.  Without a zero byte after it there is no end to it in the block. -/
def readString? (block : ArgumentBlock) (start : Nat) : Option Bytes :=
  if 0 ∈ block.memory.drop start then some (block.stringAt start) else none

/-- The strings behind so many pointers.  There is none behind the null pointer, nor behind a pointer
after the last. -/
def readPointers? (block : ArgumentBlock) : (count : Nat) → List (Option Nat) → Option (List Bytes)
  | 0, _ => some []
  | count + 1, some start :: pointers =>
    match block.readString? start, block.readPointers? count pointers with
    | some text, some texts => some (text :: texts)
    | _, _ => none
  | _ + 1, _ => none

/-- What is read by one who takes as many pointers as the count says. -/
def read? (block : ArgumentBlock) : Option (List Bytes) :=
  block.readPointers? block.nativeCount.toInt.toNat block.pointers

theorem Holds.readString?_eq {block : ArgumentBlock} {start : Nat} {text : Bytes}
    (h : block.Holds start text) (hzero : 0 ∉ text) : block.readString? start = some text := by
  have hends : 0 ∈ block.memory.drop start := by
    rcases h with ⟨before, after, rfl, hmemory⟩
    rw [hmemory, List.drop_left]
    simp
  rw [readString?, if_pos hends, h.stringAt_eq hzero]

/-- Whoever reads as many strings as there are pointers to them reads these. -/
theorem readPointers?_of_holds {block : ArgumentBlock} {starts : List Nat} {strings : List Bytes}
    (h : List.Forall₂ block.Holds starts strings) (hzero : ∀ text ∈ strings, 0 ∉ text)
    (after : List (Option Nat)) :
    block.readPointers? strings.length (starts.map some ++ after) = some strings := by
  induction h with
  | nil =>
      rfl
  | cons hfirst _ ih =>
      have hrest := ih fun other hother => hzero other (List.mem_cons_of_mem _ hother)
      rw [List.length_cons, List.map_cons, List.cons_append, readPointers?,
        hfirst.readString?_eq (hzero _ List.mem_cons_self), hrest]

section OfStrings

variable {strings : List Bytes}

theorem count_ofStrings : (ofStrings strings).count = strings.length := by
  rcases exists_starts_ofStrings strings with ⟨starts, hpointers, hlength, _⟩
  simp [count, hpointers, hlength]

/-- The null pointer stands right after the pointers to the strings. -/
theorem null_ofStrings : (ofStrings strings).pointers[strings.length]? = some none := by
  rcases exists_starts_ofStrings strings with ⟨starts, hpointers, hlength, _⟩
  simp [hpointers, ← hlength]

/-- A number of strings below the limit is told as it is. -/
theorem nativeCount_ofStrings (hcount : strings.length < countLimit) :
    (ofStrings strings).nativeCount.toInt = strings.length := by
  rw [nativeCount, count_ofStrings]
  exact Int32.toInt_ofNat_of_lt hcount

theorem read?_ofStrings (hzero : ∀ text ∈ strings, 0 ∉ text) (hcount : strings.length < countLimit) :
    (ofStrings strings).read? = some strings := by
  rcases exists_starts_ofStrings strings with ⟨starts, hpointers, _, hholds⟩
  rw [read?, nativeCount_ofStrings hcount, Int.toNat_natCast, hpointers]
  exact readPointers?_of_holds hholds hzero [none]

end OfStrings

end ArgumentBlock

/-! ## Invocations as they are built -/

namespace Invocation

/-- An invocation under a program name or the default one, with more arguments added in some calls. -/
def assembled (programName? : Option String) (config : Path) (extras : List (List String)) :
    Invocation :=
  extras.foldl addExtra
    (match programName? with
      | some name => withProgramName name config
      | none => forConfig config)

/-- The arguments that were given for it, in order. -/
def given (programName? : Option String) (config : Path) (extras : List (List String)) :
    List String :=
  programName?.getD "limbo_bridge" :: "--config" :: Utf8.decodeLossy config.bytes :: extras.flatten

theorem arguments_foldl_addExtra (invocation : Invocation) (extras : List (List String)) :
    (extras.foldl addExtra invocation).arguments = invocation.arguments ++ extras.flatten := by
  induction extras generalizing invocation with
  | nil =>
      simp
  | cons more extras ih =>
      rw [List.foldl_cons, ih, List.flatten_cons]
      simp [arguments, addExtra]

theorem arguments_assembled (programName? : Option String) (config : Path)
    (extras : List (List String)) :
    (assembled programName? config extras).arguments = given programName? config extras := by
  unfold assembled
  rw [arguments_foldl_addExtra]
  cases programName? <;> rfl

/-! ## Refusals -/

/-- The first of some texts that holds a zero byte. -/
structure FirstZero (texts : List String) (index : Nat) : Prop where
  holds : ∃ text, texts[index]? = some text ∧ 0 ∈ octets text
  free : ∀ earlier < index, ∀ text, texts[earlier]? = some text → 0 ∉ octets text

theorem exists_firstZero {texts : List String} (hzero : ∃ text ∈ texts, 0 ∈ octets text) :
    ∃ index, FirstZero texts index := by
  induction texts with
  | nil =>
      rcases hzero with ⟨text, hmem, _⟩
      cases hmem
  | cons first rest ih =>
      by_cases hfirst : 0 ∈ octets first
      · exact ⟨0, ⟨first, rfl, hfirst⟩, fun earlier hearlier => absurd hearlier (Nat.not_lt_zero _)⟩
      · rcases hzero with ⟨text, hmem, htext⟩
        have hrest : ∃ text ∈ rest, 0 ∈ octets text := by
          rcases List.mem_cons.1 hmem with rfl | hlater
          · exact absurd htext hfirst
          · exact ⟨text, hlater, htext⟩
        rcases ih hrest with ⟨index, hindex⟩
        refine ⟨index + 1, hindex.holds, ?_⟩
        intro earlier hearlier text hat
        cases earlier with
        | zero =>
            cases hat
            exact hfirst
        | succ earlier =>
            exact hindex.free earlier (Nat.lt_of_succ_lt_succ hearlier) text hat

theorem marshal_of_firstZero {invocation : Invocation} {index : Nat}
    (h : FirstZero invocation.arguments index) :
    ArgumentBlock.marshal invocation = .error (.invalidArgument index) := by
  have hfound : (invocation.arguments.map Utf8.encode).findIdx? (·.contains 0) = some index := by
    rcases h.holds with ⟨text, hat, htext⟩
    rcases List.getElem?_eq_some_iff.1 hat with ⟨hlt, rfl⟩
    rw [List.findIdx?_eq_some_iff_getElem]
    refine ⟨by simpa using hlt, by simpa [octets_eq] using htext, ?_⟩
    intro earlier hearlier
    simpa [octets_eq] using
      h.free earlier hearlier _ (List.getElem?_eq_getElem (Nat.lt_trans hearlier hlt))
  rw [ArgumentBlock.marshal, hfound]

theorem marshal_of_free {invocation : Invocation}
    (hfree : ∀ text ∈ invocation.arguments, 0 ∉ octets text)
    (hcount : invocation.arguments.length < ArgumentBlock.countLimit) :
    ArgumentBlock.marshal invocation = .ok (.ofStrings (invocation.arguments.map octets)) := by
  have hnone : (invocation.arguments.map Utf8.encode).findIdx? (·.contains 0) = none := by
    rw [List.findIdx?_eq_none_iff]
    intro bytes hbytes
    rcases List.mem_map.1 hbytes with ⟨text, htext, rfl⟩
    simpa [octets_eq] using hfree text htext
  have hfew : (invocation.arguments.map Utf8.encode).length < ArgumentBlock.countLimit := by
    simpa using hcount
  simp only [ArgumentBlock.marshal, hnone, if_pos hfew, octets_eq]

/-! ## What is conveyed -/

/-- A call is refused for one of the arguments, whatever is to be called: nothing is loaded for it, and
nothing is called. -/
structure Refused (invocation : Invocation) (index : Nat) : Prop where
  marshal : ArgumentBlock.marshal invocation = .error (.invalidArgument index)
  call : ∀ {Library : Type} (loader : Loader Library) (library : Library) (path : Path)
    (world : World), loader.hasEntry library = true →
      world.callLoaded loader library path invocation = (.error (.invalidArgument index), world)
  invoke : ∀ {Library : Type} (loader : Loader Library) (path : Path) (world : World),
    world.invoke loader path invocation = (.error (.invalidArgument index), world)

/-- A call passes on a block, whatever is called. -/
structure Passes (invocation : Invocation) (block : ArgumentBlock) : Prop where
  marshal : ArgumentBlock.marshal invocation = .ok block
  call : ∀ {Library : Type} (loader : Loader Library) (library : Library) (path : Path)
    (world : World), loader.hasEntry library = true →
      world.callLoaded loader library path invocation =
        (.ok (world.callEntry loader library block).1, (world.callEntry loader library block).2)
  invoke : ∀ {Library : Type} (loader : Loader Library) (library : Library) (path : Path)
    (world : World), loader.load world path = some library → loader.hasEntry library = true →
      world.invoke loader path invocation =
        (.ok ((world.map path).callEntry loader library block).1,
          ((world.map path).callEntry loader library block).2)

theorem refused_of_marshal {invocation : Invocation} {index : Nat}
    (h : ArgumentBlock.marshal invocation = .error (.invalidArgument index)) :
    Refused invocation index := by
  refine ⟨h, ?_, ?_⟩
  · intro Library loader library path world hentry
    simp [World.callLoaded, World.findEntry, hentry, h]
  · intro Library loader path world
    simp [World.invoke, h]

theorem passes_of_marshal {invocation : Invocation} {block : ArgumentBlock}
    (h : ArgumentBlock.marshal invocation = .ok block) : Passes invocation block := by
  refine ⟨h, ?_, ?_⟩
  · intro Library loader library path world hentry
    simp [World.callLoaded, World.findEntry, hentry, h]
  · intro Library loader library path world hloads hentry
    simp [World.invoke, World.load, World.findEntry, hloads, hentry, h]

/-- Native code reads the arguments that were given, or is not called, for the first that it could not
read. -/
structure Conveys (invocation : Invocation) (given : List String) : Prop where
  refused : (∃ text ∈ given, 0 ∈ octets text) →
    ∃ index, FirstZero given index ∧ Refused invocation index
  passed : (∀ text ∈ given, 0 ∉ octets text) →
    ∃ block, Passes invocation block ∧ block.nativeCount.toInt = given.length ∧
      block.read? = some (given.map octets) ∧ block.pointers[given.length]? = some none

/-- However an invocation was built, it conveys what was given for it. -/
theorem conveys_given (programName? : Option String) (config : Path) (extras : List (List String))
    (hcount : (given programName? config extras).length < 2 ^ 31) :
    Conveys (assembled programName? config extras) (given programName? config extras) := by
  rw [← arguments_assembled] at hcount ⊢
  constructor
  · intro hzero
    rcases exists_firstZero hzero with ⟨index, hfirst⟩
    exact ⟨index, hfirst, refused_of_marshal (marshal_of_firstZero hfirst)⟩
  · intro hfree
    have hzero : ∀ bytes ∈ (assembled programName? config extras).arguments.map octets, 0 ∉ bytes := by
      intro bytes hbytes
      rcases List.mem_map.1 hbytes with ⟨text, htext, rfl⟩
      exact hfree text htext
    have hfew : ((assembled programName? config extras).arguments.map octets).length <
        ArgumentBlock.countLimit := by
      rw [List.length_map]
      exact hcount
    refine ⟨_, passes_of_marshal (marshal_of_free hfree hcount), ?_,
      ArgumentBlock.read?_ofStrings hzero hfew, ?_⟩
    · simpa using ArgumentBlock.nativeCount_ofStrings hfew
    · rw [← List.length_map octets]
      exact ArgumentBlock.null_ofStrings

/-- Empty arguments, an ill-formed byte in the path, and an addition of nothing. -/
theorem conveys_awkward :
    (given (some "") ⟨[Path.slash, 0xFF]⟩ [["", "é"], [], ["--config"]]).length < 2 ^ 31 ∧
      Conveys (assembled (some "") ⟨[Path.slash, 0xFF]⟩ [["", "é"], [], ["--config"]])
        (given (some "") ⟨[Path.slash, 0xFF]⟩ [["", "é"], [], ["--config"]]) :=
  ⟨by decide, conveys_given _ _ _ (by decide)⟩

end Invocation
end NativeLaunch
