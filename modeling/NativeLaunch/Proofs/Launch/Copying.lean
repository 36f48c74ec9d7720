import Mathlib
import NativeLaunch.Extraction

/-!
# Copying streams

A copy reads until a read delivers nothing, tries interrupted reads again, and writes each chunk whole.
This file defines:

* `Stream.beforeEnd` and `Stream.content` — the reads before the end of a stream, and what they deliver;
* `ReadStep.GoesOn` and `Stream.IsClean` — a read does not end the reading, and none before the end of a
  stream fails for good;
* `Medium.Holds` — a new file of some bytes can be written;
* `Stream.Breaks` — the first fault of reading, writing or syncing;
* `World.copyThrough` — the same copy through a buffer, which takes a chunk in as many reads as it needs.

A copy comes to the content of the stream, or else to the first fault (`copy_eq_ok_iff` and
`copy_eq_error_iff`), and the size of the buffer makes no difference (`copyThrough_eq`).
-/

namespace NativeLaunch

/-! ## What a stream delivers -/

namespace ReadStep

/-- What a read delivers; a fault delivers nothing. -/
def bytes : ReadStep → Bytes
  | .chunk bytes => bytes
  | .fault _ => []

/-- After this read there is another. -/
def GoesOn (step : ReadStep) : Prop :=
  step ≠ .chunk [] ∧ ∀ fault, step = .fault fault → fault.isInterruption = true

theorem exists_fault {step : ReadStep} (hend : step ≠ .chunk []) (hstops : ¬ step.GoesOn) :
    ∃ fault, step = .fault fault ∧ fault.isInterruption = false := by
  cases step with
  | chunk bytes =>
      refine absurd ⟨hend, ?_⟩ hstops
      intro fault hfault
      cases hfault
  | fault fault =>
      refine ⟨fault, rfl, ?_⟩
      simpa [GoesOn] using hstops

end ReadStep

namespace Stream

/-- The reads before the first that delivers nothing without a fault. -/
def beforeEnd (stream : Stream) : Stream := stream.takeWhile (· ≠ .chunk [])

def bytes (reads : Stream) : Bytes := reads.flatMap ReadStep.bytes

/-- All chunks before the end, in order. -/
def content (stream : Stream) : Bytes := bytes (beforeEnd stream)

/-- Before its end, a stream has no fault but interruptions. -/
def IsClean (stream : Stream) : Prop :=
  ∀ fault, .fault fault ∈ beforeEnd stream → fault.isInterruption = true

section Stream

variable {step : ReadStep} {rest : Stream}

@[simp] theorem bytes_nil : bytes [] = [] := rfl

@[simp] theorem bytes_cons (step : ReadStep) (reads : Stream) :
    bytes (step :: reads) = step.bytes ++ bytes reads :=
  List.flatMap_cons

theorem beforeEnd_end (rest : Stream) : beforeEnd (.chunk [] :: rest) = [] := by
  simp [beforeEnd]

theorem beforeEnd_cons (hstep : step ≠ .chunk []) :
    beforeEnd (step :: rest) = step :: beforeEnd rest := by
  simp [beforeEnd, hstep]

theorem content_cons (hstep : step ≠ .chunk []) :
    content (step :: rest) = step.bytes ++ content rest := by
  simp only [content, beforeEnd_cons hstep, bytes_cons]

theorem isClean_cons_iff (hstep : step ≠ .chunk []) :
    IsClean (step :: rest) ↔ step.GoesOn ∧ IsClean rest := by
  simp only [IsClean, ReadStep.GoesOn, beforeEnd_cons hstep, List.mem_cons]
  constructor
  · intro hclean
    exact ⟨⟨hstep, fun fault hfault => hclean fault (.inl hfault.symm)⟩,
      fun fault hmem => hclean fault (.inr hmem)⟩
  · rintro ⟨⟨_, hgoes⟩, hclean⟩ fault hmem
    cases hmem with
    | inl hfault =>
        exact hgoes fault hfault.symm
    | inr hmem =>
        exact hclean fault hmem

end Stream
end Stream

/-! ## What a medium takes -/

namespace Medium

/-- There is room for a file of these bytes. -/
def Fits (medium : Medium) (bytes : Bytes) : Prop :=
  ∀ room fault, medium.room = some (room, fault) → bytes.length ≤ room

/-- A file of these bytes can be written and brought to the medium. -/
structure Holds (medium : Medium) (bytes : Bytes) : Prop where
  fits : medium.Fits bytes
  syncs : medium.syncFault = none

section Medium

variable {medium : Medium} {written chunk : Bytes} {fault : Fault}

theorem fits_nil (medium : Medium) : medium.Fits [] := by
  intro room fault _
  exact Nat.zero_le room

theorem Fits.of_append (h : medium.Fits (written ++ chunk)) : medium.Fits written := by
  intro room fault hroom
  have hboth := h room fault hroom
  rw [List.length_append] at hboth
  omega

/-- Some bytes do not fit, and that is a fault. -/
theorem exists_limit (h : ¬ medium.Fits written) :
    ∃ room fault, medium.room = some (room, fault) ∧ room < written.length := by
  simpa [Fits, Nat.not_le] using h

theorem append_of_fits (h : medium.Fits (written ++ chunk)) :
    medium.append written chunk = .ok (written ++ chunk) := by
  unfold append
  split
  · rfl
  · rename_i room fault hroom
    have hlength := h room fault hroom
    rw [List.length_append] at hlength
    rw [if_neg (Nat.not_lt.2 hlength)]

theorem append_of_full {room : Nat} (hlimit : medium.room = some (room, fault))
    (hfull : room < (written ++ chunk).length) : medium.append written chunk = .error fault := by
  rw [List.length_append] at hfull
  simp only [append, hlimit, if_pos hfull]

end Medium
end Medium

/-- The first fault of a copy that has written some bytes: the reads before it go on, and what they
deliver has been written. -/
inductive Stream.Breaks (medium : Medium) (written : Bytes) (stream : Stream) : Fault → Prop
  | reading {before rest : Stream} {fault : Fault} (reads : stream = before ++ .fault fault :: rest)
      (goesOn : ∀ step ∈ before, step.GoesOn) (fits : medium.Fits (written ++ bytes before))
      (lasts : fault.isInterruption = false) : Breaks medium written stream fault
  | writing {before rest : Stream} {chunk : Bytes} {room : Nat} {fault : Fault}
      (reads : stream = before ++ .chunk chunk :: rest) (goesOn : ∀ step ∈ before, step.GoesOn)
      (fits : medium.Fits (written ++ bytes before)) (limit : medium.room = some (room, fault))
      (full : room < (written ++ bytes before ++ chunk).length) : Breaks medium written stream fault
  | syncing {fault : Fault} (clean : stream.IsClean) (fits : medium.Fits (written ++ stream.content))
      (fails : medium.syncFault = some fault) : Breaks medium written stream fault

namespace World

section Copy

variable {medium : Medium} {written : Bytes} {stream rest : Stream} {step : ReadStep} {fault : Fault}

/-! ## Copying step by step -/

theorem copy_end (medium : Medium) (written : Bytes) (rest : Stream) :
    copy medium written (.chunk [] :: rest) = medium.sync written := by
  rw [copy]

/-- What a read delivers is written if it fits, and the next read follows. -/
theorem copy_cons (hgoes : step.GoesOn) (hfits : medium.Fits (written ++ step.bytes)) :
    copy medium written (step :: rest) = copy medium (written ++ step.bytes) rest := by
  cases step with
  | chunk chunk =>
      cases chunk with
      | nil =>
          exact absurd rfl hgoes.1
      | cons byte bytes =>
          have happend := Medium.append_of_fits hfits
          simp only [ReadStep.bytes] at happend ⊢
          simp only [copy, happend]
  | fault fault =>
      have hinterrupts : fault.isInterruption = true := hgoes.2 fault rfl
      simp only [copy, hinterrupts, if_true, ReadStep.bytes, List.append_nil]

/-- What does not fit is not written. -/
theorem copy_of_full {chunk : Bytes} {room : Nat} (hchunk : chunk ≠ [])
    (hlimit : medium.room = some (room, fault)) (hfull : room < (written ++ chunk).length) :
    copy medium written (.chunk chunk :: rest) = .error fault := by
  cases chunk with
  | nil =>
      exact absurd rfl hchunk
  | cons byte bytes =>
      simp only [copy, Medium.append_of_full hlimit hfull]

theorem copy_append {before : Stream} (hgoes : ∀ step ∈ before, step.GoesOn)
    (hfits : medium.Fits (written ++ Stream.bytes before)) :
    copy medium written (before ++ rest) = copy medium (written ++ Stream.bytes before) rest := by
  induction before generalizing written with
  | nil =>
      simp
  | cons step before ih =>
      have hbytes : written ++ Stream.bytes (step :: before) =
          written ++ step.bytes ++ Stream.bytes before := by
        simp
      rw [hbytes] at hfits ⊢
      have hbefore : ∀ other ∈ before, other.GoesOn := by
        intro other hother
        exact hgoes other (List.mem_cons_of_mem step hother)
      calc
        copy medium written (step :: before ++ rest)
            = copy medium (written ++ step.bytes) (before ++ rest) :=
              copy_cons (hgoes step List.mem_cons_self) hfits.of_append
        _ = copy medium (written ++ step.bytes ++ Stream.bytes before) rest := ih hbefore hfits

/-- At its end, the content of a clean stream is brought to the medium. -/
theorem copy_of_isClean (hclean : stream.IsClean) (hfits : medium.Fits (written ++ stream.content)) :
    copy medium written stream = medium.sync (written ++ stream.content) := by
  induction stream generalizing written with
  | nil =>
      simp [copy, Stream.content, Stream.beforeEnd]
  | cons step rest ih =>
      by_cases hend : step = .chunk []
      · subst hend
        rw [copy_end, Stream.content, Stream.beforeEnd_end, Stream.bytes_nil, List.append_nil]
      · rcases (Stream.isClean_cons_iff hend).1 hclean with ⟨hgoes, hrest⟩
        rw [Stream.content_cons hend, ← List.append_assoc] at hfits ⊢
        calc
          copy medium written (step :: rest) = copy medium (written ++ step.bytes) rest :=
            copy_cons hgoes hfits.of_append
          _ = medium.sync (written ++ step.bytes ++ Stream.content rest) := ih hrest hfits

/-! ## Where a copy ends -/

theorem copy_of_holds (hclean : stream.IsClean) (hholds : medium.Holds (written ++ stream.content)) :
    copy medium written stream = .ok (written ++ stream.content) := by
  simp only [copy_of_isClean hclean hholds.fits, Medium.sync, hholds.syncs]

theorem copy_of_breaks (h : stream.Breaks medium written fault) :
    copy medium written stream = .error fault := by
  cases h with
  | reading hreads hgoes hfits hlasts =>
      subst hreads
      rw [copy_append hgoes hfits]
      simp [copy, hlasts]
  | @writing before rest chunk room fault hreads hgoes hfits hlimit hfull =>
      subst hreads
      have hchunk : chunk ≠ [] := by
        -- For nothing more there would be room.
        rintro rfl
        have hroom := hfits room fault hlimit
        rw [List.append_nil] at hfull
        omega
      rw [copy_append hgoes hfits]
      exact copy_of_full hchunk hlimit hfull
  | syncing hclean hfits hfails =>
      simp only [copy_of_isClean hclean hfits, Medium.sync, hfails]

/-- A fault that comes later is the first after a read that goes on. -/
theorem breaks_cons (hgoes : step.GoesOn) (h : Stream.Breaks medium (written ++ step.bytes) rest fault) :
    Stream.Breaks medium written (step :: rest) fault := by
  have hbytes : ∀ before, written ++ step.bytes ++ Stream.bytes before =
      written ++ Stream.bytes (step :: before) := by
    intro before
    simp
  have hmore : ∀ {before : Stream}, (∀ other ∈ before, other.GoesOn) →
      ∀ other ∈ step :: before, other.GoesOn := by
    intro before hbefore other hother
    cases hother with
    | head =>
        exact hgoes
    | tail _ hmem =>
        exact hbefore other hmem
  cases h with
  | reading hreads hbefore hfits hlasts =>
      subst hreads
      rw [hbytes] at hfits
      exact .reading rfl (hmore hbefore) hfits hlasts
  | writing hreads hbefore hfits hlimit hfull =>
      subst hreads
      rw [hbytes] at hfits hfull
      exact .writing rfl (hmore hbefore) hfits hlimit hfull
  | syncing hclean hfits hfails =>
      refine .syncing ((Stream.isClean_cons_iff hgoes.1).2 ⟨hgoes, hclean⟩) ?_ hfails
      rw [Stream.content_cons hgoes.1, ← List.append_assoc]
      exact hfits

/-- Where nothing more is delivered, syncing is left. -/
theorem holds_or_breaks_of_beforeEnd (hend : stream.beforeEnd = []) (hfits : medium.Fits written) :
    (stream.IsClean ∧ medium.Holds (written ++ stream.content)) ∨
      ∃ fault, stream.Breaks medium written fault := by
  have hclean : stream.IsClean := by
    intro fault hmem
    simp [hend] at hmem
  have hcontent : medium.Fits (written ++ stream.content) := by
    simpa [Stream.content, hend] using hfits
  cases hsync : medium.syncFault with
  | none =>
      exact .inl ⟨hclean, hcontent, hsync⟩
  | some fault =>
      exact .inr ⟨fault, .syncing hclean hcontent hsync⟩

/-- A stream can be copied whole, or something breaks the copy. -/
theorem holds_or_breaks (stream : Stream) (hfits : medium.Fits written) :
    (stream.IsClean ∧ medium.Holds (written ++ stream.content)) ∨
      ∃ fault, stream.Breaks medium written fault := by
  induction stream generalizing written with
  | nil =>
      exact holds_or_breaks_of_beforeEnd rfl hfits
  | cons step rest ih =>
      have hstart : medium.Fits (written ++ Stream.bytes []) := by simpa using hfits
      by_cases hend : step = .chunk []
      · subst hend
        exact holds_or_breaks_of_beforeEnd (Stream.beforeEnd_end rest) hfits
      by_cases hgoes : step.GoesOn
      · by_cases hroom : medium.Fits (written ++ step.bytes)
        · rcases ih hroom with ⟨hclean, hholds⟩ | ⟨fault, hbreaks⟩
          · rw [List.append_assoc, ← Stream.content_cons hend] at hholds
            exact .inl ⟨(Stream.isClean_cons_iff hend).2 ⟨hgoes, hclean⟩, hholds⟩
          · exact .inr ⟨fault, breaks_cons hgoes hbreaks⟩
        · rcases Medium.exists_limit hroom with ⟨room, fault, hlimit, hfull⟩
          cases step with
          | chunk chunk =>
              refine .inr ⟨fault, .writing (List.nil_append _).symm (by simp) hstart hlimit ?_⟩
              simpa [ReadStep.bytes] using hfull
          | fault other =>
              exact absurd hstart hroom
      · rcases ReadStep.exists_fault hend hgoes with ⟨fault, rfl, hlasts⟩
        exact .inr ⟨fault, .reading (List.nil_append _).symm (by simp) hstart hlasts⟩

/-- A copy comes to the content of a clean stream, if that can be written. -/
theorem copy_eq_ok_iff {content : Bytes} :
    copy medium [] stream = .ok content ↔
      stream.IsClean ∧ medium.Holds content ∧ content = stream.content := by
  constructor
  · intro hcopy
    rcases holds_or_breaks stream medium.fits_nil with ⟨hclean, hholds⟩ | ⟨fault, hbreaks⟩
    · rw [copy_of_holds hclean hholds] at hcopy
      cases hcopy
      exact ⟨hclean, hholds, rfl⟩
    · rw [copy_of_breaks hbreaks] at hcopy
      cases hcopy
  · rintro ⟨hclean, hholds, rfl⟩
    exact copy_of_holds hclean hholds

/-- Any other copy comes to the first fault. -/
theorem copy_eq_error_iff : copy medium [] stream = .error fault ↔ stream.Breaks medium [] fault := by
  constructor
  · intro hcopy
    rcases holds_or_breaks stream medium.fits_nil with ⟨hclean, hholds⟩ | ⟨first, hbreaks⟩
    · rw [copy_of_holds hclean hholds] at hcopy
      cases hcopy
    · rw [copy_of_breaks hbreaks] at hcopy
      cases hcopy
      exact hbreaks
  · intro hbreaks
    exact copy_of_breaks hbreaks

end Copy

/-! ## Copying through a buffer -/

end World

namespace Stream

/-- One read into a buffer of some size, and the stream after it: a chunk that is too long for the
buffer is left with its rest. -/
def read (size : Nat) : Stream → ReadStep × Stream
  | [] => (.chunk [], [])
  | .chunk bytes :: rest =>
    if bytes.length ≤ size then (.chunk bytes, rest)
    else (.chunk (bytes.take size), .chunk (bytes.drop size) :: rest)
  | .fault fault :: rest => (.fault fault, rest)

/-- How much is left to be read, each step counted as well. -/
def weight (stream : Stream) : Nat := (stream.map fun step => step.bytes.length + 1).sum

@[simp] theorem weight_cons (step : ReadStep) (rest : Stream) :
    weight (step :: rest) = step.bytes.length + 1 + weight rest := by
  simp [weight]

/-- Each read but the last leaves less. -/
theorem weight_read {size : Nat} {stream left : Stream} {step : ReadStep}
    (h : stream.read size = (step, left)) (hstep : step ≠ .chunk []) :
    weight left < weight stream := by
  unfold read at h
  split at h
  · cases h
    exact absurd rfl hstep
  · split at h
    · cases h
      simp
    · cases h
      have hsize : size ≠ 0 := by
        rintro rfl
        exact hstep rfl
      simp only [weight_cons, ReadStep.bytes, List.length_drop]
      omega
  · cases h
    simp

end Stream

namespace World

/-- Copies a stream as `copy` does, through a buffer of some size. -/
def copyThrough (size : Nat) (medium : Medium) (written : Bytes) (stream : Stream) :
    Except Fault Bytes :=
  match _hread : stream.read size with
  | (.chunk [], _) => medium.sync written
  | (.chunk (byte :: bytes), left) =>
    match medium.append written (byte :: bytes) with
    | .ok longer => copyThrough size medium longer left
    | .error fault => .error fault
  | (.fault fault, left) =>
    if fault.isInterruption then copyThrough size medium written left else .error fault
termination_by stream.weight
decreasing_by
  · exact Stream.weight_read ‹_› (by simp)
  · exact Stream.weight_read ‹_› (by simp)

/-- A chunk may as well come in two. -/
theorem copy_split (medium : Medium) (written : Bytes) (rest : Stream) {first second : Bytes}
    (hfirst : first ≠ []) (hsecond : second ≠ []) :
    copy medium written (.chunk first :: .chunk second :: rest) =
      copy medium written (.chunk (first ++ second) :: rest) := by
  have hgoes : ∀ {chunk : Bytes}, chunk ≠ [] → (ReadStep.chunk chunk).GoesOn := by
    intro chunk hchunk
    exact ⟨by simpa using hchunk, by simp⟩
  by_cases hboth : medium.Fits (written ++ (first ++ second))
  · have hthen : medium.Fits (written ++ first ++ second) := by
      rw [List.append_assoc]
      exact hboth
    calc
      copy medium written (.chunk first :: .chunk second :: rest)
          = copy medium (written ++ first) (.chunk second :: rest) :=
            copy_cons (hgoes hfirst) hthen.of_append
      _ = copy medium (written ++ first ++ second) rest := copy_cons (hgoes hsecond) hthen
      _ = copy medium (written ++ (first ++ second)) rest := by rw [List.append_assoc]
      _ = copy medium written (.chunk (first ++ second) :: rest) :=
            (copy_cons (hgoes (by simp [hfirst])) hboth).symm
  · rcases Medium.exists_limit hboth with ⟨room, fault, hlimit, hfull⟩
    have hwhole : copy medium written (.chunk (first ++ second) :: rest) = .error fault :=
      copy_of_full (by simp [hfirst]) hlimit hfull
    rw [hwhole]
    by_cases hone : medium.Fits (written ++ first)
    · rw [copy_cons (hgoes hfirst) hone]
      exact copy_of_full hsecond hlimit (by simpa [ReadStep.bytes] using hfull)
    · -- The limit is the same one.
      rcases Medium.exists_limit hone with ⟨room', fault', hlimit', hfull'⟩
      rw [hlimit] at hlimit'
      cases hlimit'
      exact copy_of_full hfirst hlimit hfull'

/-- What one read takes is copied first, and what it leaves after that. -/
theorem copy_read {size : Nat} (hsize : 0 < size) (medium : Medium) (written : Bytes)
    {stream left : Stream} {step : ReadStep} (h : stream.read size = (step, left)) :
    copy medium written stream = copy medium written (step :: left) := by
  unfold Stream.read at h
  split at h
  · cases h
    rw [copy_end, copy]
  · rename_i bytes rest
    split at h
    · cases h
      rfl
    · rename_i hlong
      cases h
      have hfirst : bytes.take size ≠ [] := by
        rw [Ne, List.take_eq_nil_iff, not_or]
        refine ⟨Nat.ne_of_gt hsize, ?_⟩
        rintro rfl
        exact hlong (Nat.zero_le size)
      have hsecond : bytes.drop size ≠ [] := by
        rw [Ne, List.drop_eq_nil_iff]
        exact hlong
      rw [copy_split medium written rest hfirst hsecond, List.take_append_drop]
  · cases h
    rfl

/-- The size of the buffer makes no difference. -/
theorem copyThrough_eq {size : Nat} (hsize : 0 < size) (medium : Medium) (written : Bytes)
    (stream : Stream) : copyThrough size medium written stream = copy medium written stream := by
  fun_induction copyThrough size medium written stream with
  | case1 written stream left hread =>
      rw [copy_read hsize medium written hread, copy_end]
  | case2 written stream byte bytes left hread longer happend ih =>
      rw [copy_read hsize medium written hread]
      simp only [copy, happend, ih]
  | case3 written stream byte bytes left hread fault happend =>
      rw [copy_read hsize medium written hread]
      simp only [copy, happend]
  | case4 written stream fault left hread hinterrupts ih =>
      rw [copy_read hsize medium written hread]
      simp only [copy, hinterrupts, if_true, ih]
  | case5 written stream fault left hread hlasts =>
      rw [copy_read hsize medium written hread]
      simp only [copy, hlasts, Bool.false_eq_true, if_false]

end World
end NativeLaunch
