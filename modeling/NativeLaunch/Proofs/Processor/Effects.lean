import NativeLaunch.Loader

/-!
# What native code can reach

Native code runs in a memory of its own and reaches the world by system calls alone, which open, write
and rearrange files and print.  So whatever its instructions are, it leaves everything but the files, the
place of the working directory among them, and the output as it was (`Machine.run_touches`).  This file
defines:

* `World.Touches` — nothing but files and output has changed;
* `Loader.LeavesBooks` — native calls keep to themselves what is registered and what was called.
-/

namespace NativeLaunch

namespace World

/-- The files and the output may have changed, the working directory may have been moved, and nothing
else. -/
def Touches (before after : World) : Prop :=
  after =
    { before with
      files := after.files
      workingDirectory := after.workingDirectory
      output := after.output }

theorem Touches.refl (world : World) : Touches world world := rfl

theorem Touches.of_eq {before after : World} (h : after = before) : Touches before after := by
  rw [h]
  exact Touches.refl before

theorem Touches.trans {world after final : World} (h : Touches world after)
    (h' : Touches after final) : Touches world final := by
  unfold Touches at h h' ⊢
  rw [h', h]

theorem Touches.pending_eq {before after : World} (h : Touches before after) :
    after.pending = before.pending := by
  rw [show after = _ from h]

theorem Touches.nativeCalls_eq {before after : World} (h : Touches before after) :
    after.nativeCalls = before.nativeCalls := by
  rw [show after = _ from h]

theorem touches_of_write {world after : World} {path : Path} {content : Bytes}
    {answer : Except FaultKind Unit} (h : world.write path content = (answer, after)) :
    Touches world after := by
  rw [← show (world.write path content).2 = after by rw [h]]
  rfl

end World

namespace Processor
namespace Machine

variable {machine after : Machine} {width : Width} {value : Nat}

/-! ## Instructions -/

@[simp] theorem setRegister_world (machine : Machine) (r : Register) (width : Width) (value : Nat) :
    (machine.setRegister r width value).world = machine.world := rfl

@[simp] theorem answer_world (machine : Machine) (value : Int) :
    (machine.answer value).world = machine.world := rfl

@[simp] theorem goto_world (machine : Machine) (address : Nat) :
    (machine.goto address).world = machine.world := rfl

theorem store?_world {address : Nat} (h : machine.store? address width value = some after) :
    after.world = machine.world := by
  unfold store? at h
  rcases Option.map_eq_some_iff.1 h with ⟨memory, _, rfl⟩
  rfl

theorem writePlace?_world {place : Place} (h : machine.writePlace? width place value = some after) :
    after.world = machine.world := by
  cases place with
  | register r =>
      cases h
      rfl
  | highByte r =>
      cases h
      rfl
  | memory address =>
      exact store?_world h

theorem push?_world (h : machine.push? value = some after) : after.world = machine.world := by
  rcases Option.map_eq_some_iff.1 h with ⟨pushed, hstore, rfl⟩
  rw [setRegister_world, store?_world hstore]

theorem pop?_world (h : machine.pop? = some (value, after)) : after.world = machine.world := by
  rcases Option.map_eq_some_iff.1 h with ⟨number, _, hpopped⟩
  cases hpopped
  rfl

/-- Only a system call changes the world. -/
theorem execute?_world {instruction : Instruction}
    (h : machine.execute? instruction = some after) (hinner : instruction ≠ .systemCall) :
    after.world = machine.world := by
  cases instruction with
  | systemCall =>
      exact absurd rfl hinner
  | nothing =>
      cases h
      rfl
  | arithmetic op width target source =>
      simp only [execute?, Option.bind_eq_bind, Option.bind_eq_some_iff] at h
      obtain ⟨a, _, b, _, h⟩ := h
      split at h
      · cases h
        rfl
      · have hwritten := writePlace?_world h
        exact hwritten
  | shift op width target count =>
      simp only [execute?, Option.bind_eq_bind, Option.bind_eq_some_iff] at h
      obtain ⟨a, _, count, _, h⟩ := h
      generalize count % (if width = .quad then 64 else 32) = n at h
      split at h
      · cases h
        rfl
      · have hwritten := writePlace?_world h
        exact hwritten
  | unary op width target =>
      simp only [execute?, Option.bind_eq_bind, Option.bind_eq_some_iff] at h
      obtain ⟨a, _, h⟩ := h
      cases op with
      | increment =>
          have hwritten := writePlace?_world h
          exact hwritten
      | decrement =>
          have hwritten := writePlace?_world h
          exact hwritten
      | complement =>
          have hwritten := writePlace?_world h
          exact hwritten
      | negate =>
          have hwritten := writePlace?_world h
          exact hwritten
  | pop target =>
      simp only [execute?, Option.bind_eq_bind, Option.bind_eq_some_iff] at h
      obtain ⟨⟨value, popped⟩, hpop, h⟩ := h
      rw [writePlace?_world h, pop?_world hpop]
  | _ =>
      -- All others read places and flags and write them by the functions above.
      simp only [execute?, Option.bind_eq_bind, Option.bind_eq_some_iff, Option.pure_def,
        Option.some.injEq, Prod.exists] at h
      grind [writePlace?_world, push?_world, pop?_world, setRegister_world, goto_world]

/-! ## System calls -/

theorem conclude_touches {α : Type} {outcome : Except FaultKind α × World}
    (h : machine.world.Touches outcome.2) : machine.world.Touches (machine.conclude outcome).world := by
  unfold conclude
  split
  · exact World.Touches.refl machine.world
  · exact h

theorem openFile_touches (machine : Machine) (path : Path)
    (writable create truncate append : Bool) :
    machine.world.Touches (machine.openFile path writable create truncate append).world := by
  unfold openFile
  simp only
  -- Opening makes or empties the file, or does nothing; a number for it is the machine's own.
  split
  · exact World.Touches.refl machine.world
  · rename_i world hopened
    have htouches : machine.world.Touches world := by
      split at hopened
      · split at hopened
        · exact World.touches_of_write hopened
        · exact World.touches_of_write hopened
      · split at hopened
        · split at hopened
          · exact World.touches_of_write hopened
          · exact World.Touches.of_eq (congrArg Prod.snd hopened).symm
        · split at hopened
          · exact World.Touches.of_eq (congrArg Prod.snd hopened).symm
          · cases hopened
    split
    · exact World.Touches.refl machine.world
    · exact htouches

theorem writeFile_touches (machine : Machine) (number : Nat) (bytes : Bytes) :
    machine.world.Touches (machine.writeFile number bytes).world := by
  unfold writeFile
  split
  · rfl
  · split
    · rfl
    · split
      · rfl
      · rfl

theorem listEntries_touches (machine : Machine) (number address size : Nat) :
    machine.world.Touches (machine.listEntries number address size).world := by
  unfold listEntries
  split
  · rfl
  · split
    · rfl
    · simp only
      split
      · rfl
      · split
        · rfl
        · rfl

theorem renameFile_touches (machine : Machine) (path next : Path) :
    machine.world.Touches (machine.renameFile path next).world := by
  unfold renameFile World.rename
  split
  · exact World.Touches.refl machine.world
  · rename_i hrename
    split at hrename
    · cases hrename
    · cases hrename
      rfl

theorem systemCall_touches (machine : Machine) :
    machine.world.Touches machine.systemCall.world := by
  unfold systemCall
  simp only
  split
  · exact writeFile_touches machine _ _
  · exact openFile_touches machine _ _ _ _ _
  · split
    · rfl
    · rfl
  · exact renameFile_touches machine _ _
  · exact conclude_touches (by rfl)
  · exact conclude_touches (by rfl)
  · exact conclude_touches (by rfl)
  · exact listEntries_touches machine _ _ _
  · rfl

/-! ## Runs -/

theorem step?_touches (h : machine.step? = some after) : machine.world.Touches after.world := by
  rcases Option.bind_eq_some_iff.1 h with ⟨⟨instruction, length⟩, _, hexecute⟩
  by_cases hinner : instruction = .systemCall
  · subst hinner
    cases hexecute
    exact systemCall_touches { machine with next := machine.next + length }
  · have hworld := execute?_world hexecute hinner
    exact World.Touches.of_eq hworld

theorem run_touches (final budget : Nat) (machine : Machine) :
    machine.world.Touches (run final budget machine).world := by
  induction budget generalizing machine with
  | zero =>
      exact World.Touches.refl machine.world
  | succ budget ih =>
      rw [run]
      split
      · exact World.Touches.refl machine.world
      · split
        · exact World.Touches.refl machine.world
        · rename_i after hstep
          exact (step?_touches hstep).trans (ih after)

theorem callFunction_touches (memory : Memory) (function : Nat) (block : ArgumentBlock)
    (world : World) : world.Touches (callFunction memory function block world).2 := by
  unfold callFunction
  simp only
  split
  · rename_i entered hpush
    have hworld : entered.world = world := push?_world hpush
    have htouches := run_touches returnAddress budget entered
    rw [hworld] at htouches
    exact htouches
  · exact World.Touches.refl world

end Machine
end Processor

/-! ## Loaders -/

/-- Native calls leave the launcher's books alone: the registry of files to be deleted, and the journal
of calls.  With the files themselves they may do as they like. -/
structure Loader.LeavesBooks {Library : Type} (loader : Loader Library) : Prop where
  pending : ∀ library block world,
    (loader.call library block world).2.pending = world.pending
  nativeCalls : ∀ library block world,
    (loader.call library block world).2.nativeCalls = world.nativeCalls

theorem NativeLibrary.call_touches (library : NativeLibrary) (block : ArgumentBlock) (world : World) :
    world.Touches (library.call block world).2 := by
  unfold NativeLibrary.call
  split
  · exact Processor.Machine.callFunction_touches _ _ block world
  · exact World.Touches.refl world

/-- No shared object gets at the books, whatever its code is. -/
theorem nativeLoader_leavesBooks : nativeLoader.LeavesBooks where
  pending library block world := (library.call_touches block world).pending_eq
  nativeCalls library block world := (library.call_touches block world).nativeCalls_eq

end NativeLaunch
