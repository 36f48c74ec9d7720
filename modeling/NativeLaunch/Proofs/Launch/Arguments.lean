import Mathlib.Data.List.Induction
import NativeLaunch.ArgumentBlock

/-!
# Argument blocks read back

Native code sees of its arguments the strings that the pointers lead to, each up to its zero byte.  These
are the arguments that went in, since none of them holds a zero (`strings_of_marshal`).  This file
defines:

* `ArgumentBlock.Holds` — a string is at a place in the memory, with a zero byte after it.
-/

namespace NativeLaunch
namespace ArgumentBlock

/-- A string is at a place in the memory, with a zero byte after it. -/
def Holds (block : ArgumentBlock) (start : Nat) (text : Bytes) : Prop :=
  ∃ before after, before.length = start ∧ block.memory = before ++ (text ++ 0 :: after)

variable {block : ArgumentBlock} {start : Nat} {text : Bytes}

/-- A string that holds no zero is read up to the zero that was put after it. -/
theorem Holds.stringAt_eq (h : block.Holds start text) (hzero : 0 ∉ text) :
    block.stringAt start = text := by
  rcases h with ⟨before, after, rfl, hmemory⟩
  have hnonzero : ∀ b ∈ text, decide (b ≠ 0) = true := by
    intro b hb
    rw [decide_eq_true_eq]
    rintro rfl
    exact hzero hb
  unfold stringAt
  rw [hmemory, List.drop_left, List.takeWhile_append_of_pos hnonzero]
  simp

/-- The pointers lead to the strings, wherever in the memory they start, and the null pointer stands
after them. -/
theorem exists_starts_layOut (before : Bytes) (strings : List Bytes)
    (hmemory : block.memory = before ++ (layOut before.length strings).1) :
    ∃ starts, (layOut before.length strings).2 = starts.map some ++ [none] ∧
      starts.length = strings.length ∧ List.Forall₂ block.Holds starts strings := by
  -- Along the strings, what was laid out already joins what lies before.
  induction strings generalizing before with
  | nil =>
      exact ⟨[], rfl, rfl, .nil⟩
  | cons text rest ih =>
      have hnext : before.length + text.length + 1 = (before ++ (text ++ [0])).length := by
        simp [Nat.add_assoc]
      simp only [layOut, hnext] at hmemory ⊢
      rcases ih (before ++ (text ++ [0])) (by rw [hmemory]; simp) with
        ⟨starts, hstarts, hlength, hrest⟩
      refine ⟨before.length :: starts, ?_, congrArg (· + 1) hlength, ?_⟩
      · rw [hstarts]
        rfl
      · exact .cons ⟨before, _, rfl, hmemory⟩ hrest

theorem exists_starts_ofStrings (strings : List Bytes) :
    ∃ starts, (ofStrings strings).pointers = starts.map some ++ [none] ∧
      starts.length = strings.length ∧ List.Forall₂ (ofStrings strings).Holds starts strings :=
  exists_starts_layOut [] strings rfl

theorem map_stringAt_of_holds {starts : List Nat} {strings : List Bytes}
    (h : List.Forall₂ block.Holds starts strings) (hzero : ∀ text ∈ strings, 0 ∉ text) :
    starts.map block.stringAt = strings := by
  induction h with
  | nil =>
      rfl
  | cons hfirst _ ih =>
      rw [List.map_cons, hfirst.stringAt_eq (hzero _ List.mem_cons_self),
        ih fun other hother => hzero other (List.mem_cons_of_mem _ hother)]

theorem strings_ofStrings {strings : List Bytes} (hzero : ∀ text ∈ strings, 0 ∉ text) :
    (ofStrings strings).strings = strings := by
  rcases exists_starts_ofStrings strings with ⟨starts, hpointers, _, hholds⟩
  calc (ofStrings strings).strings
      = starts.filterMap (some ∘ (ofStrings strings).stringAt) := by
        rw [ArgumentBlock.strings, hpointers, List.filterMap_append, List.filterMap_map]
        exact List.append_nil _
    _ = starts.map (ofStrings strings).stringAt := by rw [List.filterMap_eq_map]
    _ = strings := map_stringAt_of_holds hholds hzero

theorem marshal_cases (invocation : Invocation) :
    (∃ index, marshal invocation = .error (.invalidArgument index)) ∨
      (∀ text ∈ invocation.arguments.map Utf8.encode, 0 ∉ text) ∧
        marshal invocation = .ok (ofStrings (invocation.arguments.map Utf8.encode)) := by
  cases hindex : (invocation.arguments.map Utf8.encode).findIdx? (·.contains 0) with
  | some index =>
      exact .inl ⟨index, by simp only [marshal, hindex]⟩
  | none =>
      by_cases hfew : (invocation.arguments.map Utf8.encode).length < countLimit
      · refine .inr ⟨?_, by simp only [marshal, hindex, if_pos hfew]⟩
        intro text htext
        simpa using List.findIdx?_eq_none_iff.1 hindex text htext
      · refine .inl ⟨(invocation.arguments.map Utf8.encode).length, ?_⟩
        simp only [marshal, hindex, if_neg hfew]

theorem strings_of_marshal {invocation : Invocation} {block : ArgumentBlock}
    (h : marshal invocation = .ok block) :
    block.strings = invocation.arguments.map Utf8.encode := by
  rcases marshal_cases invocation with ⟨_, herror⟩ | ⟨hzero, hok⟩
  · cases herror.symm.trans h
  · cases hok.symm.trans h
    exact strings_ofStrings hzero

theorem exists_index_of_marshal {invocation : Invocation} {failure : Failure}
    (h : marshal invocation = .error failure) : ∃ index, failure = .invalidArgument index := by
  rcases marshal_cases invocation with ⟨index, herror⟩ | ⟨_, hok⟩
  · cases herror.symm.trans h
    exact ⟨index, rfl⟩
  · cases hok.symm.trans h

end ArgumentBlock
end NativeLaunch
