import NativeLaunch.Proofs.Registry.Interleaving

/-!
# Where extracted files are

A release unlinks a file and takes it off the list in one step.  A cleanup takes the whole list in
one step and unlinks file after file, while releases find nothing and extractions register anew.  So
a file that was extracted is at any moment in one place: on the list, in the hands of a cleanup, or
released, counted or dropped.  This file defines:

* `Shared.extracted` and the like — the files that something has happened to, by event;
* `Shared.todo` — the files in the hands of cleanups;
* `Ledger` — what the places hold, for any kind of path that depends on components only;
* `Accounted` — each extracted file is in one place, and all the counts add up.

Files are told apart by the components of their paths, as a release does.  Nothing is assumed of what
happens to the files meanwhile, and of the generator of names only that no two of its names are alike.
-/

namespace NativeLaunch
namespace Registry

namespace Event

def extracted? : Event → Option Path
  | .returned _ (.extracted (.ok artifact)) => some artifact.temporaryFilePath
  | _ => none

def released? : Event → Option Path
  | .returned _ (.released path true) => some path
  | _ => none

def counted? : Event → Option Path
  | .counted _ path => some path
  | _ => none

def dropped? : Event → Option Path
  | .dropped _ path => some path
  | _ => none

def named? : Event → Option Path
  | .named _ path => some path
  | _ => none

/-- The count that a cleanup returned. -/
def count : Event → Nat
  | .returned _ (.cleaned count) => count
  | _ => 0

end Event

namespace Stage

/-- The files in the hands of a cleanup. -/
def todo : Stage → List Path
  | .deleting todo _ => todo
  | _ => []

/-- How many files a cleanup has deleted so far. -/
def count : Stage → Nat
  | .deleting _ count => count
  | _ => 0

/-- The file of an extraction that has not failed. -/
def made? : Stage → Option Path
  | .filling _ path _ _ => some path
  | .registering _ path => some path
  | _ => none

end Stage

namespace Shared

section Places

variable (shared : Shared)

def extracted : List Path := shared.past.filterMap Event.extracted?

def released : List Path := shared.past.filterMap Event.released?

def counted : List Path := shared.past.filterMap Event.counted?

def dropped : List Path := shared.past.filterMap Event.dropped?

def named : List Path := shared.past.filterMap Event.named?

def todo : List Path := shared.stages.flatMap Stage.todo

/-- What the cleanups have counted, those that have returned and those in progress. -/
def count : Nat := (shared.past.map Event.count).sum + (shared.stages.map Stage.count).sum

end Places

end Shared

/-! ## What a step pays -/

/-- A kind of path that depends on components only. -/
def Respects (kind : Path → Bool) : Prop :=
  ∀ path other, Path.sameComponents path other = true → kind path = kind other

/-- What a step takes from one place it brings to another. -/
structure Stage.Pays (kind : Path → Bool) (world : World) (stage : Stage) (progress : Progress) :
    Prop where
  places :
    (progress.events.filterMap Event.extracted?).countP kind + world.pending.countP kind +
        stage.todo.countP kind =
      progress.world.pending.countP kind +
        (progress.next.toList.flatMap Stage.todo).countP kind +
        (progress.events.filterMap Event.released?).countP kind +
        (progress.events.filterMap Event.counted?).countP kind +
        (progress.events.filterMap Event.dropped?).countP kind
  counts :
    (progress.events.filterMap Event.counted?).length + stage.count =
      (progress.events.map Event.count).sum + (progress.next.toList.map Stage.count).sum
  names :
    (progress.events.filterMap Event.extracted?).countP kind +
        (progress.next.toList.filterMap Stage.made?).countP kind ≤
      (progress.events.filterMap Event.named?).countP kind +
        ([stage].filterMap Stage.made?).countP kind

@[simp] theorem pending_fill (world : World) (place : Location) (content : Bytes) :
    (fill world place content).pending = world.pending := by
  unfold fill
  split <;> rfl

theorem Stage.Takes.pays {kind : Path → Bool} (hkind : Respects kind) {caller : Nat}
    {world : World} {stage : Stage} {progress : Progress}
    (h : stage.Takes caller world progress) : stage.Pays kind world progress := by
  cases h with
  | released path entry after hfound hperm =>
      -- The entry is not the path that was asked for, but alike.
      have hpending := hperm.countP_eq kind
      have halike := hkind entry path hfound
      refine ⟨?_, rfl, ?_⟩
      · simp only [returns, List.filterMap_cons, List.filterMap_nil, Event.extracted?,
          Event.released?, Event.counted?, Event.dropped?, Stage.todo, hpending, List.countP_cons,
          halike, List.countP_nil, Option.toList_none, List.flatMap_nil]
        omega
      · exact Nat.zero_le _
  | registered resource path =>
      refine ⟨?_, rfl, ?_⟩
      · simp [returns, List.filterMap_cons, World.register, Event.extracted?, Event.released?,
          Event.counted?, Event.dropped?, Stage.todo, Nat.add_comm]
      · simp [returns, List.filterMap_cons, Event.extracted?, Event.named?, Stage.made?]
  | counted path rest count =>
      refine ⟨?_, ?_, ?_⟩
      · simp [List.filterMap_cons, Event.extracted?, Event.released?,
          Event.counted?, Event.dropped?, Stage.todo, List.countP_cons]
        omega
      · simp [Event.counted?, Event.count, Stage.count, Nat.add_comm]
      · exact Nat.zero_le _
  | dropped path rest count =>
      refine ⟨?_, rfl, ?_⟩
      · simp [List.filterMap_cons, Event.extracted?, Event.released?,
          Event.counted?, Event.dropped?, Stage.todo, List.countP_cons]
        omega
      · exact Nat.zero_le _
  | wait stage =>
      exact ⟨by simp, by simp, by simp⟩
  | _ =>
      refine ⟨?_, ?_, ?_⟩
      · simp_all [returns, Registry.unnamed, List.filterMap_cons, Event.extracted?,
          Event.released?, Event.counted?, Event.dropped?, Stage.todo]
      · simp [returns, Registry.unnamed, List.filterMap_cons, Event.counted?, Event.count,
          Stage.count]
      · simp [returns, Registry.unnamed, List.filterMap_cons, Event.extracted?, Event.named?,
          Stage.made?]

/-- What a step leaves on the list or in the hands of its call was there before, or has just been
extracted. -/
theorem Stage.Takes.mem {caller : Nat} {world : World} {stage : Stage} {progress : Progress}
    {path : Path} (h : stage.Takes caller world progress)
    (hpath : path ∈ progress.world.pending ∨ path ∈ progress.next.toList.flatMap Stage.todo) :
    path ∈ world.pending ∨ path ∈ stage.todo ∨
      path ∈ progress.events.filterMap Event.extracted? := by
  cases h with
  | registered resource added =>
      simpa [returns, World.register, List.filterMap_cons, Event.extracted?, Stage.todo] using hpath
  | released asked entry after _ hperm =>
      have hleft : path ∈ after.pending := by simpa [returns] using hpath
      exact .inl (hperm.mem_iff.2 (List.mem_cons_of_mem entry hleft))
  | counted deleted rest count =>
      rcases hpath with hlisted | hheld
      · exact .inl hlisted
      · exact .inr (.inl (List.mem_cons_of_mem deleted (by simpa [Stage.todo] using hheld)))
  | dropped kept rest count =>
      rcases hpath with hlisted | hheld
      · exact .inl hlisted
      · exact .inr (.inl (List.mem_cons_of_mem kept (by simpa [Stage.todo] using hheld)))
  | wait stage =>
      simpa using hpath
  | _ =>
      refine .inl ?_
      simp_all [returns, Registry.unnamed, Stage.todo]

/-! ## Over whole schedules -/

/-- What the places hold of a kind of path, and what the cleanups have counted. -/
structure Ledger (kind : Path → Bool) (shared : Shared) : Prop where
  places :
    shared.extracted.countP kind =
      shared.world.pending.countP kind + shared.todo.countP kind + shared.released.countP kind +
        shared.counted.countP kind + shared.dropped.countP kind
  counts : shared.counted.length = shared.count
  names :
    shared.extracted.countP kind + (shared.stages.filterMap Stage.made?).countP kind ≤
      shared.named.countP kind

namespace Shared

variable {kind : Path → Bool}

theorem Stepped.ledger (hkind : Respects kind) {before after : Shared} (h : Stepped before after)
    (hbefore : Ledger kind before) : Ledger kind after := by
  have hplaces := hbefore.places
  have hcounts := hbefore.counts
  have hnames := hbefore.names
  cases h with
  | idle =>
      exact hbefore
  | changed files =>
      exact ⟨hplaces, hcounts, hnames⟩
  | called caller call =>
      have htodo : call.first.todo = [] := by cases call <;> rfl
      have hcount : call.first.count = 0 := by cases call <;> rfl
      have hmade : call.first.made? = none := by cases call <;> rfl
      refine ⟨?_, ?_, ?_⟩
      · simpa [extracted, todo, released, counted, dropped, stages, List.filterMap_cons,
          Event.extracted?, Event.released?, Event.counted?, Event.dropped?, htodo] using hplaces
      · simpa [counted, count, stages, List.filterMap_cons, Event.counted?, Event.count, hcount]
          using hcounts
      · simpa [extracted, named, stages, List.filterMap_cons, Event.extracted?, Event.named?,
          hmade] using hnames
  | proceeded caller stage progress rest hperm htakes =>
      have hpays := htakes.pays hkind
      have hpaidPlaces := hpays.places
      have hpaidCounts := hpays.counts
      have hpaidNames := hpays.names
      -- The other calls hold what they held.
      have hstages : before.stages.Perm (stage :: rest.map Prod.snd) := hperm.map Prod.snd
      have hafter : (progress.next.toList.map (Prod.mk caller) ++ rest).map Prod.snd =
          progress.next.toList ++ rest.map Prod.snd := by
        simp [Function.comp_def]
      have htodo := (hstages.flatMap_right Stage.todo).countP_eq kind
      have hcount := (hstages.map Stage.count).sum_nat
      have hmade := (hstages.filterMap Stage.made?).countP_eq kind
      rw [List.flatMap_cons, List.countP_append] at htodo
      rw [List.map_cons, List.sum_cons] at hcount
      rw [← List.singleton_append, List.filterMap_append, List.countP_append] at hmade
      refine ⟨?_, ?_, ?_⟩
      · simp only [extracted, todo, released, counted, dropped, htodo] at hplaces
        simp only [extracted, todo, released, counted, dropped, stages, hafter,
          List.filterMap_append, List.flatMap_append, List.countP_append]
        omega
      · simp only [counted, count, hcount] at hcounts
        simp only [counted, count, stages, hafter, List.filterMap_append, List.map_append,
          List.sum_append, List.length_append]
        omega
      · simp only [extracted, named, hmade] at hnames
        simp only [extracted, named, stages, hafter, List.filterMap_append, List.countP_append]
        omega

theorem ledger (hkind : Respects kind) (world : World) (schedule : List Turn) :
    Ledger kind ((new world).run schedule) := by
  refine run_induction world ?_ ?_ schedule
  · exact ⟨rfl, rfl, Nat.le_refl 0⟩
  · intro before after hstep hbefore
    exact hstep.ledger hkind hbefore

/-- What is on the list or in the hands of a cleanup was extracted. -/
theorem mem_extracted (world : World) (schedule : List Turn) :
    ∀ path ∈ ((new world).run schedule).world.pending ++ ((new world).run schedule).todo,
      path ∈ ((new world).run schedule).extracted := by
  refine run_induction (motive := fun shared =>
    ∀ path ∈ shared.world.pending ++ shared.todo, path ∈ shared.extracted) world ?_ ?_ schedule
  · intro path hpath
    cases hpath
  · intro before after hstep hbefore path hpath
    cases hstep with
    | idle =>
        exact hbefore path hpath
    | changed files =>
        exact hbefore path hpath
    | called caller call =>
        have htodo : call.first.todo = [] := by cases call <;> rfl
        have hold : path ∈ before.world.pending ++ before.todo := by
          simpa [todo, stages, htodo] using hpath
        simpa [extracted, List.filterMap_cons, Event.extracted?] using hbefore path hold
    | proceeded caller stage progress rest hperm htakes =>
        have htodo : ∀ other, other ∈ before.todo ↔
            other ∈ stage.todo ∨ other ∈ (rest.map Prod.snd).flatMap Stage.todo := by
          intro other
          rw [todo, stages, ((hperm.map Prod.snd).flatMap_right Stage.todo).mem_iff, List.map_cons,
            List.flatMap_cons, List.mem_append]
        have hafter : (progress.next.toList.map (Prod.mk caller) ++ rest).map Prod.snd =
            progress.next.toList ++ rest.map Prod.snd := by
          simp [Function.comp_def]
        simp only [todo, stages, hafter, List.flatMap_append, List.mem_append] at hpath
        simp only [extracted, List.filterMap_append, List.mem_append]
        -- The other calls have in hand what they had.
        have hsource : path ∈ progress.events.filterMap Event.extracted? ∨
            path ∈ before.world.pending ++ before.todo := by
          rcases or_assoc.2 hpath with hown | hother
          · rcases htakes.mem hown with hlisted | hheld | hnew
            · exact .inr (List.mem_append_left _ hlisted)
            · exact .inr (List.mem_append_right _ ((htodo path).2 (.inl hheld)))
            · exact .inl hnew
          · exact .inr (List.mem_append_right _ ((htodo path).2 (.inr hother)))
        rcases hsource with hnew | hold
        · exact .inl hnew
        · exact .inr (hbefore path hold)

end Shared

/-! ## Each file in one place -/

theorem sameComponents_iff {path other : Path} :
    path.sameComponents other = true ↔ path.components = other.components := by
  simp [Path.sameComponents]

/-- No two of some paths are alike. -/
def Unlike (paths : List Path) : Prop :=
  paths.Pairwise fun path other => path.sameComponents other = false

theorem respects_sameComponents (path : Path) :
    Respects fun other => other.sameComponents path := by
  intro first second halike
  have hcomponents := sameComponents_iff.1 halike
  simp [Path.sameComponents, hcomponents]

/-- Among unlike paths there is one at most that is alike to a given path. -/
theorem countP_le_one {paths : List Path} (h : Unlike paths) (path : Path) :
    paths.countP (·.sameComponents path) ≤ 1 := by
  induction paths with
  | nil =>
      exact Nat.zero_le 1
  | cons first paths ih =>
      rcases List.pairwise_cons.1 h with ⟨hfirst, hrest⟩
      rw [List.countP_cons]
      split
      · rename_i halike
        have hnone : paths.countP (·.sameComponents path) = 0 := by
          rw [List.countP_eq_zero]
          intro other hother halso
          have hboth : first.sameComponents other = true :=
            sameComponents_iff.2
              ((sameComponents_iff.1 halike).trans (sameComponents_iff.1 halso).symm)
          rw [hfirst other hother] at hboth
          cases hboth
        omega
      · exact ih hrest

theorem unlike_of_countP {paths : List Path}
    (h : ∀ path, paths.countP (·.sameComponents path) ≤ 1) : Unlike paths := by
  induction paths with
  | nil =>
      exact List.Pairwise.nil
  | cons first paths ih =>
      refine List.pairwise_cons.2 ⟨?_, ?_⟩
      · intro other hother
        cases halike : first.sameComponents other with
        | false =>
            rfl
        | true =>
            have hself : other.sameComponents other = true := sameComponents_iff.2 rfl
            have hpos : 0 < paths.countP (·.sameComponents other) :=
              List.countP_pos_iff.2 ⟨other, hother, hself⟩
            have hone := h other
            rw [List.countP_cons, if_pos halike] at hone
            omega
      · apply ih
        intro path
        have hone := h path
        rw [List.countP_cons] at hone
        omega

theorem Unlike.subperm {paths fewer : List Path} (h : Unlike paths) (hfewer : fewer.Subperm paths) :
    Unlike fewer :=
  unlike_of_countP fun path => (hfewer.countP_le _).trans (countP_le_one h path)

/-- Where the files are that were extracted. -/
structure Accounted (shared : Shared) : Prop where
  -- Each is in one of these places, and there once.
  each : ∀ path ∈ shared.extracted,
    shared.world.pending.countP (·.sameComponents path) +
      shared.todo.countP (·.sameComponents path) +
      shared.released.countP (·.sameComponents path) +
      shared.counted.countP (·.sameComponents path) +
      shared.dropped.countP (·.sameComponents path) = 1
  -- No other file is on the list, or in any of these places.
  registered : ∀ path ∈ shared.world.pending, path ∈ shared.extracted
  others : ∀ path, (∀ known ∈ shared.extracted, known.sameComponents path = false) →
    shared.world.pending.countP (·.sameComponents path) +
      shared.todo.countP (·.sameComponents path) +
      shared.released.countP (·.sameComponents path) +
      shared.counted.countP (·.sameComponents path) +
      shared.dropped.countP (·.sameComponents path) = 0
  unlike : Unlike shared.extracted
  total :
    shared.released.length + shared.count + shared.dropped.length + shared.todo.length +
      shared.world.pending.length = shared.extracted.length

namespace Shared

/-- If no two names are alike, no two files that are extracted under them are. -/
theorem unlike_extracted {world : World} {schedule : List Turn}
    (h : Unlike ((new world).run schedule).named) : Unlike ((new world).run schedule).extracted := by
  apply unlike_of_countP
  intro path
  have hnames := (ledger (respects_sameComponents path) world schedule).names
  have hone := countP_le_one h path
  omega

/-- However extractions, releases and cleanups interleave, and whatever others do to the files: if no
two names are alike, each extracted file is in one place. -/
theorem accounted (world : World) (schedule : List Turn)
    (hnames : Unlike ((new world).run schedule).named) :
    Accounted ((new world).run schedule) where
  each path hpath := by
    have hplaces := (ledger (respects_sameComponents path) world schedule).places
    have hone := countP_le_one (unlike_extracted hnames) path
    have hpos : 0 < ((new world).run schedule).extracted.countP (·.sameComponents path) :=
      List.countP_pos_iff.2 ⟨path, hpath, sameComponents_iff.2 rfl⟩
    omega
  registered path hpath := mem_extracted world schedule path (List.mem_append_left _ hpath)
  others path hnone := by
    have hplaces := (ledger (respects_sameComponents path) world schedule).places
    have hzero : ((new world).run schedule).extracted.countP (·.sameComponents path) = 0 := by
      rw [List.countP_eq_zero]
      intro known hknown halike
      rw [hnone known hknown] at halike
      cases halike
    omega
  unlike := unlike_extracted hnames
  total := by
    have hledger : Ledger (fun _ => true) ((new world).run schedule) :=
      ledger (fun _ _ _ => rfl) world schedule
    have hplaces := hledger.places
    have hcounts := hledger.counts
    simp only [List.countP_true] at hplaces
    omega

def extracting (caller : Nat) (path : Path) : List Turn :=
  [.call caller (.extract World.provisions ⟨.linux, "x86_64", "lib", ".so",
    "/linux/x86_64/libpico_limbo.so"⟩), .advance caller, .name caller path, .advance caller,
    .advance caller]

/-- A cleanup takes two files, of which others delete one before it is unlinked; a third is extracted
meanwhile, and released. -/
def meeting : List Turn :=
  extracting 0 (.ofString "/tmp/a") ++ extracting 1 (.ofString "/tmp/b") ++
    [.call 2 .cleanUp, .advance 2, .call 3 (.release (.ofString "/tmp/a")), .advance 3] ++
    extracting 4 (.ofString "/tmp/c") ++
    [.outside ⟨[([Utf8.encode "tmp"], .directory),
      ([Utf8.encode "tmp", Utf8.encode "b"], .file []),
      ([Utf8.encode "tmp", Utf8.encode "c"], .file [])]⟩,
    .advance 2, .call 5 (.release (.ofString "/tmp//c")), .advance 5, .advance 2, .advance 2]

theorem accounted_meeting :
    Unlike ((new World.furnished).run meeting).named ∧
      Accounted ((new World.furnished).run meeting) ∧
      ((new World.furnished).run meeting).released = [.ofString "/tmp//c"] ∧
      ((new World.furnished).run meeting).counted = [.ofString "/tmp/b"] ∧
      ((new World.furnished).run meeting).dropped = [.ofString "/tmp/a"] := by
  have hnamed : ((new World.furnished).run meeting).named =
      [.ofString "/tmp/c", .ofString "/tmp/b", .ofString "/tmp/a"] := by cbv
  have hunlike : Unlike ((new World.furnished).run meeting).named := by
    rw [hnamed]
    simp only [Unlike]
    decide
  exact ⟨hunlike, accounted _ _ hunlike, by cbv, by cbv, by cbv⟩

end Shared

end Registry
end NativeLaunch
