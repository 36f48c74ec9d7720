import NativeLaunch.CommandLine.Options
import NativeLaunch.Proofs.Text.Utf8

/-!
# How command lines are spelled

The options of a command line can stand in any order, each in any of its spellings, and the reader
accepts these lines and no others.  This file defines:

* `Given` — an option with its path, or a switch;
* `Spelled` — the words that spell what is given, and the texts after the separator;
* `Sound` — nothing is given twice, no path is empty, and nobody asks for help or the version;
* `optionsOf` — the options that amount to what is given;
* `Steps` — what the first words of a line spell, and where the reading goes on.

`read_eq_ok_iff` says that these are what `Options.read` accepts and answers.
-/

namespace NativeLaunch
namespace CommandLine

/-! ## What is given -/

inductive Given
  | path (option : PathOption) (value : Bytes)
  | switch (switch : Switch)
deriving DecidableEq, Repr

namespace Given

/-- The option that is meant. -/
def option : Given → AnyOption
  | .path option _ => .path option
  | .switch turned => .switch turned

/-- A path has to be one, and a switch one that does not end the reading. -/
def Admissible : Given → Prop
  | .path _ value => value ≠ []
  | .switch turned => turned = .listArtifacts ∨ turned = .debug

end Given

structure Sound (givens : List Given) : Prop where
  once : (givens.map Given.option).Nodup
  admissible : ∀ given ∈ givens, given.Admissible

/-- The path that is given for an option. -/
def pathOf? (givens : List Given) (option : PathOption) : Option Path :=
  givens.findSome? fun
    | .path other value => if other = option then some ⟨value⟩ else none
    | .switch _ => none

/-- The options that amount to what is given, with what stands after the separator. -/
def optionsOf (givens : List Given) (native : List String) : Options where
  config := pathOf? givens .config
  dataDirectory := pathOf? givens .dataDirectory
  settings := pathOf? givens .settings
  nativesDirectory := pathOf? givens .nativesDirectory
  listArtifacts := .switch .listArtifacts ∈ givens
  debug := .switch .debug ∈ givens
  nativeArguments := native

/-! ## Words -/

/-- A word that does not look like an option; a single dash does not. -/
def IsPlain (word : Bytes) : Prop := word.head? ≠ some dash ∨ word = [dash]

/-- Letters in one word: switches, and at the end perhaps an option with its path, which is attached
directly or after an equals sign, or follows in the next word. -/
inductive Cluster : Bytes → List Given → Option PathOption → Prop
  | nil : Cluster [] [] none
  | switch {letter : UInt8} {switch : Switch} {letters : Bytes} {givens : List Given}
      {next : Option PathOption} (named : (letter, .switch switch) ∈ optionLetters)
      (rest : Cluster letters givens next) :
      Cluster (letter :: letters) (.switch switch :: givens) next
  | attached {letter : UInt8} {option : PathOption} {value : Bytes}
      (named : (letter, .path option) ∈ optionLetters) (direct : value.head? ≠ some equals)
      (given : value ≠ []) :
      Cluster (letter :: value) [.path option value] none
  | equals {letter : UInt8} {option : PathOption} {value : Bytes}
      (named : (letter, .path option) ∈ optionLetters) :
      Cluster (letter :: equals :: value) [.path option value] none
  | next {letter : UInt8} {option : PathOption} (named : (letter, .path option) ∈ optionLetters) :
      Cluster [letter] [] (some option)

/-- The words that spell what is given, with the separator and what stands after it, if anything does. -/
inductive Spelled : List Bytes → List Given → List String → Prop
  | nil : Spelled [] [] []
  | separator (native : List String) : Spelled ([dash, dash] :: native.map Utf8.encode) [] native
  | switch {name : String} {switch : Switch} {words : List Bytes} {givens : List Given}
      {native : List String} (named : (name, .switch switch) ∈ optionNames)
      (rest : Spelled words givens native) :
      Spelled ((dash :: dash :: Utf8.encode name) :: words) (.switch switch :: givens) native
  | equals {name : String} {option : PathOption} {value : Bytes} {words : List Bytes}
      {givens : List Given} {native : List String} (named : (name, .path option) ∈ optionNames)
      (rest : Spelled words givens native) :
      Spelled ((dash :: dash :: (Utf8.encode name ++ equals :: value)) :: words)
        (.path option value :: givens) native
  | next {name : String} {option : PathOption} {value : Bytes} {words : List Bytes}
      {givens : List Given} {native : List String} (named : (name, .path option) ∈ optionNames)
      (plain : IsPlain value) (rest : Spelled words givens native) :
      Spelled ((dash :: dash :: Utf8.encode name) :: value :: words) (.path option value :: givens)
        native
  | letters {letters : Bytes} {cluster : List Given} {words : List Bytes} {givens : List Given}
      {native : List String} (some : letters ≠ []) (clustered : Cluster letters cluster none)
      (rest : Spelled words givens native) :
      Spelled ((dash :: letters) :: words) (cluster ++ givens) native
  | lettersNext {letters : Bytes} {cluster : List Given} {option : PathOption} {value : Bytes}
      {words : List Bytes} {givens : List Given} {native : List String}
      (clustered : Cluster letters cluster (some option)) (plain : IsPlain value)
      (rest : Spelled words givens native) :
      Spelled ((dash :: letters) :: value :: words) (cluster ++ .path option value :: givens) native

/-! ## Looks of words -/

section Looks

variable {word name letters : Bytes} {attached : Option Bytes}

theorem ofBytes_of_plain (hplain : IsPlain word) : Word.ofBytes word = .plain := by
  rcases hplain with hhead | rfl
  · unfold Word.ofBytes
    split <;> simp_all [dash]
  · rfl

theorem ofBytes_long (hname : name ≠ []) :
    Word.ofBytes (dash :: dash :: name) = .long (splitAtEquals name).1 (splitAtEquals name).2 := by
  cases name with
  | nil =>
      exact absurd rfl hname
  | cons b name =>
      rfl

theorem ofBytes_letters (hsome : letters ≠ []) (hhead : letters.head? ≠ some dash) :
    Word.ofBytes (dash :: letters) = .letters letters := by
  cases letters with
  | nil =>
      exact absurd rfl hsome
  | cons letter letters =>
      have hletter : letter ≠ dash := by simpa using hhead
      unfold Word.ofBytes
      split <;> simp_all [dash]

/-- What a word is by its looks, it is by its bytes. -/
theorem ofBytes_cases (word : Bytes) :
    (word = [dash, dash] ∧ Word.ofBytes word = .separator) ∨
    (∃ rest, rest ≠ [] ∧ word = dash :: dash :: rest ∧
      Word.ofBytes word = .long (splitAtEquals rest).1 (splitAtEquals rest).2) ∨
    (∃ letters, letters ≠ [] ∧ word = dash :: letters ∧ Word.ofBytes word = .letters letters) ∨
    (IsPlain word ∧ Word.ofBytes word = .plain) := by
  match word with
  | [] =>
      exact .inr (.inr (.inr ⟨.inl (by simp), rfl⟩))
  | [b] =>
      by_cases hb : b = dash
      · exact .inr (.inr (.inr ⟨.inr (by rw [hb]), ofBytes_of_plain (.inr (by rw [hb]))⟩))
      · exact .inr (.inr (.inr ⟨.inl (by simpa using hb), ofBytes_of_plain (.inl (by simpa using hb))⟩))
  | b :: letter :: rest =>
      by_cases hb : b = dash
      · subst hb
        by_cases hletter : letter = dash
        · subst hletter
          cases rest with
          | nil =>
              exact .inl ⟨rfl, rfl⟩
          | cons c rest =>
              exact .inr (.inl ⟨c :: rest, by simp, rfl, rfl⟩)
        · exact .inr (.inr (.inl ⟨letter :: rest, by simp, rfl,
            ofBytes_letters (by simp) (by simpa using hletter)⟩))
      · exact .inr (.inr (.inr ⟨.inl (by simpa using hb), ofBytes_of_plain (.inl (by simpa using hb))⟩))

theorem dropWhile_append_of_not_mem (hname : equals ∉ name) (rest : Bytes) :
    (name ++ rest).dropWhile (· ≠ equals) = rest.dropWhile (· ≠ equals) := by
  refine List.dropWhile_append_of_pos ?_
  intro b hb
  simpa using ne_of_mem_of_not_mem hb hname

theorem splitAtEquals_of_not_mem (hname : equals ∉ name) : splitAtEquals name = (name, none) := by
  have hdrop := dropWhile_append_of_not_mem hname []
  rw [List.append_nil] at hdrop
  simp only [splitAtEquals, hdrop, List.dropWhile_nil]

theorem splitAtEquals_append (hname : equals ∉ name) (value : Bytes) :
    splitAtEquals (name ++ equals :: value) = (name, some value) := by
  have htake : (name ++ equals :: value).takeWhile (· ≠ equals) = name := by
    rw [List.takeWhile_append_of_pos]
    · simp
    · intro b hb
      simpa using ne_of_mem_of_not_mem hb hname
  simp only [splitAtEquals, dropWhile_append_of_not_mem hname, htake]
  simp

/-- What was split at an equals sign is put together with it. -/
theorem splitAtEquals_cases (text : Bytes) :
    splitAtEquals text = (text, none) ∨
      ∃ name value, splitAtEquals text = (name, some value) ∧ text = name ++ equals :: value := by
  unfold splitAtEquals
  split
  · exact .inl rfl
  · rename_i b value hdrop
    refine .inr ⟨_, value, rfl, ?_⟩
    have hb : b = equals := by
      have hfirst := List.head?_dropWhile_not (fun b => decide (b ≠ equals)) text
      rw [hdrop] at hfirst
      simpa using hfirst
    rw [hb] at hdrop
    rw [← hdrop, List.takeWhile_append_dropWhile]

end Looks

/-! ## Names and letters -/

theorem namedOption?_of_mem : ∀ entry ∈ optionNames,
    Utf8.encode entry.1 ≠ [] ∧ equals ∉ Utf8.encode entry.1 ∧
      namedOption? (Utf8.encode entry.1) = some entry.2 := by
  decide

theorem exists_name {name : Bytes} {option : AnyOption} (h : namedOption? name = some option) :
    ∃ text, (text, option) ∈ optionNames ∧ name = Utf8.encode text := by
  rcases Option.map_eq_some_iff.1 h with ⟨⟨text, option'⟩, hfind, rfl⟩
  exact ⟨text, List.mem_of_find?_eq_some hfind, by simpa [eq_comm] using List.find?_some hfind⟩

theorem lookup_of_mem : ∀ entry ∈ optionLetters,
    entry.1 ≠ dash ∧ optionLetters.lookup entry.1 = some entry.2 := by
  decide

theorem mem_of_lookup {letter : UInt8} {option : AnyOption}
    (h : optionLetters.lookup letter = some option) : (letter, option) ∈ optionLetters := by
  rcases List.lookup_eq_some_iff.1 h with ⟨before, after, hletters, _⟩
  rw [hletters]
  simp

/-! ## Results that are passed on -/

section Results

variable {ε α β : Type} {result : Except ε α}

theorem exists_of_map_ok {f : α → β} {answer : β} (h : result.map f = .ok answer) :
    ∃ value, result = .ok value ∧ f value = answer := by
  cases result with
  | error fault =>
      cases h
  | ok value =>
      cases h
      exact ⟨value, rfl, rfl⟩

theorem exists_of_bind_ok {f : α → Except ε β} {answer : β} (h : result.bind f = .ok answer) :
    ∃ value, result = .ok value ∧ f value = .ok answer := by
  cases result with
  | error fault =>
      cases h
  | ok value =>
      exact ⟨value, rfl, h⟩

end Results

/-! ## Options one by one -/

theorem pathOf?_concat (past : List Given) (given : Given) (option : PathOption) :
    pathOf? (past ++ [given]) option = (pathOf? past option).or (pathOf? [given] option) := by
  simp [pathOf?, List.findSome?_append]

theorem isSome_pathOf? {past : List Given} {option : PathOption} :
    (pathOf? past option).isSome = true ↔ .path option ∈ past.map Given.option := by
  rw [pathOf?, List.findSome?_isSome_iff, List.mem_map]
  constructor
  · rintro ⟨given, hmem, hsome⟩
    cases given with
    | path other value =>
        by_cases hother : other = option
        · exact ⟨_, hmem, by rw [hother]; rfl⟩
        · simp [hother] at hsome
    | switch turned =>
        simp at hsome
  · rintro ⟨given, hmem, hoption⟩
    cases given with
    | path other value =>
        cases hoption
        exact ⟨_, hmem, by simp⟩
    | switch turned =>
        cases hoption

theorem path?_optionsOf (past : List Given) (native : List String) (option : PathOption) :
    (optionsOf past native).path? option = pathOf? past option := by
  cases option <;> rfl

theorem sound_concat {past : List Given} {given : Given} :
    Sound (past ++ [given]) ↔
      Sound past ∧ given.option ∉ past.map Given.option ∧ given.Admissible := by
  constructor
  · rintro ⟨honce, hadmissible⟩
    rw [List.map_append, List.nodup_append] at honce
    refine ⟨⟨honce.1, fun other hother => hadmissible other (by simp [hother])⟩, ?_,
      hadmissible given (by simp)⟩
    intro hmem
    exact honce.2.2 _ hmem _ (by simp) rfl
  · rintro ⟨hpast, hnew, hgiven⟩
    refine ⟨?_, ?_⟩
    · rw [List.map_append, List.nodup_append]
      refine ⟨hpast.once, by simp, ?_⟩
      rintro option hoption _ hgiven' rfl
      simp only [List.map_cons, List.map_nil, List.mem_singleton] at hgiven'
      exact hnew (hgiven' ▸ hoption)
    · intro other hother
      rcases List.mem_append.1 hother with hother | hother
      · exact hpast.admissible other hother
      · rw [List.mem_singleton.1 hother]
        exact hgiven

theorem Sound.of_append {past givens : List Given} (h : Sound (past ++ givens)) : Sound past := by
  refine ⟨?_, fun given hgiven => h.admissible given (List.mem_append_left _ hgiven)⟩
  have honce := h.once
  rw [List.map_append, List.nodup_append] at honce
  exact honce.1

theorem option_switch_mem {past : List Given} {turned : Switch} :
    (Given.switch turned).option ∈ past.map Given.option ↔ Given.switch turned ∈ past := by
  rw [List.mem_map]
  constructor
  · rintro ⟨given, hmem, hoption⟩
    cases given with
    | path option value =>
        cases hoption
    | switch other =>
        cases hoption
        exact hmem
  · intro hmem
    exact ⟨_, hmem, rfl⟩

theorem Sound.of_append_cons {past givens : List Given} {given : Given}
    (h : Sound (past ++ given :: givens)) : Sound (past ++ [given]) := by
  rw [List.append_cons] at h
  exact h.of_append

section Steps

variable {past : List Given} {next : Options} (hpast : Sound past)
include hpast

/-- To take a path is to have it given after all else. -/
theorem give_optionsOf {option : PathOption} {value : Bytes} :
    (optionsOf past []).give option value = .ok next ↔
      Sound (past ++ [.path option value]) ∧ next = optionsOf (past ++ [.path option value]) [] := by
  rw [sound_concat]
  unfold Options.give
  rw [path?_optionsOf]
  by_cases hvalue : value = []
  · simp [hvalue, Given.Admissible]
  by_cases htwice : (pathOf? past option).isSome = true
  · simp [hvalue, htwice, Given.option, isSome_pathOf?.1 htwice]
  · -- An option without a path yet is given this one, and it is the first one found.
    have hnone : pathOf? past option = none := by simpa using htwice
    have hnew : (Given.path option value).option ∉ past.map Given.option :=
      fun hmem => htwice (isSome_pathOf?.2 hmem)
    have hset : (optionsOf past []).setPath option ⟨value⟩ =
        optionsOf (past ++ [.path option value]) [] := by
      cases option <;>
        simp [optionsOf, Options.setPath, pathOf?_concat, hnone] <;> simp [pathOf?]
    simp only [hvalue, htwice, if_false, hset, Except.ok.injEq, Given.Admissible, hpast, hnew, Ne,
      not_false_eq_true, true_and, Bool.false_eq_true, eq_comm]

/-- To take a switch is to have it given after all else. -/
theorem turnOn_optionsOf {turned : Switch} :
    (optionsOf past []).turnOn turned = .ok next ↔
      Sound (past ++ [.switch turned]) ∧ next = optionsOf (past ++ [.switch turned]) [] := by
  rw [sound_concat, option_switch_mem]
  cases turned with
  | listArtifacts =>
      by_cases htwice : Given.switch .listArtifacts ∈ past
      · simp [Options.turnOn, optionsOf, htwice]
      · simp [Options.turnOn, optionsOf, htwice, hpast, Given.Admissible, pathOf?_concat, eq_comm]
        simp [pathOf?]
  | debug =>
      by_cases htwice : Given.switch .debug ∈ past
      · simp [Options.turnOn, optionsOf, htwice]
      · simp [Options.turnOn, optionsOf, htwice, hpast, Given.Admissible, pathOf?_concat, eq_comm]
        simp [pathOf?]
  | version =>
      simp [Options.turnOn, Given.Admissible]
  | help =>
      simp [Options.turnOn, Given.Admissible]

end Steps

/-! ## Words of letters -/

theorem Cluster.head?_ne {letters : Bytes} {cluster : List Given} {next : Option PathOption}
    (h : Cluster letters cluster next) : letters.head? ≠ some dash := by
  cases h with
  | nil =>
      simp
  | switch hnamed _ =>
      simpa using (lookup_of_mem _ hnamed).1
  | attached hnamed _ _ =>
      simpa using (lookup_of_mem _ hnamed).1
  | equals hnamed =>
      simpa using (lookup_of_mem _ hnamed).1
  | next hnamed =>
      simpa using (lookup_of_mem _ hnamed).1

/-- Letters that spell something sound are taken as it. -/
theorem takeLetters_of_cluster {past cluster : List Given} (hpast : Sound past) {letters : Bytes}
    {next : Option PathOption} (h : Cluster letters cluster next) (hsound : Sound (past ++ cluster)) :
    (optionsOf past []).takeLetters letters = .ok (optionsOf (past ++ cluster) [], next) := by
  induction h generalizing past with
  | nil =>
      simp [Options.takeLetters]
  | @switch letter turned letters givens next hnamed _ ih =>
      have hturned := hsound.of_append_cons
      rw [List.append_cons] at hsound ⊢
      rw [Options.takeLetters, (lookup_of_mem _ hnamed).2]
      simp only [(turnOn_optionsOf hpast).2 ⟨hturned, rfl⟩]
      exact ih hturned hsound
  | @attached letter option value hnamed hdirect hsome =>
      rw [Options.takeLetters, (lookup_of_mem _ hnamed).2]
      simp only
      split
      · exact absurd rfl hsome
      · exact absurd rfl hdirect
      · rw [(give_optionsOf hpast).2 ⟨hsound, rfl⟩]
        rfl
  | @equals letter option value hnamed =>
      rw [Options.takeLetters, (lookup_of_mem _ hnamed).2]
      show ((optionsOf past []).give option value).map (·, none) = _
      rw [(give_optionsOf hpast).2 ⟨hsound, rfl⟩]
      rfl
  | @next letter option hnamed =>
      rw [Options.takeLetters, (lookup_of_mem _ hnamed).2]
      simp

/-- Letters that are taken spell what they are taken as. -/
theorem cluster_of_takeLetters {past : List Given} (hpast : Sound past) {letters : Bytes}
    {more : Options} {next : Option PathOption}
    (h : (optionsOf past []).takeLetters letters = .ok (more, next)) :
    ∃ cluster, Cluster letters cluster next ∧ Sound (past ++ cluster) ∧
      more = optionsOf (past ++ cluster) [] := by
  induction letters generalizing past with
  | nil =>
      rw [Options.takeLetters] at h
      cases h
      exact ⟨[], .nil, by simpa using hpast, by simp⟩
  | cons letter letters ih =>
      rw [Options.takeLetters] at h
      split at h
      · cases h
      · rename_i turned hlookup
        split at h
        · cases h
        · rename_i turnedOn hturn
          rcases (turnOn_optionsOf hpast).1 hturn with ⟨hsound, rfl⟩
          rcases ih hsound h with ⟨cluster, hcluster, hmore⟩
          rw [List.append_assoc] at hmore
          exact ⟨_, .switch (mem_of_lookup hlookup) hcluster, hmore⟩
      · rename_i option hlookup
        have hnamed := mem_of_lookup hlookup
        -- The option is the last letter, or has its path after a sign, or right after the letter.
        split at h
        · cases h
          exact ⟨[], .next hnamed, by simpa using hpast, by simp⟩
        · rcases exists_of_map_ok h with ⟨given, hgive, hanswer⟩
          cases hanswer
          exact ⟨_, .equals hnamed, (give_optionsOf hpast).1 hgive⟩
        · rename_i hsome hdirect
          rcases exists_of_map_ok h with ⟨given, hgive, hanswer⟩
          cases hanswer
          refine ⟨_, .attached hnamed ?_ hsome, (give_optionsOf hpast).1 hgive⟩
          intro hhead
          rcases List.head?_eq_some_iff.1 hhead with ⟨value, hvalue⟩
          exact hdirect value hvalue

/-! ## Whole lines -/

section Equations

variable {options : Options} {word : Bytes} {rest : List Bytes}

theorem readFrom_separator : options.readFrom none ([dash, dash] :: rest) = options.takeNative rest := by
  unfold Options.readFrom
  rfl

theorem readFrom_long {name : Bytes} {attached : Option Bytes}
    (hlooks : Word.ofBytes word = .long name attached) :
    options.readFrom none (word :: rest) =
      (options.takeNamed name attached).bind fun (more, next) => more.readFrom next rest := by
  rw [Options.readFrom.eq_def]
  simp only [hlooks]
  cases options.takeNamed name attached <;> rfl

theorem readFrom_name {name : String} {option : AnyOption} (hnamed : (name, option) ∈ optionNames) :
    options.readFrom none ((dash :: dash :: Utf8.encode name) :: rest) =
      (options.takeNamed (Utf8.encode name) none).bind fun (more, next) => more.readFrom next rest := by
  obtain ⟨hname, hequals, -⟩ := namedOption?_of_mem _ hnamed
  rw [readFrom_long (ofBytes_long hname), splitAtEquals_of_not_mem hequals]

theorem readFrom_name_equals {name : String} {option : AnyOption} {value : Bytes}
    (hnamed : (name, option) ∈ optionNames) :
    options.readFrom none ((dash :: dash :: (Utf8.encode name ++ equals :: value)) :: rest) =
      (options.takeNamed (Utf8.encode name) (some value)).bind
        fun (more, next) => more.readFrom next rest := by
  obtain ⟨-, hequals, -⟩ := namedOption?_of_mem _ hnamed
  rw [readFrom_long (ofBytes_long (by simp)), splitAtEquals_append hequals]

theorem readFrom_letters {letters : Bytes} (hlooks : Word.ofBytes word = .letters letters) :
    options.readFrom none (word :: rest) =
      (options.takeLetters letters).bind fun (more, next) => more.readFrom next rest := by
  rw [Options.readFrom.eq_def]
  simp only [hlooks]
  cases options.takeLetters letters <;> rfl

theorem readFrom_none_plain (hlooks : Word.ofBytes word = .plain) :
    options.readFrom none (word :: rest) = .error .misuse := by
  rw [Options.readFrom.eq_def]
  simp only [hlooks]

theorem readFrom_some_plain {option : PathOption} (hlooks : Word.ofBytes word = .plain) :
    options.readFrom (some option) (word :: rest) =
      (options.give option word).bind fun more => more.readFrom none rest := by
  rw [Options.readFrom.eq_def]
  simp only [hlooks]
  cases options.give option word <;> rfl

theorem readFrom_some_of_ne {option : PathOption} (hlooks : Word.ofBytes word ≠ .plain) :
    options.readFrom (some option) (word :: rest) = .error .misuse := by
  rw [Options.readFrom.eq_def]
  simp only

end Equations

/-- What follows the separator has to be text, and is not read any further. -/
theorem takeNative_iff {past : List Given} {words : List Bytes} {final : Options} :
    (optionsOf past []).takeNative words = .ok final ↔
      ∃ native, words = native.map Utf8.encode ∧ final = optionsOf past native := by
  unfold Options.takeNative
  cases hmap : words.mapM Utf8.decode? with
  | none =>
      simp only [reduceCtorEq, false_iff]
      rintro ⟨native, hwords, _⟩
      rw [Utf8.mapM_decode?_eq_some_iff.2 hwords] at hmap
      cases hmap
  | some native =>
      have hwords := Utf8.mapM_decode?_eq_some_iff.1 hmap
      constructor
      · intro h
        cases h
        exact ⟨native, hwords, rfl⟩
      · rintro ⟨native', hwords', rfl⟩
        rw [Utf8.mapM_decode?_eq_some_iff.2 hwords'] at hmap
        cases hmap
        rfl

section Named

variable {name : String} {turned : Switch} {option : PathOption} {past : List Given} {value : Bytes}

theorem takeNamed_switch (hnamed : (name, .switch turned) ∈ optionNames)
    (hsound : Sound (past ++ [.switch turned])) :
    (optionsOf past []).takeNamed (Utf8.encode name) none =
      .ok (optionsOf (past ++ [.switch turned]) [], none) := by
  have hoption := (namedOption?_of_mem _ hnamed).2.2
  simp only [Options.takeNamed, hoption, (turnOn_optionsOf hsound.of_append).2 ⟨hsound, rfl⟩]
  rfl

theorem takeNamed_equals (hnamed : (name, .path option) ∈ optionNames)
    (hsound : Sound (past ++ [.path option value])) :
    (optionsOf past []).takeNamed (Utf8.encode name) (some value) =
      .ok (optionsOf (past ++ [.path option value]) [], none) := by
  have hoption := (namedOption?_of_mem _ hnamed).2.2
  simp only [Options.takeNamed, hoption, (give_optionsOf hsound.of_append).2 ⟨hsound, rfl⟩]
  rfl

theorem takeNamed_next (hnamed : (name, .path option) ∈ optionNames) :
    (optionsOf past []).takeNamed (Utf8.encode name) none = .ok (optionsOf past [], some option) := by
  have hoption := (namedOption?_of_mem _ hnamed).2.2
  simp only [Options.takeNamed, hoption]

end Named

/-- What is spelled is read. -/
theorem readFrom_of_spelled {words : List Bytes} {givens : List Given} {native : List String}
    (h : Spelled words givens native) {past : List Given} (hsound : Sound (past ++ givens)) :
    (optionsOf past []).readFrom none words = .ok (optionsOf (past ++ givens) native) := by
  -- What the words before have given stands in the options, so the past grows along the line.
  induction h generalizing past with
  | nil =>
      simp [Options.readFrom]
  | separator native =>
      rw [readFrom_separator]
      exact takeNative_iff.2 ⟨native, rfl, by simp⟩
  | @switch name turned words givens native hnamed _ ih =>
      have hturned := hsound.of_append_cons
      rw [List.append_cons past] at hsound ⊢
      rw [readFrom_name hnamed, takeNamed_switch hnamed hturned]
      exact ih hsound
  | @equals name option value words givens native hnamed _ ih =>
      have hgiven := hsound.of_append_cons
      rw [List.append_cons past] at hsound ⊢
      rw [readFrom_name_equals hnamed, takeNamed_equals hnamed hgiven]
      exact ih hsound
  | @next name option value words givens native hnamed hplain _ ih =>
      have hgiven := hsound.of_append_cons
      rw [List.append_cons past] at hsound ⊢
      rw [readFrom_name hnamed, takeNamed_next hnamed]
      show (optionsOf past []).readFrom (some option) (value :: words) = _
      rw [readFrom_some_plain (ofBytes_of_plain hplain),
        (give_optionsOf hgiven.of_append).2 ⟨hgiven, rfl⟩]
      exact ih hsound
  | @letters letters cluster words givens native hsome hcluster _ ih =>
      rw [← List.append_assoc] at hsound ⊢
      have hclustered := hsound.of_append
      rw [readFrom_letters (ofBytes_letters hsome hcluster.head?_ne),
        takeLetters_of_cluster hclustered.of_append hcluster hclustered]
      exact ih hsound
  | @lettersNext letters cluster option value words givens native hcluster hplain _ ih =>
      have hsome : letters ≠ [] := by
        rintro rfl
        cases hcluster
      rw [← List.append_assoc] at hsound ⊢
      have hclustered := hsound.of_append
      have hgiven := hsound.of_append_cons
      rw [List.append_cons (past ++ cluster)] at hsound ⊢
      rw [readFrom_letters (ofBytes_letters hsome hcluster.head?_ne),
        takeLetters_of_cluster hclustered.of_append hcluster hclustered]
      show (optionsOf (past ++ cluster) []).readFrom (some option) (value :: words) = _
      rw [readFrom_some_plain (ofBytes_of_plain hplain),
        (give_optionsOf hclustered).2 ⟨hgiven, rfl⟩]
      exact ih hsound

/-- What an option named in full is taken for. -/
theorem takeNamed_cases {past : List Given} (hpast : Sound past) {rest : Bytes} {more : Options}
    {next : Option PathOption}
    (h : (optionsOf past []).takeNamed (splitAtEquals rest).1 (splitAtEquals rest).2 = .ok (more, next)) :
    (∃ name turned, (name, .switch turned) ∈ optionNames ∧ rest = Utf8.encode name ∧ next = none ∧
      Sound (past ++ [.switch turned]) ∧ more = optionsOf (past ++ [.switch turned]) []) ∨
    (∃ name option value, (name, .path option) ∈ optionNames ∧
      rest = Utf8.encode name ++ equals :: value ∧ next = none ∧
      Sound (past ++ [.path option value]) ∧ more = optionsOf (past ++ [.path option value]) []) ∨
    ∃ name option, (name, .path option) ∈ optionNames ∧ rest = Utf8.encode name ∧
      next = some option ∧ more = optionsOf past [] := by
  rcases splitAtEquals_cases rest with hsplit | ⟨spelled, value, hsplit, hrest⟩
  · rw [hsplit] at h
    unfold Options.takeNamed at h
    split at h
    · rename_i hattached
      cases hattached
    · rename_i option hoption _
      cases h
      rcases exists_name hoption with ⟨name, hnamed, hname⟩
      exact .inr (.inr ⟨name, option, hnamed, hname, rfl, rfl⟩)
    · rename_i turned hoption _
      rcases exists_name hoption with ⟨name, hnamed, hname⟩
      rcases exists_of_map_ok h with ⟨given, hturn, hanswer⟩
      cases hanswer
      rcases (turnOn_optionsOf hpast).1 hturn with ⟨hsound, hmore⟩
      exact .inl ⟨name, turned, hnamed, hname, rfl, hsound, hmore⟩
    · cases h
    · cases h
  · rw [hsplit] at h
    unfold Options.takeNamed at h
    split at h
    · rename_i option value' hoption hattached
      cases hattached
      rcases exists_name hoption with ⟨name, hnamed, hname⟩
      rcases exists_of_map_ok h with ⟨given, hgive, hanswer⟩
      cases hanswer
      rcases (give_optionsOf hpast).1 hgive with ⟨hsound, hmore⟩
      exact .inr (.inl ⟨name, option, value, hnamed, by rw [hrest, ← hname], rfl, hsound, hmore⟩)
    · rename_i hattached
      cases hattached
    · rename_i hattached
      cases hattached
    · cases h
    · cases h

/-- What an option that waits for its path is given. -/
theorem readFrom_some_cases {options final : Options} {option : PathOption} {words : List Bytes}
    (h : options.readFrom (some option) words = .ok final) :
    ∃ value rest more, words = value :: rest ∧ IsPlain value ∧
      options.give option value = .ok more ∧ more.readFrom none rest = .ok final := by
  cases words with
  | nil =>
      cases h
  | cons word rest =>
      rcases ofBytes_cases word with ⟨_, hlooks⟩ | ⟨_, _, _, hlooks⟩ | ⟨_, _, _, hlooks⟩ |
        ⟨hplain, hlooks⟩
      · rw [readFrom_some_of_ne (by simp [hlooks])] at h
        cases h
      · rw [readFrom_some_of_ne (by simp [hlooks])] at h
        cases h
      · rw [readFrom_some_of_ne (by simp [hlooks])] at h
        cases h
      · rw [readFrom_some_plain hlooks] at h
        rcases exists_of_bind_ok h with ⟨more, hgive, hrest⟩
        exact ⟨word, rest, more, rfl, hplain, hgive, hrest⟩

/-- What the first words of a line spell, and that the reading goes on after them. -/
structure Steps (past : List Given) (words : List Bytes) (final : Options) (spelt : List Given)
    (after : List Bytes) : Prop where
  shorter : after.length < words.length
  sound : Sound (past ++ spelt)
  spells : ∀ givens native, Spelled after givens native → Spelled words (spelt ++ givens) native
  continues : (optionsOf (past ++ spelt) []).readFrom none after = .ok final

section Reading

variable {past : List Given} {word : Bytes} {rest : List Bytes} {final : Options}
variable (hpast : Sound past) (h : (optionsOf past []).readFrom none (word :: rest) = .ok final)
include hpast h

/-- A word that names an option in full, and the next one where it is needed for the path. -/
theorem steps_of_long {name : Bytes} (hword : word = dash :: dash :: name)
    (hlooks : Word.ofBytes word = .long (splitAtEquals name).1 (splitAtEquals name).2) :
    ∃ spelt after, Steps past (word :: rest) final spelt after := by
  rw [readFrom_long hlooks] at h
  rcases exists_of_bind_ok h with ⟨⟨more, next⟩, htake, hrest⟩
  rcases takeNamed_cases hpast htake with
    ⟨text, turned, hnamed, hspelled, rfl, hsound, rfl⟩ |
    ⟨text, option, value, hnamed, hspelled, rfl, hsound, rfl⟩ |
    ⟨text, option, hnamed, hspelled, rfl, rfl⟩
  · refine ⟨_, rest, by simp, hsound, fun givens native hspells => ?_, hrest⟩
    rw [hword, hspelled]
    exact .switch hnamed hspells
  · refine ⟨_, rest, by simp, hsound, fun givens native hspells => ?_, hrest⟩
    rw [hword, hspelled]
    exact .equals hnamed hspells
  · rcases readFrom_some_cases hrest with ⟨value, after, more, rfl, hplain, hgive, hafter⟩
    rcases (give_optionsOf hpast).1 hgive with ⟨hsound, rfl⟩
    refine ⟨_, after, by simp only [List.length_cons]; omega, hsound, fun givens native hspells => ?_, hafter⟩
    rw [hword, hspelled]
    exact .next hnamed hplain hspells

/-- A word of letters, and the next one where the last letter needs it. -/
theorem steps_of_letters {letters : Bytes} (hletters : letters ≠ []) (hword : word = dash :: letters)
    (hlooks : Word.ofBytes word = .letters letters) :
    ∃ spelt after, Steps past (word :: rest) final spelt after := by
  rw [readFrom_letters hlooks] at h
  rcases exists_of_bind_ok h with ⟨⟨more, next⟩, htake, hrest⟩
  rcases cluster_of_takeLetters hpast htake with ⟨cluster, hcluster, hsound, rfl⟩
  cases next with
  | none =>
      refine ⟨cluster, rest, by simp, hsound, fun givens native hspells => ?_, hrest⟩
      rw [hword]
      exact .letters hletters hcluster hspells
  | some option =>
      rcases readFrom_some_cases hrest with ⟨value, after, more, rfl, hplain, hgive, hafter⟩
      rcases (give_optionsOf hsound).1 hgive with ⟨hgiven, rfl⟩
      rw [List.append_assoc] at hgiven hafter
      refine ⟨_, after, by simp only [List.length_cons]; omega, hgiven, fun givens native hspells => ?_, hafter⟩
      rw [hword, List.append_assoc]
      exact .lettersNext hcluster hplain hspells

end Reading

/-- What is read is spelled. -/
theorem spelled_of_readFrom {words : List Bytes} {past : List Given} (hpast : Sound past)
    {final : Options} (h : (optionsOf past []).readFrom none words = .ok final) :
    ∃ givens native, Spelled words givens native ∧ Sound (past ++ givens) ∧
      final = optionsOf (past ++ givens) native := by
  -- An option with its path in the next word takes two words at a time.
  induction hlength : words.length using Nat.strongRecOn generalizing words past with
  | ind length ih =>
      have step (spelt : List Given) (after : List Bytes) (hstep : Steps past words final spelt after) :
          ∃ givens native, Spelled words givens native ∧ Sound (past ++ givens) ∧
            final = optionsOf (past ++ givens) native := by
        rcases ih _ (hlength ▸ hstep.shorter) hstep.sound hstep.continues rfl with
          ⟨givens, native, hspells, hall, hfinal⟩
        rw [List.append_assoc] at hall hfinal
        exact ⟨_, native, hstep.spells givens native hspells, hall, hfinal⟩
      cases words with
      | nil =>
          cases h
          exact ⟨[], [], .nil, by simpa using hpast, by simp⟩
      | cons word rest =>
          rcases ofBytes_cases word with ⟨hword, _⟩ | ⟨name, _, hword, hlooks⟩ |
            ⟨letters, hletters, hword, hlooks⟩ | ⟨_, hlooks⟩
          · rw [hword, readFrom_separator] at h
            rcases takeNative_iff.1 h with ⟨native, hrest, hfinal⟩
            rw [hword, hrest]
            exact ⟨[], native, .separator native, by simpa using hpast, by simpa using hfinal⟩
          · rcases steps_of_long hpast h hword hlooks with ⟨spelt, after, hstep⟩
            exact step spelt after hstep
          · rcases steps_of_letters hpast h hletters hword hlooks with ⟨spelt, after, hstep⟩
            exact step spelt after hstep
          · rw [readFrom_none_plain hlooks] at h
            cases h

theorem sound_nil : Sound [] := ⟨by simp, by simp⟩

/-- The command lines that are accepted are those that spell something sound, and they are read as it. -/
theorem read_eq_ok_iff {words : List Bytes} {options : Options} :
    Options.read words = .ok options ↔
      ∃ givens native, Spelled words givens native ∧ Sound givens ∧
        options = optionsOf givens native := by
  constructor
  · intro h
    exact spelled_of_readFrom sound_nil h
  · rintro ⟨givens, native, hspelled, hsound, rfl⟩
    exact @readFrom_of_spelled _ _ _ hspelled [] hsound

end CommandLine
end NativeLaunch
