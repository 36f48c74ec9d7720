import NativeLaunch.Proofs.Adapter.Carried
import NativeLaunch.Proofs.CommandLine.Launching
import NativeLaunch.Proofs.FileTree.Spelling
import NativeLaunch.Proofs.Path.Texts

/-!
# The configuration file in the arguments

The server learns of its configuration file by the argument after `--config`.  A command line makes the
path of that file absolute, whether it was given or is that in the data directory; a plugin puts the name
after its host's data directory, and leaves it at that.  Whichever it is, the path is passed as text, while
the directories are those of its bytes.  This file defines:

* `ConfigChoice` and `Builds` — what the file is chosen by, and the routes from there to the arguments;
* `Rooted` — the arguments name the file by an absolute path;
* `Told` and `Faithful` — native calls that are told of a file, and that they are told of the right one.

The first fails for a host whose data directory is relative, and for no other (`rooted_iff`); the second
for a path that is no text (`faithful_iff`).
-/

namespace NativeLaunch

open CommandLine Plugin

/-! ## Routes -/

/-- What a configuration file is chosen by. -/
inductive ConfigChoice
  /-- Its own path, on a command line. -/
  | option (path : Path)
  /-- The data directory of a run: that of its command line, else of its settings file, else the default. -/
  | run (directory : Path)
  /-- The data directory of a plugin's host. -/
  | host (directory : Path)

namespace ConfigChoice

/-- Whether the path of the file itself was chosen. -/
def isOption : ConfigChoice → Bool
  | .option _ => true
  | _ => false

/-- Whether the path starts at the root in the end. -/
def isFixed : ConfigChoice → Bool
  | .host directory => directory.isAbsolute
  | _ => true

end ConfigChoice

/-- The routes to the arguments of a native call, for a configuration file whose directory has been seen
to. -/
inductive Builds : ConfigChoice → Path → Invocation → Prop
  | option {options : Options} {world prepared : World} {settings : Settings} {config path : Path}
      (given : options.config = some path)
      (reaches : Reaches options world settings config prepared) :
      Builds (.option path) config (invocationOf settings config)
  | run {options : Options} {world prepared : World} {settings : Settings} {config : Path}
      (absent : options.config = none)
      (reaches : Reaches options world settings config prepared) :
      Builds (.run settings.dataDirectory) config (invocationOf settings config)
  -- An init after anything else has seen to the data directory and made the worker, of which nothing
  -- that comes later makes another.
  | host {Held : Type} {launcher : Launcher Held} {host : PluginHost} {settings : List Adapter.Setting}
      {executor : Executor} {held : Held} {world made : World} {earlier later : List Happening}
      {before : Plugin Held} {worker : Worker}
      (reached : before = (fresh host settings executor held world).following launcher earlier)
      (unmade : before.adapter.worker = none)
      (prepares : before.world.ensureDataDirectory host.dataDirectory = (.ok (), made))
      (carries : ((fresh host settings executor held world).following launcher
        (earlier ++ .occurs .init :: later)).adapter.worker = some worker) :
      Builds (.host host.dataDirectory) (Adapter.configured host settings).configPath worker.invocation

section Routes

variable {choice : ConfigChoice} {config : Path} {invocation : Invocation}

/-- The path is passed as text, after its option. -/
theorem Builds.arguments_eq (h : Builds choice config invocation) :
    ∃ name more, invocation.arguments = name :: "--config" :: config.display :: more := by
  cases h with
  | option _ _ =>
      exact ⟨_, _, rfl⟩
  | run _ _ =>
      exact ⟨_, _, rfl⟩
  | host _ _ _ hcarries =>
      rw [invocation_of_following _ hcarries]
      exact ⟨_, _, rfl⟩

theorem isAbsolute_of_reaches {options : Options} {world prepared : World} {settings : Settings}
    (h : Reaches options world settings config prepared) : config.isAbsolute = true := by
  cases h with
  | intro _ _ hresolves _ =>
      exact isAbsolute_config hresolves

theorem Builds.isAbsolute_eq (h : Builds choice config invocation) :
    config.isAbsolute = choice.isFixed := by
  cases h with
  | option _ hreaches =>
      exact isAbsolute_of_reaches hreaches
  | run _ hreaches =>
      exact isAbsolute_of_reaches hreaches
  | @host _ _ host settings =>
      have hname : Path.slash ∉ Utf8.encode Invocation.configFileName := by decide
      rw [Adapter.configPath, Adapter.configured_eq]
      exact Path.isAbsolute_join host.dataDirectory hname

/-- Unless the file itself was chosen, it is `server.toml` in some directory. -/
theorem Builds.segments_eq (h : Builds choice config invocation) (hchoice : choice.isOption = false) :
    ∃ directory, config.segments = directory ++ [Utf8.encode "server.toml"] := by
  have hsome : Utf8.encode "server.toml" ≠ [] := by decide
  have hslash : Path.slash ∉ Utf8.encode "server.toml" := by decide
  cases h with
  | option _ _ =>
      cases hchoice
  | run habsent hreaches =>
      cases hreaches with
      | intro _ _ hresolves _ =>
          rw [config_of_not_given habsent hresolves, Path.ofString, ← Path.join_join _ _ hslash]
          exact ⟨_, Path.segments_join hsome hslash⟩
  | host _ _ _ _ =>
      exact ⟨_, Path.segments_join hsome hslash⟩

theorem Builds.fileName?_eq (h : Builds choice config invocation) (hchoice : choice.isOption = false) :
    (Path.ofString config.display).fileName? = some (Utf8.encode "server.toml") := by
  rcases h.segments_eq hchoice with ⟨directory, hsegments⟩
  refine Path.fileName?_of_segments ?_ (by decide) (by decide)
  rw [Path.segments_display, hsegments, List.map_append, List.map_singleton, Utf8.decodeLossy_encode,
    List.getLast?_concat]

/-- A host whose data directory can be seen to gets that far with its first init. -/
theorem builds_host {Held : Type} (launcher : Launcher Held) (host : PluginHost)
    (settings : List Adapter.Setting) (executor : Executor) (held : Held) {world made : World}
    (hprepares : world.ensureDataDirectory host.dataDirectory = (.ok (), made)) :
    Builds (.host host.dataDirectory) (Adapter.configured host settings).configPath
      (Adapter.configured host settings).invocation := by
  have hidle := idle_fresh host settings executor held world
  have huntended : Untended executor (fresh host settings executor held world) :=
    ⟨hidle.worker, hidle.task, rfl, rfl⟩
  have hhost : (fresh host settings executor held world).adapter.host = host := by
    rw [fresh, Adapter.configured_eq]
  rcases (huntended.tended_init launcher (hhost.symm ▸ hprepares)).worker with ⟨worker, hmade, _⟩
  have hreached : fresh host settings executor held world =
      (fresh host settings executor held world).following launcher [] := rfl
  have hworker : ((fresh host settings executor held world).following launcher
      ([] ++ .occurs .init :: [])).adapter.worker = some worker := hmade
  rw [← invocation_of_following launcher hworker]
  exact .host hreached hidle.worker hprepares hworker

end Routes

/-! ## Absolute paths -/

/-- The argument after the option starts at the root, and is a path to `server.toml` unless the file itself
was chosen. -/
def Rooted (choice : ConfigChoice) (invocation : Invocation) : Prop :=
  ∃ name text more, invocation.arguments = name :: "--config" :: text :: more ∧
    (Path.ofString text).isAbsolute = true ∧
    (choice.isOption = false → (Path.ofString text).fileName? = some (Utf8.encode "server.toml"))

/-- The arguments name the file by an absolute path but for a host with a relative data directory. -/
theorem rooted_iff {choice : ConfigChoice} {config : Path} {invocation : Invocation}
    (hbuilds : Builds choice config invocation) :
    Rooted choice invocation ↔ choice.isFixed = true := by
  obtain ⟨name, more, harguments⟩ := hbuilds.arguments_eq
  rw [← hbuilds.isAbsolute_eq, ← Path.isAbsolute_display]
  constructor
  · rintro ⟨_, text, _, htext, habsolute, _⟩
    rw [harguments] at htext
    simp only [List.cons.injEq] at htext
    rw [htext.2.2.1]
    exact habsolute
  · intro habsolute
    exact ⟨name, config.display, more, harguments, habsolute, hbuilds.fileName?_eq⟩

theorem rooted_stocked :
    Builds (.run (selecting.override {}).dataDirectory) (.ofString "/./server.toml")
        (invocationOf (selecting.override {}) (.ofString "/./server.toml")) ∧
      Rooted (.run (selecting.override {}).dataDirectory)
        (invocationOf (selecting.override {}) (.ofString "/./server.toml")) :=
  ⟨.run rfl reaches_stocked, (rooted_iff (.run rfl reaches_stocked)).2 rfl⟩

/-- Surroundings with directories whose names are no texts, though both are read as the same one. -/
def marked : World :=
  { World.furnished with
    files := ⟨[([Utf8.encode "tmp"], .directory), ([[0xFE]], .directory), ([[0xFF]], .directory)]⟩ }

theorem builds_relative :
    Builds (.host (.ofString "tmp")) (.ofString "tmp/server.toml")
      ⟨"limbo_bridge", "tmp/server.toml", []⟩ := by
  have hprepares : marked.ensureDataDirectory (.ofString "tmp") = (.ok (), marked) := by cbv
  exact builds_host returning ⟨"proxy", .ofString "tmp"⟩ [] .thread () hprepares

/-- A host may name its data directory from the working directory, and the server gets it from there. -/
theorem not_rooted_relative :
    Builds (.host (.ofString "tmp")) (.ofString "tmp/server.toml")
        ⟨"limbo_bridge", "tmp/server.toml", []⟩ ∧
      ¬ Rooted (.host (.ofString "tmp")) ⟨"limbo_bridge", "tmp/server.toml", []⟩ := by
  refine ⟨builds_relative, ?_⟩
  rintro ⟨_, text, _, htext, habsolute, _⟩
  cases htext
  exact absurd habsolute (by decide)

/-! ## Faithful paths -/

/-- The path is spelled by some text. -/
def Path.IsText (path : Path) : Prop := ∃ text, path.bytes = Utf8.encode text

/-- The argument after the option of the configuration file, as native code reads it. -/
def ArgumentBlock.config? (block : ArgumentBlock) : Option Bytes :=
  match block.strings with
  | _ :: option :: argument :: _ => if option = Utf8.encode "--config" then some argument else none
  | _ => none

/-- A route comes to the native call for a configuration file. -/
inductive Told : Path → ArgumentBlock → Prop
  | intro {Library : Type} {loader : Loader Library} {bundle : Bundle} {world called : World}
      {choice : ConfigChoice} {config path : Path} {invocation : Invocation} {library : Library}
      {block : ArgumentBlock} (builds : Builds choice config invocation)
      (completes : World.Completes loader bundle invocation world path library block called) :
      Told config block

/-- Two native calls are told of their configuration files byte by byte, and not of the same one unless it
is the same. -/
structure Faithful (config other : Path) (block otherBlock : ArgumentBlock) : Prop where
  exact : block.config? = some config.bytes
  otherExact : otherBlock.config? = some other.bytes
  apart : block.config? = otherBlock.config? → config = other

section Told

variable {config other : Path} {block otherBlock : ArgumentBlock}

theorem Builds.exists_told {Library : Type} {loader : Loader Library} {bundle : Bundle} {world : World}
    {choice : ConfigChoice} {invocation : Invocation} {status : ExitStatus}
    (h : Builds choice config invocation)
    (hreturns : (world.launch loader bundle invocation).1 = .ok status) :
    ∃ block, Told config block := by
  rcases World.halts_or_completes loader bundle invocation world with
    ⟨stage, failure, hhalts⟩ | ⟨path, library, block, called, hcompletes⟩
  · rcases hhalts.launch_eq with ⟨after, hlaunch, _⟩
    rw [hlaunch] at hreturns
    cases hreturns
  · exact ⟨block, .intro h hcompletes⟩

theorem Told.config?_eq (h : Told config block) :
    block.config? = some (Utf8.encode (Utf8.decodeLossy config.bytes)) := by
  cases h with
  | intro hbuilds hcompletes =>
      rcases hbuilds.arguments_eq with ⟨name, more, harguments⟩
      rw [ArgumentBlock.config?, strings_of_completes hcompletes, harguments]
      simp [Path.display]

theorem Told.exact_iff (h : Told config block) : block.config? = some config.bytes ↔ config.IsText := by
  rw [h.config?_eq, Option.some.injEq, Utf8.encode_decodeLossy_eq_iff, Path.IsText]

/-- Native calls are told of the right files if the paths are texts, and only then. -/
theorem faithful_iff (h : Told config block) (hother : Told other otherBlock) :
    Faithful config other block otherBlock ↔ config.IsText ∧ other.IsText := by
  constructor
  · intro hfaithful
    exact ⟨h.exact_iff.1 hfaithful.exact, hother.exact_iff.1 hfaithful.otherExact⟩
  · rintro ⟨htext, hotherText⟩
    have hexact := h.exact_iff.2 htext
    have hotherExact := hother.exact_iff.2 hotherText
    refine ⟨hexact, hotherExact, ?_⟩
    intro hsame
    rw [hexact, hotherExact, Option.some.injEq] at hsame
    cases config
    cases other
    cases hsame
    rfl

end Told

/-- The configuration file in a directory with such a name. -/
def markedConfig (mark : UInt8) : Path := (⟨[Path.slash, mark]⟩ : Path).join (.ofString "server.toml")

theorem launch_marked : ∀ config ∈ ["tmp/server.toml", "/\uFFFD/server.toml"],
    (marked.launch (World.answering 0) World.provisions ⟨"limbo_bridge", config, []⟩).1 =
      .ok ⟨0⟩ := by
  have hresolved : marked.host.resolve =
      .ok ⟨.linux, "x86_64", "lib", ".so", "/linux/x86_64/libpico_limbo.so"⟩ := rfl
  rw [List.forall_mem_cons, List.forall_mem_singleton]
  simp only [World.launch, World.resolveAndExtract, hresolved]
  exact ⟨by cbv, by cbv⟩

theorem exists_told_marked :
    (∃ block, Told (markedConfig 0xFE) block) ∧ ∃ block, Told (markedConfig 0xFF) block := by
  have hfirst : marked.ensureDataDirectory ⟨[Path.slash, 0xFE]⟩ = (.ok (), marked) := by cbv
  have hsecond : marked.ensureDataDirectory ⟨[Path.slash, 0xFF]⟩ = (.ok (), marked) := by cbv
  have hbuilds := builds_host returning ⟨"proxy", ⟨[Path.slash, 0xFE]⟩⟩ [] .thread () hfirst
  have hother := builds_host returning ⟨"proxy", ⟨[Path.slash, 0xFF]⟩⟩ [] .thread () hsecond
  have hlaunch := launch_marked "/\uFFFD/server.toml" (by decide)
  exact ⟨hbuilds.exists_told hlaunch, hother.exists_told hlaunch⟩

theorem faithful_texts :
    ∃ block otherBlock, Told (.ofString "/./server.toml") block ∧
      Told (.ofString "tmp/server.toml") otherBlock ∧
      Faithful (.ofString "/./server.toml") (.ofString "tmp/server.toml") block otherBlock := by
  rcases (Builds.run rfl reaches_stocked).exists_told launch_stocked with ⟨block, htold⟩
  rcases builds_relative.exists_told (launch_marked _ (by decide)) with ⟨otherBlock, hother⟩
  exact ⟨block, otherBlock, htold, hother, (faithful_iff htold hother).2 ⟨⟨_, rfl⟩, ⟨_, rfl⟩⟩⟩

/-- Of two directories whose names are no texts, the server gets the same path, and that of neither. -/
theorem not_faithful_marked :
    ∃ block otherBlock, Told (markedConfig 0xFE) block ∧ Told (markedConfig 0xFF) otherBlock ∧
      block.config? = otherBlock.config? ∧
      ¬ Faithful (markedConfig 0xFE) (markedConfig 0xFF) block otherBlock := by
  rcases exists_told_marked with ⟨⟨block, htold⟩, ⟨otherBlock, hother⟩⟩
  refine ⟨block, otherBlock, htold, hother, ?_, ?_⟩
  · rw [htold.config?_eq, hother.config?_eq]
    decide
  · intro hfaithful
    have hexact := hfaithful.exact
    rw [htold.config?_eq] at hexact
    exact absurd hexact (by decide)

end NativeLaunch
