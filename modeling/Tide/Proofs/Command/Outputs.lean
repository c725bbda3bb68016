import Tide.Command
import Tide.Machine
import Tide.Proofs.Context.Compilation
import Tide.Proofs.Path

/-!
# Where a run writes

A run of the command line writes the generated code and the replay log and hands a path for the
executable to the compiler.  A host that keeps a record shows which paths these are.  Without paths
on the command line they are made from the path of the source, and most of them differ from it.
-/

namespace Tide

/-- What a run leaves behind outside the compiler. -/
inductive Effect where
  | wrote (path text : String)
  | started (program : String) (words : List String)
  deriving DecidableEq

/-- Work on a host that keeps a record. -/
abbrev Recording (σ : Type) := StateM (σ × List Effect)

namespace Recording

variable {σ α β ε : Type}

/-- Work of the host, of which there is no record. -/
def lift (action : StateM σ α) : Recording σ α := fun (machine, record) =>
  let (value, machine) := action.run machine
  (value, (machine, record))

def note (effect : Effect) : Recording σ Unit :=
  modify fun (machine, record) => (machine, record ++ [effect])

end Recording

/-- The host, with a record of the files it writes and the programs it starts. -/
def Host.recorded {σ : Type} (host : Host (StateM σ)) : Host (Recording σ) where
  isFile path := Recording.lift (host.isFile path)
  read path := Recording.lift (host.read path)
  write path text := do
    Recording.note (.wrote path text)
    Recording.lift (host.write path text)
  temporary := Recording.lift host.temporary
  remove path := Recording.lift (host.remove path)
  start program words := do
    Recording.note (.started program words)
    Recording.lift (host.start program words)
  note notice := Recording.lift (host.note notice)

/-- The record of a run. -/
def Command.effects {σ : Type} (host : Host (StateM σ)) (palette : Text.Palette)
    (compiler : String) (arguments : Arguments) (machine : σ) : List Effect :=
  ((run host.recorded palette compiler arguments).run.run (machine, [])).2.2

/-! ## What an action does to the record -/

/-- The action leads from a record with `before` to one with `after`, whatever the host does. -/
def Ensures {σ α : Type} (before after : List Effect → Prop) (action : Recording σ α) : Prop :=
  ∀ machine record, before record → after (action.run (machine, record)).2.2

/-- The action leaves a record as it should be. -/
abbrev Keeps {σ α : Type} (fine : List Effect → Prop) (action : Recording σ α) : Prop :=
  Ensures fine fine action

namespace Ensures

variable {σ α β ε : Type} {before between after fine : List Effect → Prop}

theorem pure (value : α) : Keeps fine (Pure.pure value : Recording σ α) :=
  fun _ _ hfine => hfine

theorem lift (action : StateM σ α) : Keeps fine (Recording.lift action) :=
  fun _ _ hfine => hfine

theorem bind {action : Recording σ α} {next : α → Recording σ β}
    (haction : Ensures before between action)
    (hnext : ∀ value, Ensures between after (next value)) :
    Ensures before after (action >>= next) :=
  fun machine record hbefore => hnext _ _ _ (haction machine record hbefore)

/-- Work of the host goes on with a value that it gives. -/
theorem liftThen {action : StateM σ α} {next : α → Recording σ β}
    (hnext : ∀ machine, Ensures before after (next (action.run machine).1)) :
    Ensures before after (Recording.lift action >>= next) :=
  fun machine _ hbefore => hnext machine _ _ hbefore

theorem throw (error : ε) : Keeps fine (throw error : ExceptT ε (Recording σ) α).run :=
  pure _

theorem done (value : α) : Keeps fine (Pure.pure value : ExceptT ε (Recording σ) α).run :=
  pure _

theorem inner {action : Recording σ α} (haction : Ensures before after action) :
    Ensures before after (ExceptT.lift action : ExceptT ε (Recording σ) α).run :=
  bind haction fun _ => pure _

theorem innerThen {action : Recording σ α} {next : α → ExceptT ε (Recording σ) β}
    (haction : Ensures before between action)
    (hnext : ∀ value, Ensures between after (next value).run) :
    Ensures before after ((ExceptT.lift action : ExceptT ε (Recording σ) α) >>= next).run := by
  rw [ExceptT.run_bind, ExceptT.run_lift, map_eq_pure_bind, bind_assoc]
  exact bind haction hnext

/-- After a failure nothing follows, so the record has to be as it should be by then. -/
theorem andThen {action : ExceptT ε (Recording σ) α} {next : α → ExceptT ε (Recording σ) β}
    (haction : Ensures before fine action.run) (hnext : ∀ value, Keeps fine (next value).run) :
    Ensures before fine (action >>= next).run := by
  rw [ExceptT.run_bind]
  refine bind haction fun result => ?_
  cases result with
  | ok value => exact hnext value
  | error error => exact pure _

theorem adapt {δ : Type} {action : ExceptT ε (Recording σ) α}
    (haction : Ensures before after action.run) (change : ε → δ) :
    Ensures before after (action.adapt change).run :=
  bind haction fun _ => pure _

theorem noteAll (host : Host (StateM σ)) (notices : List Notice) :
    Keeps fine (host.recorded.noteAll notices) := by
  induction notices with
  | nil => exact pure ()
  | cons notice rest ih => exact bind (lift _) fun _ => ih

theorem deliver (host : Host (StateM σ)) {noted : Noted α} {next : α → Recording σ β}
    (hnext : Ensures before after (next noted.value)) :
    Ensures before after (host.recorded.deliver noted >>= next) :=
  fun machine record hbefore => hnext _ _ (noteAll host noted.notices machine record hbefore)

/-- What follows a compilation has what comes out of it. -/
theorem compile (host : Host (StateM σ)) {palette : Text.Palette} {arguments : Arguments}
    {source : Source} {next : Compilation × Context → ExceptT CommandFailure (Recording σ) β}
    {result : Except CompileError Compilation} {context : Context}
    (houtcome : source.compile.outcome (.create palette arguments.options .builtin) =
      (result, context))
    (herror : ∀ error, result = .error error → ∀ record, before record → after record)
    (hnext : ∀ compilation, result = .ok compilation →
      Ensures before after (next (compilation, context)).run) :
    Ensures before after (Command.compile host.recorded palette arguments source >>= next).run := by
  rw [ExceptT.run_bind, Command.compile, ExceptT.run_bind, ExceptT.run_lift, map_eq_pure_bind,
    bind_assoc, bind_assoc]
  apply deliver
  rw [Compiling.outcome] at houtcome
  rw [houtcome, pure_bind]
  cases result with
  | error error => exact fun _ => herror error rfl
  | ok compilation => exact hnext compilation rfl

theorem run_load (host : Host (StateM σ)) (path : String) :
    (host.recorded.load path).run =
      Recording.lift (host.read path) >>= fun result =>
        Pure.pure (result.mapError (.access path)) := by
  change (ExceptT.lift (Recording.lift (host.read path)) >>= _).run = _
  rw [ExceptT.run_bind, ExceptT.run_lift, map_eq_pure_bind, bind_assoc]
  refine bind_congr fun result => ?_
  cases result <;> rfl

/-- What follows the reading of a file has the text that the host gives. -/
theorem load_run (host : Host (StateM σ)) {path : String} {machine : σ} {record : List Effect}
    {next : String → ExceptT CommandFailure (Recording σ) β}
    {result : Except SystemFault String} (hread : ((host.read path).run machine).1 = result)
    (herror : ∀ fault, result = .error fault → ∀ record, before record → after record)
    (hbefore : before record)
    (hnext : ∀ text, result = .ok text → Ensures before after (next text).run) :
    after (((host.recorded.load path).adapt .compile >>= next).run.run (machine, record)).2.2 := by
  have hrest : Ensures before after
      ((ExceptT.mk (Pure.pure (result.mapError (.access path)))).adapt .compile >>= next).run := by
    cases result with
    | error fault => exact fun _ => herror fault rfl
    | ok text => exact hnext text rfl
  rw [ExceptT.run_bind, ExceptT.run_adapt, run_load, map_bind, bind_assoc]
  subst hread
  exact hrest _ _ hbefore

end Ensures

/-- A record that is as it should be stays so with an allowed effect more. -/
def Admits (allowed : Effect → Prop) (fine : List Effect → Prop) : Prop :=
  ∀ effect record, allowed effect → fine record → fine (record ++ [effect])

namespace Admits

variable {σ α : Type} {allowed : Effect → Prop} {fine : List Effect → Prop}

theorem keeps_note (hadmits : Admits allowed fine) {effect : Effect} (hallowed : allowed effect) :
    Keeps fine (Recording.note effect : Recording σ Unit) :=
  fun _ record hfine => hadmits effect record hallowed hfine

variable (host : Host (StateM σ))

theorem keeps_write (hadmits : Admits allowed fine) {path text : String}
    (hallowed : allowed (.wrote path text)) : Keeps fine (host.recorded.write path text) :=
  (hadmits.keeps_note hallowed).bind fun _ => .lift _

theorem keeps_store (hadmits : Admits allowed fine) {path text : String}
    (hallowed : allowed (.wrote path text)) : Keeps fine (host.recorded.store path text).run := by
  refine (hadmits.keeps_write host hallowed).inner.andThen fun result => ?_
  cases result with
  | ok value => exact .done ()
  | error fault => exact .throw _

theorem keeps_build (hadmits : Admits allowed fine) {compiler : String} {request : BuildRequest}
    (hallowed : allowed (.started compiler request.arguments)) :
    Keeps fine (host.recorded.build compiler request).run := by
  refine (Ensures.lift _).inner.andThen fun _ => ?_
  refine ((hadmits.keeps_note hallowed).bind fun _ => .lift _).inner.andThen fun result => ?_
  cases result with
  | ok ended => exact .done ended
  | error fault => exact .throw _

theorem keeps_writeCode (hadmits : Admits allowed fine) {path : Option String} {code : String}
    (hallowed : ∀ file, path = some file → allowed (.wrote file code)) :
    Keeps fine (Command.writeCode host.recorded path code).run := by
  cases path with
  | none => exact .done ()
  | some file =>
      refine (hadmits.keeps_write host (hallowed file rfl)).inner.andThen fun result => ?_
      cases result with
      | ok value => exact (Ensures.lift _).inner
      | error fault => exact .throw _

theorem keeps_writeReplay (hadmits : Admits allowed fine) {context : Context} {output : String}
    (hallowed : allowed (.wrote (context.replayPath output) context.replayText)) :
    Keeps fine (host.recorded.writeReplay context output).run := by
  unfold Host.writeReplay
  split
  · refine (hadmits.keeps_store host hallowed).andThen fun _ => ?_
    exact (Ensures.lift _).inner.andThen fun _ => .done _
  · exact .done _

/-- Without a file of its own, the code goes to one that the host hands out. -/
theorem keeps_buildGenerated (hadmits : Admits allowed fine) {compiler code std output : String}
    {optLevel : Nat}
    (hwrote : ∀ machine, allowed (.wrote (host.temporary.run machine).1 code))
    (hstarted : ∀ path, allowed (.started compiler
      (BuildRequest.arguments ⟨path, std, optLevel, output⟩))) :
    Keeps fine (host.recorded.buildGenerated (host.recorded.build compiler) code none std optLevel
      output).run := by
  refine Ensures.liftThen fun machine => ?_
  refine Ensures.bind ?_ fun _ => (Ensures.lift _).bind fun _ => .pure _
  exact (hadmits.keeps_store host (hwrote machine)).andThen fun _ =>
    hadmits.keeps_build host (hstarted _)

theorem keeps_buildCode (hadmits : Admits allowed fine) {palette : Text.Palette}
    {compiler code : String} {arguments : Arguments} (hcode : arguments.codePath = none)
    (hwrote : ∀ machine, allowed (.wrote (host.temporary.run machine).1 code))
    (hstarted : ∀ path, allowed (.started compiler (BuildRequest.arguments
      ⟨path, arguments.std, arguments.optLevel, arguments.binaryPath⟩))) :
    Keeps fine (Command.buildCode host.recorded palette compiler arguments code).run := by
  unfold Command.buildCode
  rw [hcode]
  refine (hadmits.keeps_buildGenerated host hwrote hstarted).inner.andThen fun built => ?_
  cases built with
  | error error => exact .throw _
  | ok ended =>
      dsimp only
      split
      · split <;> exact (Ensures.lift _).inner.andThen fun _ => .done _
      · refine (Ensures.lift _).inner.andThen fun _ => ?_
        split <;> exact (Ensures.lift _).inner.andThen fun _ => .done _

end Admits

/-- A compilation leaves the flags of the program behind. -/
theorem Source.flags_of_compiled {source : Source} {before after : Context}
    {compilation : Compilation}
    (houtcome : source.compile.outcome before = (.ok compilation, after)) :
    ∃ parsed, source.reading = .ok parsed ∧ after.flags = .ofProgram parsed := by
  cases hreading : source.reading with
  | error error => simp [compile_of_unread hreading] at houtcome
  | ok parsed =>
      refine ⟨parsed, rfl, ?_⟩
      cases hanalyze : parsed.analyze with
      | error findings => simp [compile_of_refused hreading hanalyze] at houtcome
      | ok accepted =>
          rw [compile_of_accepted hreading hanalyze rfl, Prod.mk.injEq] at houtcome
          rw [← houtcome.2]
          rfl

/-! ## Files in the working folder -/

namespace FileTree

theorem file?_put (tree : FileTree) (location : Location) (content : FileContent) :
    (tree.put location content).file? location = some content := by
  have hothers : (tree.files.filter (·.1 != location)).lookup location = none := by
    rw [List.lookup_eq_none_iff]
    intro entry hentry
    rw [List.mem_filter, bne_comm] at hentry
    simpa using hentry.2
  rw [file?, put, List.lookup_append, hothers, Option.none_or, List.lookup_cons_self]

/-- A file in the working folder is read by its name. -/
theorem read_withFiles {name : String} (text : String) (hnames : Path.names name = [name])
    (hdot : name ≠ ".") (hdots : name ≠ "..") (hshort : name.utf8ByteSize ≤ nameLimit)
    (hnul : name.contains '\x00' = false) (hroot : name.startsWith "/" = false)
    (hslash : name.endsWith "/" = false) :
    (withFiles [(name, .text text)]).read name = .ok text := by
  have htree : withFiles [(name, .text text)] =
      empty.put (workingFolder ++ [name]) (.text text) := by
    simp [withFiles, hnames, hdot]
  have hfolder : (empty.put (workingFolder ++ [name]) (.text text)).isFolder
      (workingFolder ++ [name]) = false := by
    simp [isFolder, put, empty, devices, tools, toolFolder, workingFolder, temporaryFolder]
  have hempty : name.isEmpty = false := by
    rw [← Bool.not_eq_true, String.isEmpty_iff]
    rintro rfl
    exact absurd hnames (by decide)
  have hlimit : ¬ pathLimit ≤ name.utf8ByteSize :=
    Nat.not_le_of_lt (Nat.lt_of_le_of_lt hshort (by decide))
  have hplace : (empty.put (workingFolder ++ [name]) (.text text)).find name =
      .ok (.file (workingFolder ++ [name]) (.text text)) := by
    simp [find, followPath, follow, hnames, hdot, hdots, Nat.not_lt_of_le hshort, hnul, hempty,
      hlimit, hroot, hslash, hfolder, file?_put]
  rw [htree, read, hplace]
  rfl

end FileTree

namespace Command

variable {σ : Type} {host : Host (StateM σ)} {palette : Text.Palette} {compiler : String}
  {arguments : Arguments} {machine : σ}

/-- The file on the machine is read and compiled. -/
def Compiles (host : Host (StateM σ)) (palette : Text.Palette) (arguments : Arguments) (machine : σ)
    (compilation : Compilation) (context : Context) : Prop :=
  ∃ text, ((host.read arguments.source).run machine).1 = .ok text ∧
    (Source.compile ⟨some arguments.source, text⟩).outcome
      (.create palette arguments.options .builtin) = (.ok compilation, context)

theorem Compiles.unique {compilation other : Compilation} {context after : Context}
    (hcompiles : Compiles host palette arguments machine compilation context)
    (hother : Compiles host palette arguments machine other after) : compilation = other := by
  obtain ⟨text, hread, houtcome⟩ := hcompiles
  obtain ⟨text', hread', houtcome'⟩ := hother
  obtain rfl : text = text' := by simpa [hread] using hread'
  have hsame := houtcome.symm.trans houtcome'
  simp only [Prod.mk.injEq, Except.ok.injEq] at hsame
  exact hsame.1

/-- The effects that a run can have once the code is written are allowed. -/
structure Permits (allowed : Effect → Prop) (host : Host (StateM σ)) (compiler : String)
    (arguments : Arguments) (compilation : Compilation) (context : Context) : Prop where
  replay : allowed (.wrote (context.replayPath arguments.replayAnchor) context.replayText)
  temporary : arguments.build = true → ∀ machine,
    allowed (.wrote (host.temporary.run machine).1 compilation.code)
  compiler : arguments.build = true → ∀ path, allowed (.started compiler (BuildRequest.arguments
    ⟨path, arguments.std, arguments.optLevel, arguments.binaryPath⟩))

/-- A run brings the record to where it should be if the writing of the code does, and if the
effects that follow it are allowed. -/
theorem effects_of_writeCode {allowed : Effect → Prop} {fine : List Effect → Prop}
    (hadmits : Admits allowed fine) (before : List Effect → Prop) (hbefore : before [])
    (hcode : arguments.build = true → arguments.codePath = none)
    (hfailed :
      (∀ compilation context, ¬Compiles host palette arguments machine compilation context) →
        ∀ record, before record → fine record)
    (hcompiled : ∀ compilation context,
      Compiles host palette arguments machine compilation context →
      Ensures before fine (writeCode host.recorded arguments.codePath compilation.code).run ∧
      Permits allowed host compiler arguments compilation context) :
    fine (effects host palette compiler arguments machine) := by
  refine Ensures.load_run host rfl (fun fault hread => hfailed ?_) hbefore fun text hread => ?_
  · rintro _ _ ⟨text, htext, _⟩
    simp [hread] at htext
  rcases houtcome : (Source.compile ⟨some arguments.source, text⟩).outcome
    (.create palette arguments.options .builtin) with ⟨result, context⟩
  refine Ensures.compile host houtcome (fun error herror => hfailed ?_)
    fun compilation hresult => ?_
  · rintro _ _ ⟨other, hother, hcompiles⟩
    obtain rfl : text = other := by simpa [hread] using hother
    simp [houtcome, herror] at hcompiles
  subst hresult
  obtain ⟨hwrites, hallowed⟩ := hcompiled compilation context ⟨text, hread, houtcome⟩
  have hbuild : Keeps fine (if arguments.build then
      buildCode host.recorded palette compiler arguments compilation.code
      else return 0 : ExceptT CommandFailure (Recording σ) UInt32).run := by
    split
    next hbuild =>
      exact hadmits.keeps_buildCode host (hcode hbuild) (hallowed.temporary hbuild)
        (hallowed.compiler hbuild)
    next => exact .done 0
  refine (Ensures.noteAll host _).innerThen fun _ => ?_
  dsimp only
  split
  on_goal 1 => refine (Ensures.lift _).innerThen fun _ => ?_
  all_goals
    refine hwrites.andThen fun _ => ?_
    refine ((hadmits.keeps_writeReplay host hallowed.replay).adapt _).andThen fun replay => ?_
    cases replay with
    | some path => exact (Ensures.lift _).inner.andThen fun _ => hbuild
    | none => exact hbuild

/-! ## Without paths on the command line -/

/-- What a run may do when the command line and the program give it no paths. -/
inductive DefaultEffect (host : Host (StateM σ)) (compiler : String) (arguments : Arguments) :
    Effect → Prop
  | code (hbuild : arguments.build = false) (text : String) :
      DefaultEffect host compiler arguments
        (.wrote (Path.withExtension arguments.source "cpp") text)
  | replay (text : String) :
      DefaultEffect host compiler arguments (.wrote (arguments.replayAnchor ++ ".replay.txt") text)
  | temporary (hbuild : arguments.build = true) (machine : σ) (text : String) :
      DefaultEffect host compiler arguments (.wrote (host.temporary.run machine).1 text)
  | compiler (hbuild : arguments.build = true) (path : String) :
      DefaultEffect host compiler arguments (.started compiler (BuildRequest.arguments
        ⟨path, arguments.std, arguments.optLevel, Path.withExtension arguments.source ""⟩))

theorem codePath_of_default (houtput : arguments.output = none) :
    arguments.codePath =
      if arguments.build then none else some (Path.withExtension arguments.source "cpp") := by
  cases hbuild : arguments.build <;> simp [Arguments.codePath, houtput, hbuild]

theorem binaryPath_of_default (hbinary : arguments.binary = none) :
    arguments.binaryPath = Path.withExtension arguments.source "" := by
  simp [Arguments.binaryPath, hbinary]

/-- Without a path in the program, the replay log goes beside the output. -/
theorem replayPath_of_default {compilation : Compilation} {context : Context}
    (hcompiles : Compiles host palette arguments machine compilation context)
    (hreplay : ∀ text program, ((host.read arguments.source).run machine).1 = .ok text →
      Source.reading ⟨some arguments.source, text⟩ = .ok program →
      ∀ overlay ∈ program.overlays, overlay.replayPath? = none) (output : String) :
    context.replayPath output = output ++ ".replay.txt" := by
  obtain ⟨text, hread, houtcome⟩ := hcompiles
  obtain ⟨parsed, hreading, hflags⟩ := Source.flags_of_compiled houtcome
  have hnone : context.flags.replayPath = none := by
    rw [hflags]
    exact List.findSome?_eq_none_iff.mpr (hreplay text parsed hread hreading)
  rw [Context.replayPath, hnone]
  rfl

/-- When a program is compiled without being built, the code goes to a file. -/
theorem wrote_code {compilation : Compilation} {context : Context}
    (hcompiles : Compiles host palette arguments machine compilation context)
    (houtput : arguments.output = none) (hbuild : arguments.build = false) :
    .wrote (Path.withExtension arguments.source "cpp") compilation.code ∈
      effects host palette compiler arguments machine := by
  have hfile := codePath_of_default houtput
  rw [hbuild, if_neg Bool.false_ne_true] at hfile
  generalize Path.withExtension arguments.source "cpp" = file at hfile
  let written (record : List Effect) : Prop := .wrote file compilation.code ∈ record
  have hadmits : Admits (fun _ => True) written := fun _ _ _ hmem => List.mem_append_left _ hmem
  refine effects_of_writeCode hadmits (fun _ => True) trivial (by simp [hbuild])
    (fun hfailed => absurd hcompiles (hfailed _ _)) fun other after hother =>
    ⟨?_, trivial, fun _ _ => trivial, fun _ _ => trivial⟩
  rw [hfile, hother.unique hcompiles]
  have hwrites : Ensures (fun _ => True) written (host.recorded.write file compilation.code) :=
    fun _ record _ => List.mem_append_right record (.head _)
  refine hwrites.innerThen fun result => ?_
  cases result with
  | ok value => exact (Ensures.lift _).inner
  | error fault => exact .throw _

theorem effects_default (houtput : arguments.output = none) (hbinary : arguments.binary = none)
    (hreplay : ∀ text program, ((host.read arguments.source).run machine).1 = .ok text →
      Source.reading ⟨some arguments.source, text⟩ = .ok program →
      ∀ overlay ∈ program.overlays, overlay.replayPath? = none) :
    ∀ effect ∈ effects host palette compiler arguments machine,
      DefaultEffect host compiler arguments effect := by
  have hcode := codePath_of_default houtput
  have hadmits : Admits (DefaultEffect host compiler arguments)
      (fun record => ∀ effect ∈ record, DefaultEffect host compiler arguments effect) := by
    intro effect record heffect hrecord other hother
    rcases List.mem_append.mp hother with hother | hother
    · exact hrecord other hother
    · rwa [List.mem_singleton.mp hother]
  refine effects_of_writeCode hadmits _ (by simp) (by simp +contextual [hcode]) (fun _ _ => id)
    fun compilation context hcompiles => ⟨?_, ?_, ?_, ?_⟩
  · refine hadmits.keeps_writeCode host fun file hfile => ?_
    rw [hcode] at hfile
    split_ifs at hfile with hbuild
    obtain rfl := Option.some.inj hfile
    exact .code (by simpa using hbuild) _
  · rw [replayPath_of_default hcompiles hreplay]
    exact .replay _
  · exact fun hbuild machine => .temporary hbuild machine _
  · intro hbuild path
    rw [binaryPath_of_default hbinary]
    exact .compiler hbuild path

/-- The log is never the source: it has two dots more than the output that it goes beside. -/
theorem replay_ne_source (houtput : arguments.output = none) (hbinary : arguments.binary = none) :
    arguments.replayAnchor ++ ".replay.txt" ≠ arguments.source := by
  have hanchor : ∃ new, arguments.replayAnchor = Path.withExtension arguments.source new ∧
      '/' ∉ Path.suffix new ++ ".replay.txt".toList := by
    rw [Arguments.replayAnchor, codePath_of_default houtput, binaryPath_of_default hbinary]
    split
    · exact ⟨"", rfl, by decide⟩
    · exact ⟨"cpp", rfl, by decide⟩
  obtain ⟨new, hnew, hslash⟩ := hanchor
  rw [hnew, ne_eq, ← String.toList_inj, String.toList_append]
  exact Path.withExtension_append_ne _ _ (by decide) hslash

/-- Without paths on the command line and in the program, a run has no other effects than to write
the code, the replay log or a file that the host hands out for the time of the run, and to start the
compiler.  The log is never the source.  The file for the code is the source exactly if that has the
extension of the code already, and the file for the executable exactly if it has none; a path that
names no file stays as it is in both cases. -/
theorem default_outputs (houtput : arguments.output = none) (hbinary : arguments.binary = none)
    (hreplay : ∀ text program, ((host.read arguments.source).run machine).1 = .ok text →
      Source.reading ⟨some arguments.source, text⟩ = .ok program →
      ∀ overlay ∈ program.overlays, overlay.replayPath? = none) :
    (∀ effect ∈ effects host palette compiler arguments machine,
      DefaultEffect host compiler arguments effect) ∧
    (∀ compilation context, Compiles host palette arguments machine compilation context →
      arguments.build = false →
      .wrote (Path.withExtension arguments.source "cpp") compilation.code ∈
        effects host palette compiler arguments machine) ∧
    arguments.replayAnchor ++ ".replay.txt" ≠ arguments.source ∧
    (Path.withExtension arguments.source "cpp" = arguments.source ↔
      Path.HasExtension arguments.source "cpp" ∨ Path.NamesNoFile arguments.source) ∧
    (Path.withExtension arguments.source "" = arguments.source ↔
      Path.IsBare arguments.source ∨ Path.NamesNoFile arguments.source) :=
  ⟨effects_default houtput hbinary hreplay, fun _ _ hcompiles => wrote_code hcompiles houtput,
    replay_ne_source houtput hbinary, Path.withExtension_eq_self_iff (by decide) (by decide),
    Path.withExtension_empty_eq_self_iff⟩

/-- A command line that names nothing but a source. -/
def sourceOnly (source : String) : Arguments :=
  ⟨source, none, "c++17", 2, false, none, [], false, 0⟩

/-- A machine with one file in the working folder. -/
def oneFile (path text : String) : Machine := .withTree (.withFiles [(path, .text text)])

theorem default_outputs_tide :
    (∀ text program,
      ((Machine.host.read "a.tide").run (oneFile "a.tide" "overlay replay\nsync")).1 = .ok text →
      Source.reading ⟨some "a.tide", text⟩ = .ok program →
      ∀ overlay ∈ program.overlays, overlay.replayPath? = none) ∧
    ∀ effect ∈ effects Machine.host .plain "c++" (sourceOnly "a.tide")
        (oneFile "a.tide" "overlay replay\nsync"),
      DefaultEffect Machine.host "c++" (sourceOnly "a.tide") effect := by
  have hreplay : ∀ text program,
      ((Machine.host.read "a.tide").run (oneFile "a.tide" "overlay replay\nsync")).1 = .ok text →
      Source.reading ⟨some "a.tide", text⟩ = .ok program →
      ∀ overlay ∈ program.overlays, overlay.replayPath? = none := by
    intro text program hread hreading
    have hread' : ((Machine.host.read "a.tide").run
        (oneFile "a.tide" "overlay replay\nsync")).1 = .ok "overlay replay\nsync" :=
      FileTree.read_withFiles _ (by decide) (by decide) (by decide) (by decide) (by cbv) (by cbv)
        (by cbv)
    obtain rfl := Except.ok.inj (hread.symm.trans hread')
    have hview : (Source.reading ⟨some "a.tide", "overlay replay\nsync"⟩).toOption.map
        Program.overlays = some [⟨1, "replay", []⟩] := by decide +kernel
    rw [hreading] at hview
    rw [Option.some.inj hview]
    decide
  exact ⟨hreplay, (default_outputs rfl rfl hreplay).1⟩

/-- A source with the extension of the code is replaced by the code. -/
theorem default_outputs_replace_source :
    ∃ code, .wrote "a.cpp" code ∈
      effects Machine.host .plain "c++" (sourceOnly "a.cpp") (oneFile "a.cpp" "sync") := by
  have hread : ((Machine.host.read "a.cpp").run (oneFile "a.cpp" "sync")).1 = .ok "sync" :=
    FileTree.read_withFiles _ (by decide) (by decide) (by decide) (by decide) (by cbv) (by cbv)
      (by cbv)
  have hreading : Source.reading ⟨some "a.cpp", "sync"⟩ = .ok [.simple 1 .sync] := by cbv
  have hanalyze : Program.analyze [.simple 1 .sync] = .ok ⟨[], []⟩ := by cbv
  exact ⟨_, wrote_code ⟨"sync", hread, Source.compile_of_accepted hreading hanalyze rfl⟩ rfl rfl⟩

end Command

end Tide
