import Mathlib
import Scriptorium.Proofs.Emission
import Scriptorium.Proofs.GroupSequences
import Scriptorium.Proofs.NativeCalls

/-!
# Isolation of units

Units that fail, or that their directives leave out, leave nothing behind: a group without them has the same units parsed, and is
compiled and executed in the same way (`group_without_lost_units`). The group as a whole and the group without them are built side
by side; a unit that is parsed is parsed in both, and one that is not leaves the environment, the debugging that is wanted and
all that is seen of the host as they were.

The units that are parsed may see a part of the host, and change it where they are opened. Those that are not may see all of it,
and may be opened in another way each time, but opening them leaves that part as it is.
-/
namespace Scriptorium.Build

/-- What work that is not seen leaves: it adds to the log, and may change the rest of the state. -/
structure Unseen {σ ω : Type} (view : σ → ω) (host host' : Host σ) : Prop where
  actions : host'.actions = host.actions
  state : view host'.state = view host.state
  log : host.log.toList <+: host'.log.toList

section
variable {σ ω : Type} {view : σ → ω}

theorem Unseen.refl (host : Host σ) : Unseen view host host := ⟨rfl, rfl, List.prefix_refl _⟩

theorem Unseen.trans {host host' host'' : Host σ} (first : Unseen view host host') (second : Unseen view host' host'') :
    Unseen view host host'' :=
  ⟨second.actions.trans first.actions, second.state.trans first.state, first.log.trans second.log⟩

theorem Unseen.reportAll (host : Host σ) (events : List LogEvent) : Unseen view host (host.reportAll events) := by
  refine ⟨rfl, rfl, ?_⟩
  rw [Host.reportAll, Array.toList_appendList]
  exact List.prefix_append _ _

/-- A unit that leaves the host looking the same, however it is opened. -/
def OpensUnseen (view : σ → ω) (unit : ScriptUnit (Host σ)) : Prop := ∀ host, Unseen view host (unit.openStream host).2

theorem Preprocessor.directives_unseen (unit : String) (stream : Stream) (host : Host σ) :
    Unseen view host (Preprocessor.directives.scan unit stream host).2 := by
  simp only [directives]
  cases (Build.scan unit stream).1 with
  | ok directives | error error => exact .reportAll host _

/-- What parsing comes to: it only reports, and declares nothing when it fails. -/
theorem parse_cases (request : ParseRequest) (env : Script.Environment) (host : Host σ) :
    ∃ attempt next after, ScriptHost.parse request env host = (attempt, next, after) ∧ Unseen view host after ∧
      ((∃ unit, attempt = .returned unit) ∨ ∃ error, attempt = .refused error ∧ next = env) := by
  unfold ScriptHost.parse
  cases request.stream with
  | error error => exact ⟨_, _, _, rfl, .refl host, .inr ⟨_, rfl, rfl⟩⟩
  | ok bytes =>
    simp only [Script.Environment.parseBytes]
    cases Text.Utf8.decode bytes with
    | error fault => exact ⟨_, _, _, rfl, .refl host, .inr ⟨_, rfl, rfl⟩⟩
    | ok source =>
      simp only
      rcases env.parse_cases source request.unit request.artifact request.tolerant with
        ⟨unit, result, -⟩ | ⟨error, result, same⟩
      · rw [result]
        exact ⟨_, _, _, rfl, .reportAll host _, .inl ⟨unit, rfl⟩⟩
      · rw [result]
        exact ⟨_, _, _, rfl, .reportAll host _, .inr ⟨_, rfl, same⟩⟩

variable {parts : ScriptHost σ} {settings : Settings} {loader : String} {unit : ScriptUnit (Host σ)}

private theorem openUnit_unseen (opens : OpensUnseen view unit) {host after : Host σ} {result : Except UnitError Stream}
    (opened : Pipeline.openUnit unit host = (result, after)) : Unseen view host after := by
  have unseen : Unseen view host (Pipeline.openUnit unit host).2 := opens host
  rwa [opened] at unseen

private theorem scanUnit_unseen (opens : OpensUnseen view unit) {host after : Host σ} {result : Except UnitError Directives}
    (scanned : (parts.pipeline .directives settings loader).scanUnit unit host = (result, after)) : Unseen view host after := by
  unfold Pipeline.scanUnit at scanned
  split at scanned
  next error between opened =>
    cases scanned
    exact openUnit_unseen opens opened
  next stream between opened =>
    cases scanned
    exact (openUnit_unseen opens opened).trans (Preprocessor.directives_unseen _ _ _)

variable (parts settings loader)

/-- What opening a unit and parsing it comes to. -/
theorem parseUnit_cases (opens : OpensUnseen view unit) (directives : Directives) (env : Script.Environment) (host : Host σ) :
    ∃ result next after, (parts.pipeline .directives settings loader).parseUnit unit directives env host = (result, next, after) ∧
      Unseen view host after ∧ ((∃ parsed, result = .ok parsed) ∨ ∃ error, result = .error error ∧ next = env) := by
  unfold Pipeline.parseUnit
  split
  next error between opened => exact ⟨_, _, _, rfl, openUnit_unseen opens opened, .inr ⟨error, rfl, rfl⟩⟩
  next stream between opened =>
    let pipeline := parts.pipeline .directives settings loader
    have parsing : ∃ attempt next after, pipeline.backend.parse ⟨stream, unit.name, artifactName unit.name,
        directives.ignoreBracketErrors || pipeline.settings.suppresses unit.name⟩ env between = (attempt, next, after) ∧
        Unseen view between after ∧
        ((∃ unit, attempt = .returned unit) ∨ ∃ error, attempt = .refused error ∧ next = env) := parse_cases _ env between
    obtain ⟨attempt, next, after, parsed, unseen, outcome⟩ := parsing
    simp only [pipeline] at parsed
    simp only [parsed]
    refine ⟨_, _, _, rfl, (openUnit_unseen opens opened).trans unseen, ?_⟩
    rcases outcome with ⟨parsed, rfl⟩ | ⟨error, rfl, same⟩
    · exact .inl ⟨_, rfl⟩
    · exact .inr ⟨_, rfl, same⟩

/-- A unit that is not parsed leaves the environment, and nothing of it is seen. -/
theorem processUnit_lost (opens : OpensUnseen view unit) {env next : Script.Environment} {host after : Host σ}
    {result : Except UnitError (UnitOutcome Script.ParsedUnit)}
    (processed : (parts.pipeline .directives settings loader).processUnit unit env host = (result, next, after))
    (lost : ∀ parsed debug, result ≠ .ok (.parsed parsed debug)) : Unseen view host after ∧ next = env := by
  unfold Pipeline.processUnit at processed
  split at processed
  next error between scanned =>
    cases processed
    exact ⟨scanUnit_unseen opens scanned, rfl⟩
  next directives between scanned =>
    have unseen : Unseen view host between := scanUnit_unseen opens scanned
    split at processed
    next reason skipped =>
      cases processed
      exact ⟨unseen, rfl⟩
    next ran =>
      obtain ⟨_, _, _, parsed, more, outcome⟩ := parseUnit_cases parts settings loader opens directives env between
      rw [parsed] at processed
      rcases outcome with ⟨unit, rfl⟩ | ⟨error, rfl, same⟩
      · cases processed
        exact absurd rfl (lost _ _)
      · cases processed
        exact ⟨unseen.trans more, same⟩

end

/-- The units of a group that are parsed when the group is built. -/
def Pipeline.keptUnits {σ : Type} (pipeline : Pipeline σ) (progress : Progress pipeline) :
    List (ScriptUnit (Host σ)) → List (ScriptUnit (Host σ))
  | [] => []
  | unit :: units =>
    let rest := keptUnits pipeline (pipeline.addUnit progress unit) units
    match (pipeline.processUnit unit progress.env progress.host).1 with
    | .ok (.parsed _ _) => unit :: rest
    | _ => rest

/-- The units of a group that fail or are left out when the group is built. -/
def Pipeline.lostUnits {σ : Type} (pipeline : Pipeline σ) (progress : Progress pipeline) :
    List (ScriptUnit (Host σ)) → List (ScriptUnit (Host σ))
  | [] => []
  | unit :: units =>
    let rest := lostUnits pipeline (pipeline.addUnit progress unit) units
    match (pipeline.processUnit unit progress.env progress.host).1 with
    | .ok (.parsed _ _) => rest
    | _ => unit :: rest

/-- Each unit is parsed, or it fails or is left out. -/
theorem Pipeline.kept_lost_perm {σ : Type} (pipeline : Pipeline σ) (progress : Progress pipeline) (units : List (ScriptUnit (Host σ))) :
    (pipeline.keptUnits progress units ++ pipeline.lostUnits progress units).Perm units := by
  induction units generalizing progress with
  | nil => exact .nil
  | cons unit units ih =>
    simp only [keptUnits, lostUnits]
    split
    · exact (ih _).cons unit
    · exact List.perm_middle.trans ((ih _).cons unit)

theorem Pipeline.mem_keptUnits {σ : Type} {pipeline : Pipeline σ} {progress : Progress pipeline} {units : List (ScriptUnit (Host σ))}
    {unit : ScriptUnit (Host σ)} (kept : unit ∈ pipeline.keptUnits progress units) :
    ∃ env host parsed debug, (pipeline.processUnit unit env host).1 = .ok (.parsed parsed debug) := by
  induction units generalizing progress with
  | nil => cases kept
  | cons first units ih =>
    simp only [keptUnits] at kept
    split at kept
    next parsed debug processed =>
      rcases List.mem_cons.mp kept with rfl | later
      · exact ⟨_, _, _, _, processed⟩
      · exact ih later
    next => exact ih kept

/-- A log, and one that has some of its lines. -/
def Fewer (log log' : List LogEvent) : Prop := log'.Sublist log

theorem Fewer.appending : Appending Fewer := fun _ _ events fewer => fewer.append (List.Sublist.refl events)

/-- Reports that go on from one report, the first with failures of units and with units that are left out. -/
def UnitsLost (start report report' : Report) : Prop :=
  ∃ (failures : List UnitError) (skipped : Nat) (gain : Report),
    report = start.add (Report.add ⟨failures.map .unit, 0, 0, 0, skipped⟩ gain) ∧ report' = start.add gain

namespace UnitsLost

variable {start report report' : Report}

theorem adding (start : Report) : Adding (UnitsLost start) := by
  rintro _ _ more ⟨failures, skipped, gain, rfl, rfl⟩
  exact ⟨failures, skipped, gain.add more, by simp only [Report.add_assoc], Report.add_assoc _ _ _⟩

theorem countSkipped (related : UnitsLost start report report') : UnitsLost start report.countSkipped report' := by
  obtain ⟨failures, skipped, gain, rfl, rfl⟩ := related
  refine ⟨failures, skipped + 1, gain, ?_, rfl⟩
  simp only [Report.add, Report.countSkipped]
  congr 1
  omega

/-- Failures of units come before any other failure of the group. -/
theorem record (related : UnitsLost start report report') (clean : report'.failures = start.failures) (error : UnitError) :
    UnitsLost start (report.record (.unit error)) report' := by
  obtain ⟨failures, skipped, gain, rfl, rfl⟩ := related
  have none_yet : gain.failures = [] := List.append_right_eq_self.mp clean
  refine ⟨failures ++ [error], skipped, gain, ?_, rfl⟩
  simp only [Report.add, Report.record, none_yet, List.append_nil, List.map_append, List.map_cons, List.map_nil, List.append_assoc]

end UnitsLost

section
variable {σ ω : Type} {view : σ → ω} {parts : ScriptHost σ} {settings : Settings} {loader : String}

theorem Unseen.like {host after host' : Host σ} (unseen : Unseen view host after) (alike : Host.Like view Fewer host host') :
    Host.Like view Fewer after host' :=
  ⟨unseen.actions.trans alike.actions, unseen.state.trans alike.state, alike.log.trans unseen.log.sublist⟩

/-- The units of a group side by side with those of them that are parsed. -/
theorem units_alike (natives : parts.natives.See view) {units : List (ScriptUnit (Host σ))}
    {start : Report} {progress progress' : Pipeline.Progress (parts.pipeline .directives settings loader)}
    (keeps : ∀ unit ∈ (parts.pipeline .directives settings loader).keptUnits progress units, Sees view unit.openStream)
    (loses : ∀ unit ∈ (parts.pipeline .directives settings loader).lostUnits progress units, OpensUnseen view unit)
    (alike : progress.Like (UnitsLost start) (Host.Like view Fewer) progress') (clean : progress'.report.failures = start.failures) :
    let kept := (parts.pipeline .directives settings loader).keptUnits progress units
    let done := kept.foldl (Pipeline.addUnit (parts.pipeline .directives settings loader)) progress'
    (units.foldl (Pipeline.addUnit (parts.pipeline .directives settings loader)) progress).Like (UnitsLost start)
        (Host.Like view Fewer) done ∧
      done.report = { progress'.report with unitsParsed := progress'.report.unitsParsed + kept.length } := by
  induction units generalizing progress progress' with
  | nil => exact ⟨alike, rfl⟩
  | cons unit units ih =>
    have scans : ∀ unit stream, Sees view (Preprocessor.directives.scan unit stream) := Preprocessor.directives_sees
    have respects := ScriptHost.pipeline_respects Fewer.appending settings loader natives scans
    rcases processed : (parts.pipeline .directives settings loader).processUnit unit progress.env progress.host with
      ⟨error | ⟨parsed, debug⟩ | reason, next, after⟩
    case ok.parsed =>
      simp only [Pipeline.keptUnits, Pipeline.lostUnits, processed] at keeps loses
      obtain ⟨sees, keeps⟩ := List.forall_mem_cons.mp keeps
      have counted : (Pipeline.addUnit (parts.pipeline .directives settings loader) progress' unit).report =
          progress'.report.countParsed := by
        obtain ⟨_, _, _, _, here, there, -⟩ := Pipeline.processUnit_like respects.building (sees.respects Fewer.appending) progress.env
          alike.host
        obtain ⟨rfl, rfl, rfl⟩ : _ = _ ∧ _ = _ ∧ _ = _ := by simpa only [Prod.mk.injEq] using here.symm.trans processed
        simp only [Pipeline.addUnit, ← alike.env, there]
      obtain ⟨alike, total⟩ := ih keeps loses
        (Pipeline.addUnit_like respects.building (UnitsLost.adding start) (sees.respects Fewer.appending) alike)
        (by rw [counted]; exact clean)
      simp only [List.foldl_cons, Pipeline.keptUnits, processed]
      refine ⟨alike, total.trans ?_⟩
      rw [counted, Report.countParsed, List.length_cons]
      simp only [Nat.add_assoc, Nat.add_comm 1]
    all_goals
      simp only [Pipeline.keptUnits, Pipeline.lostUnits, processed] at keeps loses
      obtain ⟨opens, loses⟩ := List.forall_mem_cons.mp loses
      obtain ⟨unseen, rfl⟩ := processUnit_lost parts settings loader opens processed fun _ _ same => by cases same
      simp only [List.foldl_cons, Pipeline.keptUnits, processed]
      refine ih keeps loses ?_ clean
    case error =>
      simp only [Pipeline.addUnit, processed, Pipeline.record_host]
      exact ⟨alike.parsed, alike.debug, alike.env, alike.report.record clean error,
        (unseen.trans (.reportAll after _)).like alike.host⟩
    case ok.skipped =>
      simp only [Pipeline.addUnit, processed, Host.report_eq]
      exact ⟨alike.parsed, alike.debug, alike.env, alike.report.countSkipped,
        (unseen.trans (.reportAll after _)).like alike.host⟩

/-- Where the work on a group begins. -/
def ScriptHost.beginning (parts : ScriptHost σ) (settings : Settings) (loader group : String) (report : Report) (host : Host σ) :
    Pipeline.Progress (parts.pipeline .directives settings loader) :=
  ⟨[], settings.debug, Script.Environment.initial group parts.natives.signatures parts.brackets, report, host⟩

/-- Where the work on a group stands after its units. -/
def ScriptHost.parsedGroup (parts : ScriptHost σ) (settings : Settings) (loader : String) (group : ScriptGroup (Host σ))
    (report : Report) (host : Host σ) : Pipeline.Progress (parts.pipeline .directives settings loader) :=
  group.units.foldl (Pipeline.addUnit _) (parts.beginning settings loader group.name report host)

/-- What compiling the units of a group gives. -/
def ScriptHost.compiledGroup (parts : ScriptHost σ) (settings : Settings) (loader : String) (group : ScriptGroup (Host σ))
    (report : Report) (host : Host σ) : Attempt String ArtifactSet × Host σ :=
  let done := parts.parsedGroup settings loader group report host
  ScriptHost.compile done.parsed.reverse done.env done.debug done.host

/-- A group without the units that fail or are left out when it is built. -/
def ScriptHost.withoutLost (parts : ScriptHost σ) (settings : Settings) (loader : String) (group : ScriptGroup (Host σ))
    (report : Report) (host : Host σ) : ScriptGroup (Host σ) where
  name := group.name
  units := (parts.pipeline .directives settings loader).keptUnits (parts.beginning settings loader group.name report host) group.units

/-- The units of a group that fail or are left out when it is built. -/
def ScriptHost.lostUnits (parts : ScriptHost σ) (settings : Settings) (loader : String) (group : ScriptGroup (Host σ))
    (report : Report) (host : Host σ) : List (ScriptUnit (Host σ)) :=
  (parts.pipeline .directives settings loader).lostUnits (parts.beginning settings loader group.name report host) group.units

private theorem buildGroup_parsedGroup (group : ScriptGroup (Host σ)) (execute : Bool) (report : Report) (host : Host σ) :
    (parts.pipeline .directives settings loader).buildGroup group execute report host =
      Pipeline.finishGroup _ group.name execute (parts.parsedGroup settings loader group report host) := rfl

/-- Two groups that come to the same: the same units are parsed, in the same order, and declare the same; the same is compiled,
and what runs then makes the same calls of natives, comes to the same end, leaves the same globals, and changes what is seen of the
host in the same way. In the first group units may fail or be left out besides; in the second all units are parsed. -/
structure SameBuild (view : σ → ω) (parts : ScriptHost σ) (settings : Settings) (loader : String) (group smaller : ScriptGroup (Host σ))
    (report : Report) (host : Host σ) : Prop where
  parsed : (parts.parsedGroup settings loader group report host).parsed = (parts.parsedGroup settings loader smaller report host).parsed
  debug : (parts.parsedGroup settings loader group report host).debug = (parts.parsedGroup settings loader smaller report host).debug
  env : (parts.parsedGroup settings loader group report host).env = (parts.parsedGroup settings loader smaller report host).env
  complete : (parts.parsedGroup settings loader smaller report host).report =
    { report with unitsParsed := report.unitsParsed + smaller.units.length }
  compiled : SameAnswer (Host.Like view Fewer) (parts.compiledGroup settings loader group report host)
    (parts.compiledGroup settings loader smaller report host)
  ran : ∀ program, Option.Rel (Machine.Ended.Like (Host.Like view Fewer))
    (Machine.Memory.initial.run program parts.natives parts.steps (parts.compiledGroup settings loader group report host).2)
    (Machine.Memory.initial.run program parts.natives parts.steps (parts.compiledGroup settings loader smaller report host).2)
  calls : ∀ program,
    Machine.Memory.initial.calls program parts.natives parts.steps (parts.compiledGroup settings loader group report host).2 =
      Machine.Memory.initial.calls program parts.natives parts.steps (parts.compiledGroup settings loader smaller report host).2
  built : ∀ execute, Pipeline.Continuation.Like (UnitsLost report) (Host.Like view Fewer)
    ((parts.pipeline .directives settings loader).buildGroup group execute report host)
    ((parts.pipeline .directives settings loader).buildGroup smaller execute report host)

/-- A group comes to the same as the group without the units that fail or are left out. -/
theorem group_without_lost_units (natives : parts.natives.See view) {settings : Settings} {loader : String}
    {group : ScriptGroup (Host σ)} {report : Report} {host : Host σ}
    (keeps : ∀ unit ∈ (parts.withoutLost settings loader group report host).units, Sees view unit.openStream)
    (loses : ∀ unit ∈ parts.lostUnits settings loader group report host, OpensUnseen view unit) :
    SameBuild view parts settings loader group (parts.withoutLost settings loader group report host) report host := by
  have scans : ∀ unit stream, Sees view (Preprocessor.directives.scan unit stream) := Preprocessor.directives_sees
  have respects := ScriptHost.pipeline_respects Fewer.appending settings loader natives scans
  have begun : UnitsLost report report report :=
    ⟨[], 0, .empty, (Report.add_empty report).symm, (Report.add_empty report).symm⟩
  have start : (parts.beginning settings loader group.name report host).Like (UnitsLost report) (Host.Like view Fewer)
      (parts.beginning settings loader group.name report host) := ⟨rfl, rfl, rfl, begun, rfl, rfl, List.Sublist.refl _⟩
  let smaller := parts.withoutLost settings loader group report host
  obtain ⟨alike, complete⟩ : (parts.parsedGroup settings loader group report host).Like (UnitsLost report) (Host.Like view Fewer)
      (parts.parsedGroup settings loader smaller report host) ∧ (parts.parsedGroup settings loader smaller report host).report =
      { report with unitsParsed := report.unitsParsed + smaller.units.length } :=
    units_alike natives keeps loses start rfl
  have compiled : SameAnswer (Host.Like view Fewer) (parts.compiledGroup settings loader group report host)
      (parts.compiledGroup settings loader smaller report host) := by
    simp only [ScriptHost.compiledGroup, alike.parsed, alike.env, alike.debug]
    exact ScriptHost.compile_respects respects.reporting _ _ _ _ _ alike.host
  have left : Host.Like view Fewer (parts.compiledGroup settings loader group report host).2
      (parts.compiledGroup settings loader smaller report host).2 := by
    obtain ⟨attempt, after, after', whole, less, alike⟩ := compiled
    rw [whole, less]
    exact alike
  have respect := natives.respect Fewer.appending
  refine ⟨alike.parsed, alike.debug, alike.env, complete, compiled, ?_, ?_, ?_⟩
  · intro program
    exact Machine.Memory.run_respects respect _ _ left
  · intro program
    exact Machine.Memory.calls_like respect _ _ left
  · intro execute
    rw [buildGroup_parsedGroup, buildGroup_parsedGroup]
    exact Pipeline.finishGroup_like respects (UnitsLost.adding report) _ execute alike

end

/-- A unit that can be opened once. -/
def openedOnce (name text : String) : ScriptUnit (Host Bool) :=
  ⟨name, fun host => (if host.state then .refused (.other "opened before") else .returned (.ok text.toUTF8.toList),
    { host with state := true })⟩

/-- Such a unit is opened to be scanned, and then it cannot be opened to be parsed. -/
theorem openedOnce_lost {parts : ScriptHost Bool} {settings : Settings} {loader : String} {env : Script.Environment} {host : Host Bool}
    {parsed : Script.ParsedUnit} {debug : Bool} (name text : String) :
    ((parts.pipeline .directives settings loader).processUnit (openedOnce name text) env host).1 ≠ .ok (.parsed parsed debug) := by
  intro kept
  unfold Pipeline.processUnit at kept
  split at kept
  next => cases kept
  next directives between scanned =>
    have opened : between.state = true := by
      unfold Pipeline.scanUnit at scanned
      split at scanned
      next => cases scanned
      next stream first opened =>
        have state : (Pipeline.openUnit (openedOnce name text) host).2.state = true := rfl
        rw [opened] at state
        have unseen : Unseen (id : Bool → Bool) first between := by
          rw [← (Prod.mk.inj scanned).2]
          exact Preprocessor.directives_unseen _ _ _
        exact unseen.state.trans state
    split at kept
    next => cases kept
    next =>
      simp only [Pipeline.parseUnit, Pipeline.openUnit, openedOnce, opened, if_true, forUnit, Except.map] at kept
      cases kept

/-- A group with a unit that fails when it is opened to be parsed, one that fails after it has declared a global and asked for
debugging, two units that are left out, and two units that are parsed, the last of which declares that global. -/
def mixedGroup : ScriptGroup (Host Bool) where
  name := "mixed.zip"
  units := openedOnce "once.zs" "global k = 0;" ::
    [("broken.zs", "#debug\nglobal k = 1;\nvar = ;"), ("first.zs", "print(2);"), ("norun.zs", "#norun\nprint(3);"),
      ("other.zs", "#loader other\nprint(4);"), ("last.zs", "global k = 3;")].map fun (name, text) =>
        .ofBytes name text.toUTF8.toList

/-- A host that offers `print`. -/
def printParts : ScriptHost Bool := ⟨.standard, [], 1000⟩

private theorem mem_mixedGroup {unit : ScriptUnit (Host Bool)} (inside : unit ∈ mixedGroup.units) :
    unit = openedOnce "once.zs" "global k = 0;" ∨ ∃ name content, unit = .ofBytes name content := by
  rcases List.mem_cons.mp inside with rfl | stored
  · exact .inl rfl
  · obtain ⟨⟨name, text⟩, -, rfl⟩ := List.mem_map.mp stored
    exact .inr ⟨_, _, rfl⟩

private theorem mixedGroup_keeps {settings : Settings} {loader : String} {report : Report} {host : Host Bool} :
    ∀ unit ∈ (printParts.withoutLost settings loader mixedGroup report host).units, Sees (fun _ : Bool => ()) unit.openStream := by
  intro unit kept
  rcases mem_mixedGroup ((Pipeline.kept_lost_perm _ _ _).subset (List.mem_append_left _ kept)) with rfl | ⟨name, content, rfl⟩
  · obtain ⟨env, host, parsed, debug, processed⟩ := Pipeline.mem_keptUnits kept
    exact absurd processed (openedOnce_lost _ _)
  · exact ofBytes_sees _ _

private theorem mixedGroup_loses {settings : Settings} {loader : String} {report : Report} {host : Host Bool} :
    ∀ unit ∈ printParts.lostUnits settings loader mixedGroup report host, OpensUnseen (fun _ : Bool => ()) unit := by
  intro unit lost
  rcases mem_mixedGroup ((Pipeline.kept_lost_perm _ _ _).subset (List.mem_append_right _ lost)) with rfl | ⟨name, content, rfl⟩
  · exact fun host => ⟨rfl, rfl, List.prefix_refl _⟩
  · exact .refl

theorem mixedGroup_without_lost_units :
    SameBuild (fun _ : Bool => ()) printParts .initial "tweaker" mixedGroup
      (printParts.withoutLost .initial "tweaker" mixedGroup .empty (.initial false)) .empty (.initial false) :=
  group_without_lost_units (Natives.see_empty.register sees_print) mixedGroup_keeps mixedGroup_loses

end Scriptorium.Build
