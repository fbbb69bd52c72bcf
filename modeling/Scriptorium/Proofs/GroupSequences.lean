import Mathlib
import Scriptorium.Proofs.BuildLikeness

/-!
# Sequences of groups

A run takes groups one after the other, and what outlives a group is the report, the host and the names seen. So after one list of
groups another list without a common name is built as if nothing had been built before (`Pipeline.buildGroups_append`), and of
groups with repeated names only the first of each name matter (`buildGroups_firsts`).

The runs that are compared do not leave the same log: each ends with a summary of its own, and groups that are left out are
reported. Natives, scans and units are therefore taken not to look at the log.
-/
namespace Scriptorium.Build

/-- What holds of every unit of a source, if its groups can be listed. -/
def Source.EachUnit {η : Type} (source : Source η) (property : ScriptUnit η → Prop) : Prop :=
  ∀ groups, source.groups.result = .ok groups → ∀ group ∈ groups, ∀ unit ∈ group.units, property unit

namespace Pipeline

variable {σ : Type} (pipeline : Pipeline σ) (execute : Bool)

/-- The names seen matter to the groups that have them. -/
theorem buildGroups_seen {seen seen' : List String} {groups : List (ScriptGroup (Host σ))}
    (agree : ∀ group ∈ groups, group.name ∈ seen ↔ group.name ∈ seen') (report : Report) (host : Host σ) :
    pipeline.buildGroups execute seen report host groups = pipeline.buildGroups execute seen' report host groups := by
  induction groups generalizing seen seen' report host with
  | nil => rfl
  | cons group groups ih =>
    obtain ⟨first, rest⟩ := List.forall_mem_cons.mp agree
    by_cases before : group.name ∈ seen
    · rw [buildGroups_cons_seen before, buildGroups_cons_seen (first.mp before)]
      exact ih rest _ _
    · rw [buildGroups_cons_fresh before, buildGroups_cons_fresh (mt first.mpr before)]
      have later : ∀ other ∈ groups, other.name ∈ group.name :: seen ↔ other.name ∈ group.name :: seen' := by
        intro other inside
        rw [List.mem_cons, List.mem_cons, rest other inside]
      cases pipeline.buildGroup group execute report (host.report .info .pipeline (loadingMessage group.name)) with
      | going report host => exact ih later report host
      | escaped panic host => rfl
      | unfinished => rfl

/-- Groups with names of their own are built as if nothing had been built before, but for the report and the host. -/
theorem buildGroups_append {first second : List (ScriptGroup (Host σ))} {seen : List String}
    (fresh : ∀ group ∈ second, group.name ∉ seen)
    (apart : ∀ group ∈ first, ∀ other ∈ second, group.name ≠ other.name) (report : Report) (host : Host σ) :
    pipeline.buildGroups execute seen report host (first ++ second) =
      match pipeline.buildGroups execute seen report host first with
      | .going report host => pipeline.buildGroups execute [] report host second
      | stopped => stopped := by
  induction first generalizing seen report host with
  | nil =>
    apply buildGroups_seen
    intro group inside
    simp only [fresh group inside, List.not_mem_nil]
  | cons group first ih =>
    obtain ⟨here, rest⟩ := List.forall_mem_cons.mp apart
    rw [List.cons_append]
    by_cases before : group.name ∈ seen
    · rw [buildGroups_cons_seen before, buildGroups_cons_seen before]
      exact ih fresh rest _ _
    · rw [buildGroups_cons_fresh before, buildGroups_cons_fresh before]
      have later : ∀ other ∈ second, other.name ∉ group.name :: seen := by
        intro other inside
        exact List.not_mem_cons_of_ne_of_not_mem (here other inside).symm (fresh other inside)
      cases pipeline.buildGroup group execute report (host.report .info .pipeline (loadingMessage group.name)) with
      | going report host => exact ih later rest report host
      | escaped panic host => rfl
      | unfinished => rfl

/-- A run over groups that are listed ends as building them does. -/
theorem run_listed (groups : List (ScriptGroup (Host σ))) (events : List LogEvent) (host : Host σ) :
    pipeline.run ⟨.ok groups, events⟩ execute host =
      match pipeline.buildGroups execute [] .empty (host.reportAll events) groups with
      | .going report host => .reported report (host.reportAll [report.summaryEvent])
      | .escaped panic host => .escaped panic host
      | .unfinished => .unfinished := by
  cases built : pipeline.buildGroups execute [] .empty (host.reportAll events) groups with
  | going report after | escaped panic after | unfinished => simp only [run, built, Host.log_push_eq]

/-- The host that a run leaves, if it comes to its end. -/
def RunOutcome.host? : RunOutcome σ → Option (Host σ)
  | .reported _ host | .sourceFailed _ host | .escaped _ host => some host
  | .unfinished => none

variable {pipeline execute} in
/-- What the collaborators of a run and its reports keep holds of the host that the run leaves. -/
theorem run_holding {property : Host σ → Prop} {host : Host σ} (respects : pipeline.Respects (Holding property)) {source : Source (Host σ)}
    (opens : source.EachUnit fun unit => Scriptorium.Respects (Holding property) unit.openStream)
    (holds : property host) {after : Host σ} (left : (pipeline.run source execute host).host? = some after) : property after := by
  have reporting (host : Host σ) (events : List LogEvent) (holds : property host) : property (host.reportAll events) :=
    (respects.reporting host host events ⟨rfl, holds⟩).2
  obtain ⟨⟨result, events⟩⟩ := source
  cases result with
  | error message =>
    cases left
    exact reporting host events holds
  | ok groups =>
    have begun : Holding property (host.reportAll events) (host.reportAll events) := ⟨rfl, reporting host events holds⟩
    have alike : Continuation.Like Eq (Holding property) (pipeline.buildGroups execute [] .empty (host.reportAll events) groups)
        (pipeline.buildGroups execute [] .empty (host.reportAll events) groups) :=
      buildGroups_like respects (fun _ _ _ => congrArg (Report.add · _)) (opens groups rfl) execute [] rfl begun
    rw [run_listed] at left
    cases built : pipeline.buildGroups execute [] .empty (host.reportAll events) groups with
    | unfinished =>
      rw [built] at left
      cases left
    | escaped panic last =>
      rw [built] at left alike
      cases left
      cases alike with
      | escaped _ alike => exact alike.2
    | going report last =>
      rw [built] at left alike
      cases left
      cases alike with
      | going _ alike => exact reporting last _ alike.2

theorem run_ofGroups (groups : List (ScriptGroup (Host σ))) (host : Host σ) :
    pipeline.run (.ofGroups groups) execute host =
      match pipeline.buildGroups execute [] .empty host groups with
      | .going report host => .reported report (host.reportAll [report.summaryEvent])
      | .escaped panic host => .escaped panic host
      | .unfinished => .unfinished := by
  rw [Source.ofGroups, run_listed, Host.reportAll, Array.appendList_nil]

end Pipeline

/-- Logs that went on in the same way, each from a beginning of its own. -/
def GoneOn (before before' : Array LogEvent) (log log' : List LogEvent) : Prop :=
  ∃ events, log = before.toList ++ events ∧ log' = before'.toList ++ events

theorem GoneOn.appending (before before' : Array LogEvent) : Appending (GoneOn before before') := by
  rintro _ _ events ⟨earlier, rfl, rfl⟩
  exact ⟨earlier ++ events, List.append_assoc _ _ _, List.append_assoc _ _ _⟩

theorem GoneOn.start (before before' : Array LogEvent) : GoneOn before before' before.toList before'.toList :=
  ⟨[], (List.append_nil _).symm, (List.append_nil _).symm⟩

/-- Reports the first of which began earlier. -/
def Preceded (earlier report report' : Report) : Prop := report = earlier.add report'

theorem Preceded.adding (earlier : Report) : Adding (Preceded earlier) := by
  rintro _ report' gain rfl
  exact Report.add_assoc earlier report' gain

section
variable {σ : Type} {parts : ScriptHost σ} {preprocessor : Preprocessor (Host σ)}

private theorem buildGroup_ne_escaped (settings : Settings) (loader : String) (group : ScriptGroup (Host σ)) (execute : Bool)
    (report : Report) (host : Host σ) (panic : Panic) (after : Host σ) :
    (parts.pipeline preprocessor settings loader).buildGroup group execute report host ≠ .escaped panic after := by
  rw [Pipeline.buildGroup_eq, ScriptHost.pipeline_newEnvironment]
  simp only [Pipeline.finishGroup]
  split <;> simp only [ne_eq, reduceCtorEq, not_false_eq_true]

theorem buildGroups_ne_escaped (settings : Settings) (loader : String) (groups : List (ScriptGroup (Host σ))) (execute : Bool)
    (seen : List String) (report : Report) (host : Host σ) (panic : Panic) (after : Host σ) :
    (parts.pipeline preprocessor settings loader).buildGroups execute seen report host groups ≠ .escaped panic after := by
  induction groups generalizing seen report host with
  | nil => simp only [Pipeline.buildGroups, ne_eq, reduceCtorEq, not_false_eq_true]
  | cons group groups ih =>
    by_cases before : group.name ∈ seen
    · rw [Pipeline.buildGroups_cons_seen before]
      exact ih _ _ _
    · rw [Pipeline.buildGroups_cons_fresh before]
      cases built : (parts.pipeline preprocessor settings loader).buildGroup group execute report
          (host.report .info .pipeline (Pipeline.loadingMessage group.name)) with
      | going report host => exact ih _ _ _
      | escaped panic host => exact absurd built (buildGroup_ne_escaped _ _ _ _ _ _ _ _)
      | unfinished => simp only [ne_eq, reduceCtorEq, not_false_eq_true]

/-- A run adds to the log. -/
theorem buildGroups_log {settings : Settings} {loader : String} (natives : parts.natives.See (id : σ → σ))
    (scans : ∀ unit stream, Sees (id : σ → σ) (preprocessor.scan unit stream)) {groups : List (ScriptGroup (Host σ))}
    (opens : ∀ group ∈ groups, ∀ unit ∈ group.units, Sees (id : σ → σ) unit.openStream) {execute : Bool} {seen : List String}
    {report report' : Report} {host host' : Host σ}
    (built : (parts.pipeline preprocessor settings loader).buildGroups execute seen report host groups = .going report' host') :
    ∃ events, host'.log.toList = host.log.toList ++ events := by
  have appending := GoneOn.appending host.log host.log
  have alike := Pipeline.buildGroups_like (ScriptHost.pipeline_respects appending settings loader natives scans)
    (Preceded.adding .empty) (fun group inside unit here => (opens group inside unit here).respects appending) execute seen
    (Report.empty_add report).symm ⟨rfl, rfl, GoneOn.start host.log host.log⟩
  rw [built] at alike
  cases alike with
  | going related alike =>
    obtain ⟨events, log, -⟩ := alike.log
    exact ⟨events, log⟩

end

section
variable {σ : Type}

theorem ofBytes_sees {ω : Type} {view : σ → ω} (name : String) (content : Text.Bytes) :
    Sees view (ScriptUnit.ofBytes name content : ScriptUnit (Host σ)).openStream :=
  sees_same _

/-- A group of one script. -/
def ScriptGroup.ofScript (name text : String) : ScriptGroup (Host σ) := ⟨name, [.ofBytes name text.toUTF8.toList]⟩

theorem ofScript_sees {ω : Type} {view : σ → ω} {scripts : List (String × String)} :
    ∀ group ∈ scripts.map (fun script => ScriptGroup.ofScript script.1 script.2), ∀ unit ∈ group.units,
      Sees view (unit : ScriptUnit (Host σ)).openStream := by
  intro group inside unit here
  obtain ⟨script, -, rfl⟩ := List.mem_map.mp inside
  rw [ScriptGroup.ofScript, List.mem_singleton] at here
  rw [here]
  exact ofBytes_sees _ _

end

/-- A host that offers what the application offers. -/
def contentParts : ScriptHost ContentStore := ⟨ContentStore.register .standard, [], 1000⟩

theorem contentParts_see : contentParts.natives.See (id : ContentStore → ContentStore) :=
  ContentStore.see_register (Natives.see_empty.register sees_print)

/-- The second script fails after it has changed the content, and the third one asks for the change. -/
def contentScripts : List (String × String) :=
  [("first.zs", "global k = 1;"), ("second.zs", "define(\"k\", 2); define(3, 4);"), ("third.zs", "remove(\"k\"); global k = 5;")]

/-- The groups of some scripts. -/
def groupsOf (scripts : List (String × String)) : List (ScriptGroup (Host ContentStore)) :=
  scripts.map fun script => .ofScript script.1 script.2

/-- The first group of each name that is not seen. -/
def firsts {η : Type} (seen : List String) : List (ScriptGroup η) → List (ScriptGroup η)
  | [] => []
  | group :: groups => if group.name ∈ seen then firsts seen groups else group :: firsts (group.name :: seen) groups

theorem firsts_cons_seen {η : Type} {seen : List String} {group : ScriptGroup η} (before : group.name ∈ seen)
    (groups : List (ScriptGroup η)) : firsts seen (group :: groups) = firsts seen groups := by
  rw [firsts, if_pos before]

theorem firsts_cons_fresh {η : Type} {seen : List String} {group : ScriptGroup η} (fresh : group.name ∉ seen)
    (groups : List (ScriptGroup η)) : firsts seen (group :: groups) = group :: firsts (group.name :: seen) groups := by
  rw [firsts, if_neg fresh]

private theorem firsts_eq {η : Type} (seen : List String) (groups : List (ScriptGroup η)) :
    firsts seen groups = (groups.filter fun group => group.name ∉ seen).eraseDupsBy fun a b => a.name == b.name := by
  induction groups generalizing seen with
  | nil => rfl
  | cons group groups ih =>
    by_cases before : group.name ∈ seen
    · rw [firsts_cons_seen before, List.filter_cons_of_neg (by simpa using before), ih]
    · rw [firsts_cons_fresh before, List.filter_cons_of_pos (by simpa using before), List.eraseDupsBy_cons, ih, List.filter_filter]
      simp only [List.mem_cons, not_or, Bool.decide_and, beq_eq_false_iff_ne, ne_eq, decide_not]

theorem firsts_nil {η : Type} (groups : List (ScriptGroup η)) : firsts [] groups = groups.eraseDupsBy fun a b => a.name == b.name := by
  rw [firsts_eq, List.filter_eq_self.mpr fun _ _ => decide_eq_true List.not_mem_nil]

theorem firsts_length_le {η : Type} (seen : List String) (groups : List (ScriptGroup η)) :
    (firsts seen groups).length ≤ groups.length := by
  induction groups generalizing seen with
  | nil => exact Nat.le_refl _
  | cons group groups ih =>
    by_cases before : group.name ∈ seen
    · rw [firsts_cons_seen before]
      exact Nat.le_succ_of_le (ih seen)
    · rw [firsts_cons_fresh before]
      exact Nat.succ_le_succ (ih _)

namespace Pipeline

variable {σ : Type} (pipeline : Pipeline σ)

private theorem addUnit_groupsSkipped (progress : Progress pipeline) (unit : ScriptUnit (Host σ)) :
    (pipeline.addUnit progress unit).report.groupsSkipped = progress.report.groupsSkipped := by
  unfold addUnit
  split
  split <;> rfl

private theorem units_groupsSkipped (units : List (ScriptUnit (Host σ))) (progress : Progress pipeline) :
    (units.foldl (addUnit pipeline) progress).report.groupsSkipped = progress.report.groupsSkipped := by
  induction units generalizing progress with
  | nil => rfl
  | cons unit units ih => exact (ih _).trans (addUnit_groupsSkipped pipeline progress unit)

private theorem finishGroup_groupsSkipped {group : String} {execute : Bool} {progress : Progress pipeline} {report : Report}
    {host : Host σ} (finished : finishGroup pipeline group execute progress = .going report host) :
    report.groupsSkipped = progress.report.groupsSkipped := by
  unfold finishGroup at finished
  split at finished
  · cases finished
  · cases finished
    rfl
  · cases finished
    rfl

private theorem buildGroup_groupsSkipped {group : ScriptGroup (Host σ)} {execute : Bool} {report report' : Report}
    {host host' : Host σ} (built : pipeline.buildGroup group execute report host = .going report' host') :
    report'.groupsSkipped = report.groupsSkipped := by
  rw [buildGroup_eq] at built
  split at built
  · cases built
  · exact (finishGroup_groupsSkipped pipeline built).trans (units_groupsSkipped pipeline group.units _)

/-- The groups skipped are those that are not the first of their name. -/
theorem buildGroups_groupsSkipped {groups : List (ScriptGroup (Host σ))} {execute : Bool} {seen : List String}
    {report report' : Report} {host host' : Host σ}
    (built : pipeline.buildGroups execute seen report host groups = .going report' host') :
    report'.groupsSkipped + (firsts seen groups).length = report.groupsSkipped + groups.length := by
  induction groups generalizing seen report host with
  | nil =>
    cases built
    rfl
  | cons group groups ih =>
    by_cases before : group.name ∈ seen
    · rw [buildGroups_cons_seen before] at built
      have rest := ih built
      simp only [Report.countDuplicate] at rest
      rw [firsts_cons_seen before, rest, List.length_cons, Nat.add_assoc, Nat.add_comm 1]
    · rw [buildGroups_cons_fresh before] at built
      rw [firsts_cons_fresh before, List.length_cons, List.length_cons]
      split at built
      · rename_i first
        have same := buildGroup_groupsSkipped pipeline first
        have rest := ih built
        omega
      · rename_i stopped
        exact absurd built (stopped _ _)

end Pipeline

/-- A log, and what is left of it when some lines are taken out. -/
def Thinned (lines : Nat) (log log' : List LogEvent) : Prop := log'.Sublist log ∧ log.length = log'.length + lines

theorem Thinned.appending (lines : Nat) : Appending (Thinned lines) := by
  rintro log log' events ⟨thinner, count⟩
  refine ⟨thinner.append (List.Sublist.refl events), ?_⟩
  rw [List.length_append, List.length_append, count]
  omega

theorem Thinned.more {lines : Nat} {log log' : List LogEvent} (thinned : Thinned lines log log') (event : LogEvent) :
    Thinned (lines + 1) (log ++ [event]) log' := by
  refine ⟨thinned.1.trans (List.sublist_append_left log _), ?_⟩
  rw [List.length_append, thinned.2, List.length_singleton, Nat.add_assoc]

/-- Reports that differ in the number of groups skipped. -/
def MoreSkipped (groups : Nat) : Report → Report → Prop := Preceded ⟨[], 0, groups, 0, 0⟩

theorem MoreSkipped.countDuplicate {groups : Nat} {report report' : Report} (related : MoreSkipped groups report report') :
    MoreSkipped (groups + 1) report.countDuplicate report' := by
  cases related
  simp only [MoreSkipped, Preceded, Report.add, Report.countDuplicate, Nat.add_right_comm]

section
variable {σ : Type} {parts : ScriptHost σ} {preprocessor : Preprocessor (Host σ)}

/-- Groups that are not the first of their name leave nothing but a line of the log and one more group skipped. -/
theorem buildGroups_firsts (natives : parts.natives.See (id : σ → σ))
    (scans : ∀ unit stream, Sees (id : σ → σ) (preprocessor.scan unit stream)) (settings : Settings) (loader : String)
    (execute : Bool) {groups : List (ScriptGroup (Host σ))} {seen : List String}
    (opens : ∀ group ∈ firsts seen groups, ∀ unit ∈ group.units, Sees (id : σ → σ) unit.openStream) {k : Nat}
    {report report' : Report} (related : MoreSkipped k report report') {host host' : Host σ}
    (alike : Host.Like (id : σ → σ) (Thinned k) host host') :
    let dropped := groups.length - (firsts seen groups).length
    ((parts.pipeline preprocessor settings loader).buildGroups execute seen report host groups).Like
      (MoreSkipped (k + dropped)) (Host.Like (id : σ → σ) (Thinned (k + dropped)))
      ((parts.pipeline preprocessor settings loader).buildGroups execute seen report' host' (firsts seen groups)) := by
  induction groups generalizing seen k report report' host host' with
  | nil => exact .going related alike
  | cons group groups ih =>
    intro dropped
    by_cases before : group.name ∈ seen
    · have count : k + dropped = k + 1 + (groups.length - (firsts seen groups).length) := by
        have := firsts_length_le seen groups
        simp only [dropped, firsts_cons_seen before, List.length_cons]
        omega
      rw [firsts_cons_seen before] at opens ⊢
      rw [count, Pipeline.buildGroups_cons_seen before]
      refine ih opens related.countDuplicate ⟨alike.actions, alike.state, ?_⟩
      simp only [Host.report, Array.toList_push]
      exact alike.log.more _
    · have count : dropped = groups.length - (firsts (group.name :: seen) groups).length := by
        simp only [dropped, firsts_cons_fresh before, List.length_cons, Nat.add_sub_add_right]
      rw [firsts_cons_fresh before] at opens ⊢
      rw [count, Pipeline.buildGroups_cons_fresh before, Pipeline.buildGroups_cons_fresh before]
      obtain ⟨here, rest⟩ := List.forall_mem_cons.mp opens
      have respects := ScriptHost.pipeline_respects (Thinned.appending k) settings loader natives scans
      have built := Pipeline.buildGroup_like respects (Preceded.adding ⟨[], 0, k, 0, 0⟩)
        (fun unit inside => (here unit inside).respects (Thinned.appending k)) execute related
        (respects.reporting.report alike .info .pipeline (Pipeline.loadingMessage group.name))
      cases first : (parts.pipeline preprocessor settings loader).buildGroup group execute report'
          (host'.report .info .pipeline (Pipeline.loadingMessage group.name)) with
      | escaped panic after => exact absurd first (buildGroup_ne_escaped _ _ _ _ _ _ _ _)
      | unfinished =>
        rw [first] at built
        rw [built.of_unfinished]
        exact .unfinished
      | going report' host' =>
        rw [first] at built
        obtain ⟨report, host, going, related, alike⟩ := built.of_going
        rw [going]
        exact ih rest related alike

end

/-- Two sources with groups of the same names. -/
def repeatedSources : List (Source (Host ContentStore)) :=
  [.ofGroups (groupsOf contentScripts), .ofGroups (groupsOf contentScripts.reverse)]

end Scriptorium.Build
