import Mathlib
import Scriptorium.Content
import Scriptorium.Machine.Run

/-!
# Likeness of hosts

What two hosts have in common is a relation between them. Work respects the relation when it gives the same value on like
hosts and leaves them alike; a machine respects what its natives respect (`Memory.run_respects`).

Of a host, work may see the actions and a part of the state. It may add to the log, but does not look at it: the log is for
readers outside. Such work respects every likeness of that part under which both logs may go on in the same way
(`Sees.respects`).
-/
namespace Scriptorium

section
variable {η α : Type}

/-- Answers with one value and like hosts. -/
def SameAnswer (like : η → η → Prop) (answer answer' : α × η) : Prop :=
  ∃ value host host', answer = (value, host) ∧ answer' = (value, host') ∧ like host host'

/-- Work that gives one value on like hosts and leaves them alike. -/
def Respects (like : η → η → Prop) (work : η → α × η) : Prop :=
  ∀ host host', like host host' → SameAnswer like (work host) (work host')

/-- One and the same host, which has some property. -/
def Holding (property : η → Prop) (host host' : η) : Prop := host = host' ∧ property host

/-- Work that keeps a property of hosts does the same on a host that has it. -/
theorem Respects.holding {property : η → Prop} {work : η → α × η}
    (kept : ∀ host, property host → property (work host).2) : Respects (Holding property) work := by
  rintro host _ ⟨rfl, holds⟩
  exact ⟨_, _, _, rfl, rfl, rfl, kept host holds⟩

/-- Natives that all respect a likeness. -/
def Natives.Respect (like : η → η → Prop) (natives : Natives η) : Prop :=
  ∀ name native, natives.get? name = some native → ∀ args, Respects like (native.call args)

end

namespace Machine

variable {σ : Type} {like : σ → σ → Prop}

/-- The same step, on like hosts. -/
inductive Step.Like (like : σ → σ → Prop) : Step σ → Step σ → Prop
  | running (state : State) {host host' : σ} (alike : like host host') : Like like (.running state host) (.running state host')
  | returned (state : State) {host host' : σ} (alike : like host host') : Like like (.returned state host) (.returned state host')
  | failed (error : RunError) (state : State) {host host' : σ} (alike : like host host') :
      Like like (.failed error state host) (.failed error state host')
  | panicked (panic : Panic) (state : State) {host host' : σ} (alike : like host host') :
      Like like (.panicked panic state host) (.panicked panic state host')

/-- The same end, on like hosts. -/
structure Ended.Like (like : σ → σ → Prop) (ended ended' : Ended σ) : Prop where
  result : ended.result = ended'.result
  memory : ended.memory = ended'.memory
  host : like ended.host ended'.host

section
variable {program : Program} {natives : Natives σ} {host host' : σ}

private theorem executeReturn_like (site : Site) (state : State) (alike : like host host') :
    (executeReturn site state host).Like like (executeReturn site state host') := by
  unfold executeReturn
  split
  · exact .failed _ _ alike
  · split
    · exact .returned _ alike
    · exact .running _ alike

private theorem executeCall_like (respect : natives.Respect like) (site : Site) (name : String) (count : Nat) (state : State)
    (alike : like host host') :
    (executeCall program natives site name count state host).Like like
      (executeCall program natives site name count state host') := by
  unfold executeCall
  by_cases short : state.stack.size < count
  · simp only [if_pos short]
    exact .failed _ _ alike
  · simp only [if_neg short]
    cases program.functions[name]? with
    | some linked =>
      simp only
      split
      · exact .failed _ _ alike
      · split
        · exact .failed _ _ alike
        · exact .running _ alike
    | none =>
      cases found : natives.get? name with
      | none => exact .failed _ _ alike
      | some native =>
        simp only
        split
        · exact .failed _ _ alike
        · obtain ⟨result, next, next', called, called', after⟩ := respect name native found _ host host' alike
          rw [called, called']
          cases result with
          | returned value => exact .running _ after
          | refused message => exact .failed _ _ after
          | panicked panic => exact .panicked _ _ after

/-- A step does the same on like hosts. -/
theorem step_like (respect : natives.Respect like) (state : State) (alike : like host host') :
    (step program natives state host).Like like (step program natives state host') := by
  unfold step
  cases fetch state.frame.chunk state.frame.offset with
  | error fault => exact .failed _ _ alike
  | ok instruction =>
    simp only
    split
    · exact executeReturn_like _ _ alike
    · split
      · exact .failed _ _ alike
      · exact executeCall_like respect _ _ _ _ alike
    · split
      · exact .running _ alike
      · exact .failed _ _ alike

private theorem runSteps_like (respect : natives.Respect like) (depth steps : Nat) (state : State) (alike : like host host') :
    Option.Rel (Ended.Like like) (runSteps program natives depth steps state host)
      (runSteps program natives depth steps state host') := by
  induction steps generalizing state host host' with
  | zero => exact .none
  | succ steps ih =>
    have stepped : (step program natives state host).Like like (step program natives state host') :=
      step_like respect state alike
    unfold runSteps
    revert stepped
    generalize step program natives state host = stepped
    generalize step program natives state host' = stepped'
    intro stepped
    cases stepped with
    | running next after => exact ih next after
    | returned next after | failed _ next after | panicked _ next after => exact .some ⟨rfl, rfl, after⟩

theorem runBody_like (respect : natives.Respect like) (steps : Nat) (compiled : Bytecode.CompiledUnit) (memory : Memory)
    (alike : like host host') :
    Option.Rel (Ended.Like like) (runBody program natives steps compiled memory host)
      (runBody program natives steps compiled memory host') := by
  unfold runBody
  split
  · exact .some ⟨rfl, rfl, alike⟩
  · exact runSteps_like respect _ _ _ alike

private theorem runBodies_like (respect : natives.Respect like) (steps : Nat) (memory : Memory) (alike : like host host')
    (bodies : List Bytecode.CompiledUnit) :
    Option.Rel (Ended.Like like) (runBodies program natives steps memory host bodies)
      (runBodies program natives steps memory host' bodies) := by
  induction bodies generalizing memory host host' with
  | nil => exact .some ⟨rfl, rfl, alike⟩
  | cons compiled bodies ih =>
    have first : Option.Rel (Ended.Like like) (runBody program natives steps compiled memory host)
        (runBody program natives steps compiled memory host') := runBody_like respect steps compiled memory alike
    unfold runBodies
    revert first
    generalize runBody program natives steps compiled memory host = ended
    generalize runBody program natives steps compiled memory host' = ended'
    intro first
    cases first with
    | none => exact .none
    | @some ended ended' same =>
      obtain ⟨result, memory, host⟩ := ended
      obtain ⟨result', memory', host'⟩ := ended'
      obtain ⟨rfl, rfl, after⟩ := same
      cases result with
      | finished => exact ih memory after
      | failed | panicked => exact .some ⟨rfl, rfl, after⟩

/-- A program runs alike on like hosts: it comes to the same end and leaves the same globals. -/
theorem Memory.run_respects (respect : natives.Respect like) (steps : Nat) (memory : Memory) (alike : like host host') :
    Option.Rel (Ended.Like like) (memory.run program natives steps host) (memory.run program natives steps host') :=
  runBodies_like respect steps memory alike program.bodies

end

end Machine

section
variable {σ ω α : Type} {view : σ → ω} {logs : List LogEvent → List LogEvent → Prop} {like : Host σ → Host σ → Prop}

/-- Logs that stay related when the same events are added to both. -/
def Appending (logs : List LogEvent → List LogEvent → Prop) : Prop :=
  ∀ log log' events, logs log log' → logs (log ++ events) (log' ++ events)

/-- Hosts that stay alike when the same events are reported to both. -/
def Reporting (like : Host σ → Host σ → Prop) : Prop :=
  ∀ host host' events, like host host' → like (host.reportAll events) (host'.reportAll events)

namespace Host

/-- Hosts with the same actions, with states that look the same, and with related logs. -/
structure Like (view : σ → ω) (logs : List LogEvent → List LogEvent → Prop) (host host' : Host σ) : Prop where
  actions : host.actions = host'.actions
  state : view host.state = view host'.state
  log : logs host.log.toList host'.log.toList

theorem Like.reporting (appending : Appending logs) : Reporting (Host.Like view logs) := by
  intro host host' events alike
  refine ⟨alike.actions, alike.state, ?_⟩
  simp only [reportAll, Array.toList_appendList]
  exact appending _ _ events alike.log

theorem report_eq (host : Host σ) (level : LogLevel) (target : LogTarget) (message : String) :
    host.report level target message = host.reportAll [⟨level, target, message⟩] := by
  simp only [report, reportAll, Array.appendList_cons, Array.appendList_nil]

theorem log_push_eq (host : Host σ) (event : LogEvent) :
    { host with log := host.log.push event } = host.reportAll [event] := by
  simp only [reportAll, Array.appendList_cons, Array.appendList_nil]

end Host

theorem Reporting.report (reporting : Reporting like) {host host' : Host σ}
    (alike : like host host') (level : LogLevel) (target : LogTarget) (message : String) :
    like (host.report level target message) (host'.report level target message) := by
  rw [Host.report_eq, Host.report_eq]
  exact reporting _ _ _ alike

/-- Work that depends only on the actions and on what is seen of the state: it gives one value wherever these are the
same, leaves them the same, and adds the same events to the log, which it does not look at. -/
def Sees (view : σ → ω) (work : Host σ → α × Host σ) : Prop :=
  ∀ host host', host.actions = host'.actions → view host.state = view host'.state →
    ∃ value next next', ∃ events : List LogEvent, work host = (value, next) ∧ work host' = (value, next') ∧
      next.actions = next'.actions ∧ view next.state = view next'.state ∧ next.log = host.log ++ events ∧ next'.log = host'.log ++ events

theorem Sees.respects {work : Host σ → α × Host σ} (sees : Sees view work) (appending : Appending logs) :
    Respects (Host.Like view logs) work := by
  intro host host' alike
  obtain ⟨value, next, next', events, run, run', actions, state, log, log'⟩ := sees host host' alike.actions alike.state
  refine ⟨value, next, next', run, run', actions, state, ?_⟩
  rw [log, log', Array.toList_appendList, Array.toList_appendList]
  exact appending _ _ events alike.log

/-- Natives that all see no more of a host. -/
def Natives.See (view : σ → ω) (natives : Natives (Host σ)) : Prop :=
  ∀ name native, natives.get? name = some native → ∀ args, Sees view (native.call args)

theorem Natives.See.respect {natives : Natives (Host σ)} (see : natives.See view) (appending : Appending logs) :
    natives.Respect (Host.Like view logs) :=
  fun name native found args => (see name native found args).respects appending

theorem Natives.see_empty : (Natives.empty : Natives (Host σ)).See view := by
  intro name native found
  cases found

private theorem lookup_filter_ne {β : Type} {name other : String} (differ : other ≠ name) (entries : List (String × β)) :
    (entries.filter (·.1 != name)).lookup other = entries.lookup other := by
  induction entries with
  | nil => rfl
  | cons entry entries ih =>
    by_cases dropped : entry.1 = name
    · have passed : (other == entry.1) = false := beq_false_of_ne (dropped ▸ differ)
      rw [List.filter_cons_of_neg (by simpa using dropped), List.lookup_cons, passed, ih]
    · rw [List.filter_cons_of_pos (by simpa using dropped), List.lookup_cons, List.lookup_cons, ih]

theorem Natives.get?_register {natives : Natives (Host σ)} {name other : String} {native found : Native (Host σ)}
    (present : (natives.register name native).get? other = some found) : found = native ∨ natives.get? other = some found := by
  rw [get?, register, List.lookup_append, Option.or_eq_some_iff] at present
  by_cases same : other = name
  · subst same
    have absent : (natives.entries.filter (·.1 != other)).lookup other = none := by
      rw [List.lookup_eq_none_iff]
      intro entry kept
      exact bne_comm.trans (List.mem_filter.mp kept).2
    simp only [absent, reduceCtorEq, true_and, false_or, List.lookup_cons, beq_self_eq_true, Option.some.injEq] at present
    exact .inl present.symm
  · have passed : (other == name) = false := beq_false_of_ne same
    simp only [lookup_filter_ne same, List.lookup_cons, passed, List.lookup_nil, reduceCtorEq, and_false, or_false] at present
    exact .inr present

theorem Natives.See.register {natives : Natives (Host σ)} (see : natives.See view) {name : String} {native : Native (Host σ)}
    (sees : ∀ args, Sees view (native.call args)) : (natives.register name native).See view := by
  intro other found present
  rcases Natives.get?_register present with rfl | before
  · exact sees
  · exact see other found before

/-- Work that leaves the host as it is but for the log. -/
theorem sees_report (value : α) (events : List LogEvent) : Sees view fun host : Host σ => (value, host.reportAll events) :=
  fun _ _ actions state => ⟨value, _, _, events, rfl, rfl, actions, state, rfl, rfl⟩

theorem sees_same (value : α) : Sees view fun host : Host σ => (value, host) := by
  intro host host' actions state
  exact ⟨value, host, host', [], rfl, rfl, actions, state, Array.appendList_nil.symm, Array.appendList_nil.symm⟩

theorem sees_print (args : List Value) : Sees view ((Native.print : Native (Host σ)).call args) := by
  simp only [Native.print, Host.report_eq]
  exact sees_report _ _

private theorem sees_apply (value : α) (description : String) (effect : σ → σ) :
    Sees (id : σ → σ) fun host => (value, host.apply (.simple description effect)) := by
  rintro ⟨log, actions, state⟩ ⟨log', _, _⟩ rfl rfl
  refine ⟨value, _, _, [⟨.info, .actions, description⟩], rfl, rfl, rfl, rfl, ?_, ?_⟩
  all_goals simp only [Array.appendList_cons, Array.appendList_nil]
  all_goals rfl

end

namespace ContentStore

variable {σ : Type} [HasContent σ]

private theorem sees_define (args : List Value) : Sees (id : σ → σ) (define.call args) := by
  -- by the number of the arguments and the type of the first
  rcases args with _ | ⟨_ | _ | _ | _, _ | ⟨_, _ | _⟩⟩
  all_goals first | exact sees_same _ | exact sees_apply _ _ _

private theorem sees_remove (args : List Value) : Sees (id : σ → σ) (remove.call args) := by
  rcases args with _ | ⟨_ | key | _ | _, _ | _⟩
  case cons.text.nil =>
    intro host host' actions state
    have content : HasContent.content host'.state = HasContent.content host.state := congrArg _ state.symm
    by_cases present : (HasContent.content host.state).contains key
    · have removed := sees_apply (Attempt.returned (.bool true) : NativeResult) s!"Removing {key}"
        (HasContent.update (·.erase key)) host host' actions state
      simpa only [remove, removing, content, present, if_true] using removed
    · have kept := sees_same (Attempt.returned (.bool false) : NativeResult) host host' actions state
      simpa only [remove, content, present, Bool.false_eq_true, if_false] using kept
  all_goals exact sees_same _

/-- The natives of the application do not look at the log. -/
theorem see_register {natives : Natives (Host σ)} (see : natives.See (id : σ → σ)) : (register natives).See (id : σ → σ) :=
  (see.register sees_define).register sees_remove

end ContentStore

end Scriptorium
