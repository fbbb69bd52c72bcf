import Scriptorium.Proofs.Likeness

/-!
# Calls of natives

A machine does not keep what it calls. The calls that a step makes are those that natives note which are otherwise the same
(`Natives.noting`), and the calls of a run are those of its steps, whether the run comes to an end or not. On hosts that natives
cannot tell apart a run makes the same calls (`Memory.calls_like`).

Natives are steady where their results depend only on the arguments, and on a part of the host that they do not change
(`Natives.Steady`). Of hosts with that part in common they leave such hosts, whatever else they do.
-/
namespace Scriptorium

/-- A call of a native. -/
structure NativeCall where
  name : String
  args : List Value

section
variable {σ : Type}

/-- The same native; each call is noted beside the host, under the name that the native has there. -/
def Native.noting (native : Native σ) (name : String) : Native (σ × List NativeCall) where
  arity := native.arity
  call args host :=
    let (result, after) := native.call args host.1
    (result, after, host.2 ++ [⟨name, args⟩])

/-- The same natives, which note each call. -/
def Natives.noting (natives : Natives σ) : Natives (σ × List NativeCall) :=
  ⟨natives.entries.map fun entry => (entry.1, entry.2.noting entry.1)⟩

theorem Natives.get?_noting (natives : Natives σ) (name : String) :
    natives.noting.get? name = (natives.get? name).map (·.noting name) := by
  obtain ⟨entries⟩ := natives
  simp only [get?, noting]
  induction entries with
  | nil => rfl
  | cons entry entries ih =>
    rw [List.map_cons, List.lookup_cons, List.lookup_cons]
    cases same : name == entry.1 with
    | true =>
      rw [eq_of_beq same]
      rfl
    | false => exact ih

/-- Like hosts beside the same calls. -/
def Beside (like : σ → σ → Prop) (host host' : σ × List NativeCall) : Prop := like host.1 host'.1 ∧ host.2 = host'.2

theorem Natives.Respect.noting {like : σ → σ → Prop} {natives : Natives σ} (respect : natives.Respect like) :
    natives.noting.Respect (Beside like) := by
  intro name native found args
  rw [get?_noting] at found
  obtain ⟨original, present, rfl⟩ := Option.map_eq_some_iff.mp found
  rintro ⟨host, calls⟩ ⟨host', _⟩ ⟨alike, rfl⟩
  obtain ⟨result, after, after', called, called', alike⟩ := respect name original present args host host' alike
  simp only [Native.noting, called, called']
  exact ⟨result, _, _, rfl, rfl, alike, rfl⟩

end

namespace Machine

variable {σ : Type}

/-- The host that a step leaves. -/
def Step.host : Step σ → σ
  | running _ host | returned _ host | failed _ _ host | panicked _ _ host => host

theorem Step.Like.host {like : σ → σ → Prop} {first second : Step σ} (alike : first.Like like second) :
    like first.host second.host := by
  cases alike with
  | running _ alike | returned _ alike | failed _ _ alike | panicked _ _ alike => exact alike

variable (program : Program) (natives : Natives σ)

/-- The calls that a step makes. -/
def callsOfStep (state : State) (host : σ) : List NativeCall := (step program natives.noting state (host, [])).host.2

/-- The calls up to the end of the body that runs, or up to the last step that it is given. -/
def callsOfSteps : Nat → State → σ → List NativeCall
  | 0, _, _ => []
  | steps + 1, state, host =>
    callsOfStep program natives state host ++
      match step program natives state host with
      | .running state host => callsOfSteps steps state host
      | _ => []

/-- The calls of a body that runs on an empty stack. -/
def callsOfBody (steps : Nat) (compiled : Bytecode.CompiledUnit) (memory : Memory) (host : σ) : List NativeCall :=
  if maxDepth ≤ memory.depth then []
  else
    callsOfSteps program natives steps
      ⟨⟨compiled.body, compiled.source, 0, 0⟩, [], memory.depth + 1, #[], memory.globals⟩ host

/-- The calls of bodies that run one after the other. -/
def callsOfBodies (steps : Nat) (memory : Memory) (host : σ) : List Bytecode.CompiledUnit → List NativeCall
  | [] => []
  | compiled :: rest =>
    callsOfBody program natives steps compiled memory host ++
      match runBody program natives steps compiled memory host with
      | some ⟨.finished, memory, host⟩ => callsOfBodies steps memory host rest
      | _ => []

/-- The calls of a program that runs. -/
def Memory.calls (steps : Nat) (memory : Memory) (host : σ) : List NativeCall :=
  callsOfBodies program natives steps memory host program.bodies

section
variable {program natives} {like : σ → σ → Prop} {host host' : σ}

private theorem callsOfStep_like (respect : natives.Respect like) (state : State) (alike : like host host') :
    callsOfStep program natives state host = callsOfStep program natives state host' := by
  have begun : Beside like (host, []) (host', []) := ⟨alike, rfl⟩
  exact (step_like respect.noting state begun).host.2

private theorem callsOfSteps_like (respect : natives.Respect like) (steps : Nat) (state : State) (alike : like host host') :
    callsOfSteps program natives steps state host = callsOfSteps program natives steps state host' := by
  induction steps generalizing state host host' with
  | zero => rfl
  | succ steps ih =>
    have stepped : (step program natives state host).Like like (step program natives state host') := step_like respect state alike
    unfold callsOfSteps
    rw [callsOfStep_like respect state alike]
    congr 1
    revert stepped
    generalize step program natives state host = stepped
    generalize step program natives state host' = stepped'
    intro stepped
    cases stepped with
    | running next after => exact ih next after
    | returned | failed | panicked => rfl

private theorem callsOfBody_like (respect : natives.Respect like) (steps : Nat) (compiled : Bytecode.CompiledUnit) (memory : Memory)
    (alike : like host host') :
    callsOfBody program natives steps compiled memory host = callsOfBody program natives steps compiled memory host' := by
  unfold callsOfBody
  split
  · rfl
  · exact callsOfSteps_like respect _ _ alike

private theorem callsOfBodies_like (respect : natives.Respect like) (steps : Nat) (memory : Memory) (alike : like host host')
    (bodies : List Bytecode.CompiledUnit) :
    callsOfBodies program natives steps memory host bodies = callsOfBodies program natives steps memory host' bodies := by
  induction bodies generalizing memory host host' with
  | nil => rfl
  | cons compiled bodies ih =>
    have first : Option.Rel (Ended.Like like) (runBody program natives steps compiled memory host)
        (runBody program natives steps compiled memory host') := runBody_like respect steps compiled memory alike
    unfold callsOfBodies
    rw [callsOfBody_like respect steps compiled memory alike]
    congr 1
    revert first
    generalize runBody program natives steps compiled memory host = ended
    generalize runBody program natives steps compiled memory host' = ended'
    intro first
    cases first with
    | none => rfl
    | @some ended ended' same =>
      obtain ⟨result, memory, host⟩ := ended
      obtain ⟨result', memory', host'⟩ := ended'
      obtain ⟨rfl, rfl, after⟩ := same
      cases result with
      | finished => exact ih memory after
      | failed | panicked => rfl

/-- A program makes the same calls on like hosts. -/
theorem Memory.calls_like (respect : natives.Respect like) (steps : Nat) (memory : Memory) (alike : like host host') :
    memory.calls program natives steps host = memory.calls program natives steps host' :=
  callsOfBodies_like respect steps memory alike program.bodies

end

end Machine

section
variable {σ ω : Type} {view : σ → ω}

/-- Hosts with states that look the same, whatever was applied and logged. -/
def SameView (view : σ → ω) (host host' : Host σ) : Prop := view host.state = view host'.state

theorem SameView.reporting : Reporting (SameView view) := fun _ _ _ alike => alike

/-- A native with results that depend only on the arguments and on what is seen of the host, which it leaves as it is. -/
structure Native.Steady (view : σ → ω) (native : Native (Host σ)) : Prop where
  result : ∀ args host host', SameView view host host' → (native.call args host).1 = (native.call args host').1
  kept : ∀ args host, SameView view host (native.call args host).2

/-- Natives that are all steady. -/
def Natives.Steady (view : σ → ω) (natives : Natives (Host σ)) : Prop :=
  ∀ name native, natives.get? name = some native → native.Steady view

theorem Natives.Steady.respect {natives : Natives (Host σ)} (steady : natives.Steady view) :
    natives.Respect (SameView view) := by
  intro name native found args host host' alike
  have same := (steady name native found).result args host host' alike
  have kept := (steady name native found).kept args
  exact ⟨_, _, _, rfl, by rw [same], ((kept host).symm.trans alike).trans (kept host')⟩

/-- Natives that leave as it is what is seen of the host. -/
def Natives.Keep (view : σ → ω) (natives : Natives (Host σ)) : Prop :=
  ∀ name native, natives.get? name = some native → ∀ args host, SameView view host (native.call args host).2

theorem Natives.Steady.keep {natives : Natives (Host σ)} (steady : natives.Steady view) : natives.Keep view :=
  fun name native found => (steady name native found).kept

theorem Natives.Keep.holding {natives : Natives (Host σ)} (keep : natives.Keep view) (start : Host σ) :
    natives.Respect (Holding (SameView view start)) :=
  fun name native found args => .holding fun host alike => alike.trans (keep name native found args host)

theorem Natives.steady_empty : (Natives.empty : Natives (Host σ)).Steady view := by
  intro name native found
  cases found

theorem Natives.Steady.register {natives : Natives (Host σ)} (steady : natives.Steady view) {name : String}
    {native : Native (Host σ)} (added : native.Steady view) : (natives.register name native).Steady view := by
  intro other found present
  rcases Natives.get?_register present with rfl | before
  · exact added
  · exact steady other found before

theorem Native.steady_print : (Native.print : Native (Host σ)).Steady view := ⟨fun _ _ _ _ => rfl, fun _ _ => rfl⟩

/-- Defining content does not look at the content. -/
theorem ContentStore.steady_define [HasContent σ] : (define : Native (Host σ)).Steady fun _ => () := by
  refine ⟨?_, fun _ _ => rfl⟩
  intro args host host' _
  -- by the number of the arguments and the type of the first
  rcases args with _ | ⟨_ | _ | _ | _, _ | ⟨_, _ | _⟩⟩
  all_goals rfl

end

end Scriptorium
