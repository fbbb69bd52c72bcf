import Scriptorium.Proofs.LocalSlots
import Scriptorium.Proofs.MachineRuns
import Scriptorium.Script.Environment

/-!
# Simulation

What it means that the machine does what an evaluation says. `Runs` follows an evaluation from a state of
the machine: where the evaluation has a value, the machine comes to a state that is described; where it
stops at a fault or a panic, the machine stops in the same way; and where its time is not enough, the
machine has made at least as many steps as there was time. The last makes an evaluation that never ends
the same as a run that never ends.

`Runs.bind` takes an evaluation apart, and `Runs.step` goes on by one instruction.
-/
namespace Scriptorium.Simulation

open Evaluation (Scopes World Store Stop Evaluating Acting)
open Machine (Fault Program State Reaches step)
open Script (Environment)
open Std (HashMap)

/-- What the calls of a group run in: the program, the natives, the environment that was compiled against,
and whether code keeps its lines. -/
structure Setting (σ : Type) where
  program : Program
  natives : Natives σ
  env : Environment
  debug : Bool

/-- The faults that are left to code which a compiler has checked. -/
inductive Expected (env : Environment) : Fault → Prop
  | operator (fault : OperatorFault) : Expected env (.operator fault)
  | refused (native message : String) : Expected env (.refused native message)
  | stackOverflow : Expected env .stackOverflow
  | undefinedGlobal {name : String} (declared : env.hasGlobal name = true) : Expected env (.undefinedGlobal name)

namespace Setting

variable {σ τ α β : Type} (setting : Setting σ)

/-- From a state the machine stops as an evaluation does, with the same globals and the same host. -/
def Stops (time : Nat) (state : State) (host : σ) : Stop → World σ → Prop
  | .fault fault unit line, world => Expected setting.env fault ∧ ∃ n last lastHost failed,
      Reaches setting.program setting.natives n state host last lastHost ∧
      step setting.program setting.natives last lastHost =
        .failed ⟨fault, some ⟨unit, if setting.debug then some line else none⟩⟩ failed world.host ∧
      failed.globals = world.globals
  | .panicked panic, world => ∃ n last lastHost failed,
      Reaches setting.program setting.natives n state host last lastHost ∧
      step setting.program setting.natives last lastHost = .panicked panic failed world.host ∧
      failed.globals = world.globals
  | .unfinished, _ => ∃ n last lastHost, time ≤ n ∧ Reaches setting.program setting.natives n state host last lastHost

/-- From a state the machine does what an evaluation says that has come to a result. -/
def Runs (time : Nat) (world : τ → World σ) (state : State) (host : σ) (post : α → τ → State → σ → Prop) :
    EStateM.Result Stop τ α → Prop
  | .ok a store => ∃ n last lastHost, Reaches setting.program setting.natives n state host last lastHost ∧
      post a store last lastHost
  | .error stop store => setting.Stops time state host stop (world store)

variable {setting : Setting σ} {time shorter n : Nat} {world : τ → World σ} {state mid : State} {host midHost : σ}
  {stop : Stop} {w : World σ} {post : α → τ → State → σ → Prop} {result : EStateM.Result Stop τ α}

/-- A run before the stop counts. -/
theorem Stops.after (run : Reaches setting.program setting.natives n state host mid midHost)
    (stops : setting.Stops time mid midHost stop w) : setting.Stops (time + n) state host stop w := by
  cases stop with
  | fault fault unit line =>
    obtain ⟨expected, m, last, lastHost, failed, rest, stopped, same⟩ := stops
    exact ⟨expected, n + m, last, lastHost, failed, run.trans rest, stopped, same⟩
  | panicked panic =>
    obtain ⟨m, last, lastHost, failed, rest, stopped, same⟩ := stops
    exact ⟨n + m, last, lastHost, failed, run.trans rest, stopped, same⟩
  | unfinished =>
    obtain ⟨m, last, lastHost, long, rest⟩ := stops
    exact ⟨n + m, last, lastHost, by omega, run.trans rest⟩

theorem Stops.less (stops : setting.Stops time state host stop w) (fewer : shorter ≤ time) :
    setting.Stops shorter state host stop w := by
  cases stop with
  | fault fault unit line => exact stops
  | panicked panic => exact stops
  | unfinished =>
    obtain ⟨m, last, lastHost, long, rest⟩ := stops
    exact ⟨m, last, lastHost, Nat.le_trans fewer long, rest⟩

namespace Runs

theorem done {a : α} {store : τ} (holds : post a store state host) :
    setting.Runs time world state host post (.ok a store) :=
  ⟨0, state, host, .refl, holds⟩

theorem unfinished {store : τ} : setting.Runs 0 world state host post (.error .unfinished store) :=
  ⟨0, state, host, Nat.le_refl 0, .refl⟩

/-- A run before the evaluation counts. -/
theorem after (run : Reaches setting.program setting.natives n state host mid midHost)
    (rest : setting.Runs time world mid midHost post result) :
    setting.Runs (time + n) world state host post result := by
  cases result with
  | ok a store =>
    obtain ⟨m, last, lastHost, more, holds⟩ := rest
    exact ⟨n + m, last, lastHost, run.trans more, holds⟩
  | error stop store => exact Stops.after run rest

theorem less (runs : setting.Runs time world state host post result) (fewer : shorter ≤ time) :
    setting.Runs shorter world state host post result := by
  cases result with
  | ok a store => exact runs
  | error stop store => exact Stops.less runs fewer

/-- One instruction before the evaluation. -/
theorem step (first : Machine.step setting.program setting.natives state host = .running mid midHost)
    (rest : setting.Runs time world mid midHost post result) : setting.Runs time world state host post result :=
  less (after (.one first) rest) (Nat.le_succ time)

/-- One instruction makes up for one of what there was time for. -/
theorem tick (first : Machine.step setting.program setting.natives state host = .running mid midHost)
    (rest : setting.Runs time world mid midHost post result) :
    setting.Runs (time + 1) world state host post result :=
  after (.one first) rest

theorem imp {other : α → τ → State → σ → Prop} (runs : setting.Runs time world state host post result)
    (holds : ∀ a store last lastHost, post a store last lastHost → other a store last lastHost) :
    setting.Runs time world state host other result := by
  cases result with
  | ok a store =>
    obtain ⟨m, last, lastHost, run, here⟩ := runs
    exact ⟨m, last, lastHost, run, holds a store last lastHost here⟩
  | error stop store => exact runs

/-- The machine may go on after an evaluation. -/
theorem more {other : α → τ → State → σ → Prop} (runs : setting.Runs time world state host post result)
    (next : ∀ a store last lastHost, post a store last lastHost →
      setting.Runs time world last lastHost other (.ok a store)) :
    setting.Runs time world state host other result := by
  cases result with
  | ok a store =>
    obtain ⟨m, last, lastHost, run, here⟩ := runs
    exact less (after run (next a store last lastHost here)) (Nat.le_add_right time m)
  | error stop store => exact runs

/-- What is described may use what the evaluation gave. -/
theorem known (runs : setting.Runs time world state host post result) :
    setting.Runs time world state host
      (fun a store last lastHost => result = .ok a store ∧ post a store last lastHost) result := by
  cases result with
  | ok a store =>
    obtain ⟨m, last, lastHost, run, holds⟩ := runs
    exact ⟨m, last, lastHost, run, rfl, holds⟩
  | error stop store => exact runs

/-- An evaluation of two parts is followed through the first and then through the second. -/
theorem bind {first : EStateM Stop τ α} {rest : α → EStateM Stop τ β} {store : τ}
    {other : β → τ → State → σ → Prop} (runs : setting.Runs time world state host post (first store))
    (next : ∀ a store last lastHost, post a store last lastHost →
      setting.Runs time world last lastHost other (rest a store)) :
    setting.Runs time world state host other ((first >>= rest) store) := by
  show setting.Runs time world state host other (EStateM.bind first rest store)
  unfold EStateM.bind
  cases evaluated : first store with
  | ok a store =>
    rw [evaluated] at runs
    obtain ⟨m, last, lastHost, run, holds⟩ := runs
    exact less (after run (next a store last lastHost holds)) (Nat.le_add_right time m)
  | error stop store =>
    rw [evaluated] at runs
    exact runs

/-- A change of what is seen needs no instruction. -/
theorem modify {change : τ → τ} {rest : PUnit → EStateM Stop τ α} {store : τ}
    (runs : setting.Runs time world state host post (rest ⟨⟩ (change store))) :
    setting.Runs time world state host post ((modify change >>= rest) store) := runs

/-- What leaves the locals alone is followed as it is. -/
theorem inWorld {act : Acting σ α} {scopes : Scopes} {holds : α → World σ → State → σ → Prop}
    (runs : setting.Runs time id state host holds (act w)) :
    setting.Runs time Store.world state host
      (fun a store last lastHost => store.scopes = scopes ∧ holds a store.world last lastHost)
      (Evaluation.inWorld act ⟨scopes, w⟩) := by
  unfold Evaluation.inWorld
  cases evaluated : act w with
  | ok a after =>
    simp only [evaluated] at runs ⊢
    obtain ⟨m, last, lastHost, run, here⟩ := runs
    exact ⟨m, last, lastHost, run, rfl, here⟩
  | error stop after =>
    simp only [evaluated] at runs ⊢
    exact runs

/-- What has locals of its own is followed with them. -/
theorem withScopes {act : Evaluating σ α} {scopes : Scopes} {holds : α → World σ → State → σ → Prop}
    (runs : setting.Runs time Store.world state host (fun a store => holds a store.world) (act ⟨scopes, w⟩)) :
    setting.Runs time id state host holds (Evaluation.withScopes scopes act w) := by
  unfold Evaluation.withScopes
  cases evaluated : act ⟨scopes, w⟩ with
  | ok a after =>
    simp only [evaluated] at runs ⊢
    exact runs
  | error stop after =>
    simp only [evaluated] at runs ⊢
    exact runs

end Runs

end Setting

end Scriptorium.Simulation
