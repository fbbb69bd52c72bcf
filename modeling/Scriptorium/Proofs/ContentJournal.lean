import Scriptorium.Proofs.UnexecutedRuns

/-!
# The journal of the content

Where `define` and `remove` are the only work that changes the content or records actions, the recorded actions are a journal of
the content: applied again in their order, to a host without content, they give the content that there is (`Reached.journal`). This
holds after every call of a native, every step of a machine and every run, whatever it comes to; each of them keeps it, since an
action is recorded by the call that has its effect.
-/
namespace Scriptorium

open HasContent (content update)
open ContentStore (define remove defining removing)

/-- A state whose content is what updates make of it. -/
class LawfulContent (σ : Type) [HasContent σ] : Prop where
  content_update : ∀ (f : ContentStore → ContentStore) (state : σ), content (update f state) = f (content state)

instance : LawfulContent ContentStore := ⟨fun _ _ => rfl⟩

section
variable {σ : Type}

theorem Host.apply_simple_actions (description : String) (effect : σ → σ) (host : Host σ) :
    (host.apply (.simple description effect)).actions = host.actions.push (.simple description effect) := rfl

theorem Host.applyAll_append (first second : List (Action σ)) (host : Host σ) :
    host.applyAll (first ++ second) = (host.applyAll first).applyAll second := by
  induction first generalizing host with
  | nil => rfl
  | cons action first ih => exact ih (host.apply action)

variable [HasContent σ]

/-- The content after some actions have been applied one after the other, from a state on. -/
def replayed (blank : σ) (actions : List (Action σ)) : ContentStore := content ((Host.initial blank).applyAll actions).state

/-- Whether the actions of a host, replayed from a state on, give the content of the host. -/
def Journal (blank : σ) (host : Host σ) : Prop := content host.state = replayed blank host.actions.toList

theorem Journal.of_unseen {blank : σ} {host after : Host σ} (journal : Journal blank host)
    (unseen : Build.Unseen content host after) : Journal blank after := by
  rw [Journal, unseen.state, unseen.actions]
  exact journal

/-- An action that changes the content in one way whatever the state keeps a journal. -/
theorem Journal.apply [LawfulContent σ] {blank : σ} {host : Host σ} (journal : Journal blank host) (description : String)
    (f : ContentStore → ContentStore) : Journal blank (host.apply (.simple description (update f))) := by
  rw [Journal, replayed, Host.apply_simple_actions, Array.toList_push, Host.applyAll_append]
  exact (LawfulContent.content_update f host.state).trans
    ((congrArg f journal).trans (LawfulContent.content_update f _).symm)

namespace ContentStore

private theorem define_cases (args : List Value) (host : Host σ) :
    (∃ key value, args = [.text key, value] ∧
        define.call args host = (.returned .null, host.apply (defining key value.display))) ∨
      (∀ key value, args ≠ [.text key, value]) ∧ ∃ message, define.call args host = (.refused message, host) := by
  -- by the number of the arguments and the type of the first
  rcases args with _ | ⟨_ | key | _ | _, _ | ⟨value, _ | _⟩⟩
  case cons.text.cons.nil => exact .inl ⟨key, value, rfl, rfl⟩
  all_goals exact .inr ⟨nofun, _, rfl⟩

private theorem remove_cases (args : List Value) (host : Host σ) :
    (∃ key, args = [.text key] ∧
        remove.call args host =
          if key ∈ content host.state then (.returned (.bool true), host.apply (removing key))
          else (.returned (.bool false), host)) ∨
      (∀ key, args ≠ [.text key]) ∧ ∃ message, remove.call args host = (.refused message, host) := by
  rcases args with _ | ⟨_ | key | _ | _, _ | _⟩
  case cons.text.nil => exact .inl ⟨key, rfl, rfl⟩
  all_goals exact .inr ⟨nofun, _, rfl⟩

/-- Natives of which none but `define` and `remove` changes the content or records actions. -/
def OnlyWriters (natives : Natives (Host σ)) : Prop :=
  ∀ name native, natives.get? name = some native →
    native = define ∨ native = remove ∨ ∀ args host, Build.Unseen content host (native.call args host).2

private theorem onlyWriters_register {natives : Natives (Host σ)}
    (silent : ∀ name native, natives.get? name = some native →
      ∀ args host, Build.Unseen content host (native.call args host).2) : OnlyWriters (register natives) := by
  intro name native found
  rcases Natives.get?_register found with rfl | before
  · exact .inr (.inl rfl)
  · rcases Natives.get?_register before with rfl | earlier
    · exact .inl rfl
    · exact .inr (.inr (silent name native earlier))

/-- Every call of a native keeps a journal. -/
theorem OnlyWriters.call [LawfulContent σ] {natives : Natives (Host σ)} (writers : OnlyWriters natives) {name : String}
    {native : Native (Host σ)} (found : natives.get? name = some native) (args : List Value) {blank : σ} {host : Host σ}
    (journal : Journal blank host) : Journal blank (native.call args host).2 := by
  rcases writers name native found with rfl | rfl | silent
  · rcases define_cases args host with ⟨key, value, -, called⟩ | ⟨-, message, called⟩
    · rw [called]
      exact journal.apply _ _
    · rw [called]
      exact journal
  · rcases remove_cases args host with ⟨key, -, called⟩ | ⟨-, message, called⟩
    · rw [called]
      split
      · exact journal.apply _ _
      · exact journal
    · rw [called]
      exact journal
  · exact journal.of_unseen (silent args host)

theorem OnlyWriters.holding [LawfulContent σ] {natives : Natives (Host σ)} (writers : OnlyWriters natives) (blank : σ) :
    natives.Respect (Holding (Journal blank)) :=
  fun _ _ found args => .holding fun _ => writers.call found args

end ContentStore

open Build (Preprocessor ScriptHost Settings Source Unseen)
open ContentStore (OnlyWriters)

/-- The hosts that a beginning without actions comes to through calls of natives, steps of machines and runs, in any number and
order. Opening units and scanning them neither changes the content nor records actions. -/
inductive Reached (parts : ScriptHost σ) (start : σ) : Host σ → Prop
  | start : Reached parts start (.initial start)
  | call {host : Host σ} (reached : Reached parts start host) {name : String} {native : Native (Host σ)}
      (found : parts.natives.get? name = some native) (args : List Value) : Reached parts start (native.call args host).2
  | step {host : Host σ} (reached : Reached parts start host) (program : Machine.Program) (state : Machine.State) :
      Reached parts start (Machine.step program parts.natives state host).host
  | run {host after : Host σ} (reached : Reached parts start host) {preprocessor : Preprocessor (Host σ)} {source : Source (Host σ)}
      (scans : ∀ unit stream host, Unseen content host (preprocessor.scan unit stream host).2)
      (opens : source.EachUnit fun unit => ∀ host, Unseen content host (unit.openStream host).2)
      (settings : Settings) (loader : String) (execute : Bool)
      (left : ((parts.pipeline preprocessor settings loader).run source execute host).host? = some after) :
      Reached parts start after

variable [LawfulContent σ] {parts : ScriptHost σ}

/-- A step of a machine keeps a journal. -/
theorem Journal.step {blank : σ} {host : Host σ} (writers : OnlyWriters parts.natives) (journal : Journal blank host)
    (program : Machine.Program) (state : Machine.State) :
    Journal blank (Machine.step program parts.natives state host).host := by
  have begun : Holding (Journal blank) host host := ⟨rfl, journal⟩
  exact (Machine.step_like (writers.holding blank) state begun).host.2

/-- A run keeps a journal, whatever it comes to. -/
theorem Journal.run {blank : σ} {host after : Host σ} (writers : OnlyWriters parts.natives) (journal : Journal blank host)
    {preprocessor : Preprocessor (Host σ)} {source : Source (Host σ)}
    (scans : ∀ unit stream host, Unseen content host (preprocessor.scan unit stream host).2)
    (opens : source.EachUnit fun unit => ∀ host, Unseen content host (unit.openStream host).2) {settings : Settings}
    {loader : String} {execute : Bool}
    (left : ((parts.pipeline preprocessor settings loader).run source execute host).host? = some after) : Journal blank after := by
  have holding {α : Type} {work : Host σ → α × Host σ} (unseen : ∀ host, Unseen content host (work host).2) :
      Respects (Holding (Journal blank)) work := .holding fun host journal => journal.of_unseen (unseen host)
  have reporting : Reporting (Holding (Journal blank)) := by
    rintro host _ events ⟨rfl, journal⟩
    exact ⟨rfl, journal.of_unseen (.reportAll host events)⟩
  have respects : (parts.pipeline preprocessor settings loader).Respects (Holding (Journal blank)) :=
    ⟨reporting, ScriptHost.backend_respects parts reporting (writers.holding blank), fun unit stream => holding (scans unit stream)⟩
  exact Build.Pipeline.run_holding respects
    (fun groups listed group inside unit here => holding (opens groups listed group inside unit here)) journal left

/-- Every host that is reached has a journal. -/
theorem Reached.journal {start blank : σ} (writers : OnlyWriters parts.natives) (same : content start = content blank)
    {host : Host σ} (reached : Reached parts start host) : Journal blank host := by
  induction reached with
  | start => exact same
  | call reached found args before => exact writers.call found args before
  | step reached program state before => exact before.step writers program state
  | run reached scans opens settings loader execute left before => exact before.run writers scans opens left

/-- Where only `define` and `remove` write, the actions of every host that is reached from one without content, applied again in
their order to one without content, give the content of the host. A call of `define` with a key that is a text records one action
and defines the key; a call of `remove` records one and removes the key where the key is there, and tells so. All their other calls
leave the host as it is. -/
theorem actions_are_journal (writers : OnlyWriters parts.natives) {start : σ} (empty : content start = ∅) :
    (∀ host, Reached parts start host → ∀ blank : σ, content blank = ∅ → content host.state = replayed blank host.actions.toList) ∧
    (∀ args (host : Host σ),
      (∃ key value after, args = [.text key, value] ∧ define.call args host = (.returned .null, after) ∧
        after.actions = host.actions.push (defining key value.display) ∧
        content after.state = (content host.state).insert key value.display) ∨
      (∀ key value, args ≠ [.text key, value]) ∧ ∃ message, define.call args host = (.refused message, host)) ∧
    (∀ args (host : Host σ),
      (∃ key after, args = [.text key] ∧ key ∈ content host.state ∧ remove.call args host = (.returned (.bool true), after) ∧
        after.actions = host.actions.push (removing key) ∧ content after.state = (content host.state).erase key) ∨
      (∃ key, args = [.text key] ∧ key ∉ content host.state ∧ remove.call args host = (.returned (.bool false), host)) ∨
      (∀ key, args ≠ [.text key]) ∧ ∃ message, remove.call args host = (.refused message, host)) := by
  refine ⟨fun host reached blank none => reached.journal writers (empty.trans none.symm), ?_, ?_⟩
  · intro args host
    rcases ContentStore.define_cases args host with ⟨key, value, rfl, called⟩ | refused
    · exact .inl ⟨key, value, _, rfl, called, rfl, LawfulContent.content_update _ _⟩
    · exact .inr refused
  · intro args host
    rcases ContentStore.remove_cases args host with ⟨key, rfl, called⟩ | refused
    · by_cases present : key ∈ content host.state
      · rw [if_pos present] at called
        exact .inl ⟨key, _, rfl, present, called, rfl, LawfulContent.content_update _ _⟩
      · rw [if_neg present] at called
        exact .inr (.inl ⟨key, rfl, present, called⟩)
    · exact .inr (.inr refused)

end

private theorem contentParts_writers : ContentStore.OnlyWriters Build.contentParts.natives := by
  refine ContentStore.onlyWriters_register fun name native found args host => ?_
  rcases Natives.get?_register found with rfl | before
  · simp only [Native.print, Host.report_eq]
    exact .reportAll host _
  · cases before

theorem contentParts_actions_are_journal :
    (∀ host, Reached Build.contentParts ∅ host → ∀ blank : ContentStore, content blank = ∅ →
      content host.state = replayed blank host.actions.toList) ∧
    ∃ host, Reached Build.contentParts ∅ host ∧
      host.descriptions = ["Defining k = true", "Removing k", "Defining j = null"] ∧ host.state.toList = [("j", "null")] := by
  refine ⟨(actions_are_journal contentParts_writers rfl).1, ?_⟩
  have defines : Build.contentParts.natives.get? "define" = some define := rfl
  have removes : Build.contentParts.natives.get? "remove" = some remove := rfl
  refine ⟨_, ((((((Reached.start.call defines [.text "k", .bool true]).call removes [.text "j"]).call removes [.text "k"]).call
    defines [.text "j", .null]).call defines [.null, .null]).call removes [.text "k"]), ?_, ?_⟩
  all_goals decide +kernel

end Scriptorium
