import Mathlib.Data.List.Basic
import Scriptorium.Host

/-!
# Nested actions

An action may apply other actions while it works, and these others again: a tree. The actions of a tree, and of trees that are
applied one after the other, are told apart by the way to them (`Action.At`). They begin, and are reported, in the order of the ways
to them, each before all that it applies; they are recorded in the order in which they end (`EndsBefore`), each after all that it
applied. Every one of them begins once and is recorded once, behind what the log of actions has held before
(`Host.applyAll_in_order`).
-/
namespace Scriptorium

/-- The way to an action: its number among those that are applied one after the other, then its number among the children of that
one, and so on. -/
abbrev Way := List Nat

variable {σ : Type}

/-- An action is at the end of a way. -/
inductive Action.At : List (Action σ) → Way → Action σ → Prop
  | here {actions : List (Action σ)} {i : Nat} {action : Action σ} (found : actions[i]? = some action) : At actions [i] action
  | inside {actions : List (Action σ)} {i : Nat} {outer action : Action σ} {way : Way} (found : actions[i]? = some outer)
      (within : At outer.children way action) : At actions (i :: way) action

/-- An application has ended when another one begins: it began before, and the other one is not inside it. -/
def EndedWhenBegins (ended other : Way) : Prop := ended < other ∧ ¬ ended <+: other

instance (ended other : Way) : Decidable (EndedWhenBegins ended other) := inferInstanceAs (Decidable (_ ∧ _))

/-- An application ends before another one: it is inside it, or has ended when the other one begins. -/
def EndsBefore (ended other : Way) : Prop := (other <+: ended ∧ ended ≠ other) ∨ EndedWhenBegins ended other

private theorem endedWhenBegins_cons {i j : Nat} {ended other : Way} :
    EndedWhenBegins (i :: ended) (j :: other) ↔ i < j ∨ (i = j ∧ EndedWhenBegins ended other) := by
  simp only [EndedWhenBegins, List.cons_lt_cons_iff, List.cons_prefix_cons]
  constructor
  · rintro ⟨less | ⟨rfl, less⟩, outside⟩
    · exact .inl less
    · exact .inr ⟨rfl, less, fun within => outside ⟨rfl, within⟩⟩
  · rintro (less | ⟨rfl, less, outside⟩)
    · exact ⟨.inl less, fun same => by omega⟩
    · exact ⟨.inr ⟨rfl, less⟩, fun within => outside within.2⟩

private theorem not_endedWhenBegins_nil (ended : Way) : ¬ EndedWhenBegins ended [] := by
  rintro ⟨less, -⟩
  exact absurd less (List.not_lt_nil _)

private theorem not_endedWhenBegins_of_nil (other : Way) : ¬ EndedWhenBegins [] other := by
  rintro ⟨-, outside⟩
  exact outside (List.nil_prefix)

private theorem endsBefore_cons {i : Nat} {ended other : Way} : EndsBefore (i :: ended) (i :: other) ↔ EndsBefore ended other := by
  simp [EndsBefore, endedWhenBegins_cons, List.cons_prefix_cons]

namespace Action

mutual

/-- An action with the way to it, and then all that is inside it, in the order in which they begin. -/
def begun (i : Nat) (action : Action σ) : List (Way × Action σ) :=
  match action with
  | .mk description effect children =>
    ([i], .mk description effect children) :: (begunAll 0 children).map (Prod.map (i :: ·) id)
termination_by structural action

/-- All that is inside some actions, in the order in which they begin; `i` is the number of the first. -/
def begunAll (i : Nat) (actions : List (Action σ)) : List (Way × Action σ) :=
  match actions with
  | [] => []
  | action :: actions => begun i action ++ begunAll (i + 1) actions
termination_by structural actions

end

mutual

/-- All that is inside an action, and then the action with the way to it, in the order in which they end. -/
def recorded (i : Nat) (action : Action σ) : List (Way × Action σ) :=
  match action with
  | .mk description effect children =>
    (recordedAll 0 children).map (Prod.map (i :: ·) id) ++ [([i], .mk description effect children)]
termination_by structural action

/-- All that is inside some actions, in the order in which they end; `i` is the number of the first. -/
def recordedAll (i : Nat) (actions : List (Action σ)) : List (Way × Action σ) :=
  match actions with
  | [] => []
  | action :: actions => recorded i action ++ recordedAll (i + 1) actions
termination_by structural actions

end

mutual

private theorem recorded_perm (i : Nat) (action : Action σ) : (recorded i action).Perm (begun i action) := by
  match action with
  | .mk description effect children =>
    simp only [recorded, begun]
    exact (List.perm_append_singleton _ _).trans (((recordedAll_perm 0 children).map _).cons _)
termination_by structural action

/-- What begins is what is recorded. -/
theorem recordedAll_perm (i : Nat) (actions : List (Action σ)) : (recordedAll i actions).Perm (begunAll i actions) := by
  match actions with
  | [] => exact .nil
  | action :: actions => exact (recorded_perm i action).append (recordedAll_perm (i + 1) actions)
termination_by structural actions

end

theorem At.ne_nil {actions : List (Action σ)} {way : Way} {action : Action σ} (found : At actions way action) : way ≠ [] := by
  cases found <;> simp

private theorem not_at_nil {way : Way} {found : Action σ} : ¬ At [] way found := by
  intro within
  cases within <;> simp at *

private theorem at_cons_zero {action found : Action σ} {actions : List (Action σ)} {rest : Way} :
    At (action :: actions) (0 :: rest) found ↔ (rest = [] ∧ found = action) ∨ At action.children rest found := by
  constructor
  · intro within
    cases within with
    | here same => exact .inl ⟨rfl, (Option.some.inj same).symm⟩
    | inside same within =>
      obtain rfl := Option.some.inj same
      exact .inr within
  · rintro (⟨rfl, rfl⟩ | within)
    · exact .here rfl
    · exact .inside rfl within

private theorem at_cons_succ {action found : Action σ} {actions : List (Action σ)} {j : Nat} {rest : Way} :
    At (action :: actions) ((j + 1) :: rest) found ↔ At actions (j :: rest) found := by
  constructor <;> intro within <;> cases within with
  | here same => exact .here same
  | inside same within => exact .inside same within

mutual

private theorem mem_begun {i : Nat} {way : Way} {found : Action σ} (action : Action σ) :
    (way, found) ∈ begun i action ↔ (way = [i] ∧ found = action) ∨ ∃ rest, way = i :: rest ∧ At action.children rest found := by
  match action with
  | .mk description effect children =>
    simp only [begun, List.mem_cons, Prod.mk.injEq, List.mem_map, Prod.exists, Prod.map_apply, id_eq]
    refine or_congr_right ?_
    constructor
    · rintro ⟨rest, other, member, rfl, rfl⟩
      obtain ⟨j, later, rfl, at_⟩ := (mem_begunAll children).mp member
      rw [Nat.zero_add] at *
      exact ⟨_, rfl, at_⟩
    · rintro ⟨rest, rfl, at_⟩
      refine ⟨rest, found, (mem_begunAll children).mpr ?_, rfl, rfl⟩
      obtain ⟨j, later, rfl⟩ := List.exists_cons_of_ne_nil at_.ne_nil
      exact ⟨j, later, by rw [Nat.zero_add], at_⟩
termination_by structural action

private theorem mem_begunAll {i : Nat} {way : Way} {found : Action σ} (actions : List (Action σ)) :
    (way, found) ∈ begunAll i actions ↔ ∃ j rest, way = (i + j) :: rest ∧ At actions (j :: rest) found := by
  match actions with
  | [] => simp [begunAll, not_at_nil]
  | action :: actions =>
    rw [begunAll, List.mem_append, mem_begun action, mem_begunAll actions]
    constructor
    · rintro ((⟨rfl, rfl⟩ | ⟨rest, rfl, within⟩) | ⟨j, rest, rfl, within⟩)
      · exact ⟨0, [], rfl, .here rfl⟩
      · exact ⟨0, rest, rfl, at_cons_zero.mpr (.inr within)⟩
      · exact ⟨j + 1, rest, by rw [Nat.add_right_comm, Nat.add_assoc], at_cons_succ.mpr within⟩
    · rintro ⟨j | j, rest, rfl, within⟩
      · rcases at_cons_zero.mp within with ⟨rfl, rfl⟩ | inner
        · exact .inl (.inl ⟨rfl, rfl⟩)
        · exact .inl (.inr ⟨rest, rfl, inner⟩)
      · exact .inr ⟨j, rest, by rw [Nat.add_right_comm, Nat.add_assoc], at_cons_succ.mp within⟩
termination_by structural actions

end

/-- What is inside one of the actions has its number in front, and what is inside the later ones has a greater number. -/
theorem number_begun {i : Nat} {action : Action σ} {entry : Way × Action σ} (member : entry ∈ begun i action) :
    ∃ rest, entry.1 = i :: rest := by
  rcases (mem_begun action).mp member with ⟨same, -⟩ | ⟨rest, same, -⟩
  · exact ⟨[], same⟩
  · exact ⟨rest, same⟩

private theorem number_begunAll {i : Nat} {actions : List (Action σ)} {entry : Way × Action σ}
    (member : entry ∈ begunAll i actions) : ∃ j rest, entry.1 = j :: rest ∧ i ≤ j := by
  obtain ⟨j, rest, same, -⟩ := (mem_begunAll actions).mp member
  exact ⟨i + j, rest, same, Nat.le_add_right i j⟩

private theorem way_ne_nil {i : Nat} {actions : List (Action σ)} {entry : Way × Action σ} (member : entry ∈ begunAll i actions) :
    entry.1 ≠ [] := by
  obtain ⟨j, rest, same, -⟩ := number_begunAll member
  simp [same]

/-- All that is inside an action has ended when anything of the later ones begins. -/
theorem ended_of_later {i : Nat} {action : Action σ} {actions : List (Action σ)} {first later : Way × Action σ}
    (before : first ∈ begun i action) (after : later ∈ begunAll (i + 1) actions) : EndedWhenBegins first.1 later.1 := by
  obtain ⟨rest, same⟩ := number_begun before
  obtain ⟨j, other, sameLater, greater⟩ := number_begunAll after
  rw [same, sameLater, endedWhenBegins_cons]
  exact .inl (by omega)

mutual

theorem begun_sorted (i : Nat) (action : Action σ) : (begun i action).Pairwise (·.1 < ·.1) := by
  match action with
  | .mk description effect children =>
    rw [begun, List.pairwise_cons, List.pairwise_map]
    constructor
    · intro entry member
      obtain ⟨inner, within, rfl⟩ := List.mem_map.mp member
      obtain ⟨j, rest, same, -⟩ := number_begunAll within
      simp [same]
    · refine (begunAll_sorted 0 children).imp fun less => ?_
      simpa [List.cons_lt_cons_iff] using less
termination_by structural action

/-- Actions begin in the order of the ways to them. -/
theorem begunAll_sorted (i : Nat) (actions : List (Action σ)) : (begunAll i actions).Pairwise (·.1 < ·.1) := by
  match actions with
  | [] => exact .nil
  | action :: actions =>
    rw [begunAll, List.pairwise_append]
    exact ⟨begun_sorted i action, begunAll_sorted (i + 1) actions, fun first before later after => (ended_of_later before after).1⟩
termination_by structural actions

end

mutual

theorem recorded_sorted (i : Nat) (action : Action σ) : (recorded i action).Pairwise fun first later => EndsBefore first.1 later.1 := by
  match action with
  | .mk description effect children =>
    rw [recorded, List.pairwise_append, List.pairwise_map]
    refine ⟨?_, List.pairwise_singleton _ _, ?_⟩
    · refine (recordedAll_sorted 0 children).imp fun before => ?_
      exact endsBefore_cons.mpr before
    · intro entry member last same
      obtain ⟨inner, within, rfl⟩ := List.mem_map.mp member
      obtain rfl := List.mem_singleton.mp same
      have some := way_ne_nil ((recordedAll_perm 0 children).mem_iff.mp within)
      exact .inl (by simpa using some)
termination_by structural action

/-- Actions are recorded in the order in which they end. -/
theorem recordedAll_sorted (i : Nat) (actions : List (Action σ)) :
    (recordedAll i actions).Pairwise fun first later => EndsBefore first.1 later.1 := by
  match actions with
  | [] => exact .nil
  | action :: actions =>
    rw [recordedAll, List.pairwise_append]
    refine ⟨recorded_sorted i action, recordedAll_sorted (i + 1) actions, fun first before later after => .inr ?_⟩
    exact ended_of_later ((recorded_perm i action).mem_iff.mp before) ((recordedAll_perm (i + 1) actions).mem_iff.mp after)
termination_by structural actions

end

end Action

open Scriptorium.Action

/-- The number of applications that have ended when the one at the end of a way begins. -/
def endedBy (entries : List (Way × Action σ)) (way : Way) : Nat := entries.countP fun entry => EndedWhenBegins entry.1 way

private theorem endedBy_append (first later : List (Way × Action σ)) (way : Way) :
    endedBy (first ++ later) way = endedBy first way + endedBy later way := List.countP_append

private theorem endedBy_eq_zero {entries : List (Way × Action σ)} {way : Way}
    (none : ∀ entry ∈ entries, ¬ EndedWhenBegins entry.1 way) : endedBy entries way = 0 := by
  simpa [endedBy, List.countP_eq_zero] using none

private theorem endedBy_eq_length {entries : List (Way × Action σ)} {way : Way}
    (all : ∀ entry ∈ entries, EndedWhenBegins entry.1 way) : endedBy entries way = entries.length := by
  simpa [endedBy, List.countP_eq_length] using all

/-- The report of an action. -/
def Action.event (action : Action σ) : LogEvent := ⟨.info, .actions, action.description⟩

namespace Host

mutual

theorem apply_log (i : Nat) (action : Action σ) (host : Host σ) :
    (host.apply action).log.toList = host.log.toList ++ (begun i action).map (·.2.event) := by
  match action with
  | .mk description effect children =>
    simp only [apply, begun]
    rw [applyAll_log 0 children]
    simp [report, event, Action.description, Function.comp_def]
termination_by structural action

private theorem applyAll_log (i : Nat) (actions : List (Action σ)) (host : Host σ) :
    (host.applyAll actions).log.toList = host.log.toList ++ (begunAll i actions).map (·.2.event) := by
  match actions with
  | [] => simp [applyAll, begunAll]
  | action :: actions =>
    rw [applyAll, applyAll_log (i + 1) actions, apply_log i action, begunAll, List.map_append, List.append_assoc]
termination_by structural actions

end

mutual

private theorem apply_actions (i : Nat) (action : Action σ) (host : Host σ) :
    (host.apply action).actions.toList = host.actions.toList ++ (recorded i action).map (·.2) := by
  match action with
  | .mk description effect children =>
    simp only [apply, recorded, Array.toList_push]
    rw [applyAll_actions 0 children]
    simp [report, Function.comp_def]
termination_by structural action

private theorem applyAll_actions (i : Nat) (actions : List (Action σ)) (host : Host σ) :
    (host.applyAll actions).actions.toList = host.actions.toList ++ (recordedAll i actions).map (·.2) := by
  match actions with
  | [] => simp [applyAll, recordedAll]
  | action :: actions =>
    rw [applyAll, applyAll_actions (i + 1) actions, apply_actions i action, recordedAll, List.map_append, List.append_assoc]
termination_by structural actions

end

/-- What the effects of some actions do to a state, one after the other: each sees `recorded` and as many more as have ended when
it begins. -/
def played (recorded : Nat) (ended begun : List (Way × Action σ)) (state : σ) : σ :=
  begun.foldl (fun state entry => entry.2.effect (recorded + endedBy ended entry.1) state) state

private theorem played_append (recorded : Nat) (ended first later : List (Way × Action σ)) (state : σ) :
    played recorded ended (first ++ later) state = played recorded ended later (played recorded ended first state) :=
  List.foldl_append

private theorem played_congr {recorded recorded' : Nat} {ended ended' begun : List (Way × Action σ)} (state : σ)
    (same : ∀ entry ∈ begun, recorded + endedBy ended entry.1 = recorded' + endedBy ended' entry.1) :
    played recorded ended begun state = played recorded' ended' begun state :=
  List.foldl_ext _ _ state fun _ entry member => by rw [same entry member]

private theorem played_inside (recorded i : Nat) (root : Action σ) (ended begun : List (Way × Action σ)) (state : σ) :
    played recorded (ended.map (Prod.map (i :: ·) id) ++ [([i], root)]) (begun.map (Prod.map (i :: ·) id)) state =
      played recorded ended begun state := by
  have same : ∀ way, endedBy (ended.map (Prod.map (i :: ·) id) ++ [([i], root)]) (i :: way) = endedBy ended way := by
    intro way
    simp [endedBy, endedWhenBegins_cons, not_endedWhenBegins_of_nil, List.countP_map, Function.comp_def]
  simp only [played, List.foldl_map, Prod.map_fst, Prod.map_snd, id_eq, same]

mutual

theorem apply_state (i : Nat) (action : Action σ) (host : Host σ) :
    (host.apply action).state = played host.actions.size (recorded i action) (begun i action) host.state := by
  match action with
  | .mk description effect children =>
    have none : endedBy (recorded i (.mk description effect children)) [i] = 0 := by
      simp [endedBy, recorded, endedWhenBegins_cons, not_endedWhenBegins_nil, List.countP_eq_zero]
    -- the root ends last, so nothing inside it counts it as ended
    rw [begun, played, List.foldl_cons, none]
    show _ = played _ _ _ _
    rw [recorded, played_inside, apply]
    exact applyAll_state 0 children _
termination_by structural action

private theorem applyAll_state (i : Nat) (actions : List (Action σ)) (host : Host σ) :
    (host.applyAll actions).state = played host.actions.size (recordedAll i actions) (begunAll i actions) host.state := by
  match actions with
  | [] => rfl
  | action :: actions =>
    have size : (host.apply action).actions.size = host.actions.size + (recorded i action).length := by
      have grown := congrArg List.length (apply_actions i action host)
      simpa using grown
    -- what is inside the first action has begun before any later one ends, and the later ones begin when all of it has ended
    have early : ∀ entry ∈ begun i action,
        host.actions.size + endedBy (recorded i action) entry.1 =
          host.actions.size + endedBy (recordedAll i (action :: actions)) entry.1 := by
      intro entry member
      have none : ∀ later ∈ recordedAll (i + 1) actions, ¬ EndedWhenBegins later.1 entry.1 := by
        intro later after ended
        have less := (ended_of_later member ((recordedAll_perm (i + 1) actions).mem_iff.mp after)).1
        exact List.lt_asymm less ended.1
      rw [recordedAll, endedBy_append, endedBy_eq_zero none, Nat.add_zero]
    have late : ∀ entry ∈ begunAll (i + 1) actions,
        (host.apply action).actions.size + endedBy (recordedAll (i + 1) actions) entry.1 =
          host.actions.size + endedBy (recordedAll i (action :: actions)) entry.1 := by
      intro entry member
      have all : ∀ first ∈ recorded i action, EndedWhenBegins first.1 entry.1 := by
        intro first before
        exact ended_of_later ((recorded_perm i action).mem_iff.mp before) member
      rw [recordedAll, endedBy_append, endedBy_eq_length all, size, Nat.add_assoc]
    rw [applyAll, applyAll_state (i + 1) actions, apply_state i action, begunAll, played_append, played_congr _ early,
      played_congr _ late]
termination_by structural actions

end

end Host

/-- Actions that are applied one after the other, and all that is inside them, begin and are recorded once each. They begin, and are
reported, in the order of the ways to them; they are recorded in the order in which they end, behind all that was recorded before;
and the effect of each sees how many are recorded when it begins. To apply one action is to apply a list of one. -/
theorem Host.applyAll_in_order (actions : List (Action σ)) (host : Host σ) :
    (∀ root : Action σ, host.apply root = host.applyAll [root]) ∧ ∃ begun recorded : List (Way × Action σ),
      (∀ way action, (way, action) ∈ begun ↔ Action.At actions way action) ∧ begun.Pairwise (·.1 < ·.1) ∧
      (∀ way action, (way, action) ∈ recorded ↔ Action.At actions way action) ∧
      recorded.Pairwise (fun first later => EndsBefore first.1 later.1) ∧ recorded.Perm begun ∧
      (host.applyAll actions).log.toList = host.log.toList ++ begun.map (·.2.event) ∧
      (host.applyAll actions).actions.toList = host.actions.toList ++ recorded.map (·.2) ∧
      (host.applyAll actions).descriptions = host.descriptions ++ recorded.map (·.2.description) ∧
      (host.applyAll actions).state =
        begun.foldl (fun state entry => entry.2.effect (host.actions.size + endedBy recorded entry.1) state) host.state := by
  have member : ∀ way action, (way, action) ∈ begunAll 0 actions ↔ At actions way action := by
    intro way action
    rw [mem_begunAll]
    constructor
    · rintro ⟨j, rest, rfl, within⟩
      rwa [Nat.zero_add]
    · intro within
      obtain ⟨j, rest, rfl⟩ := List.exists_cons_of_ne_nil within.ne_nil
      exact ⟨j, rest, by rw [Nat.zero_add], within⟩
  have recordedOnce := recordedAll_perm 0 actions
  have entries := applyAll_actions 0 actions host
  refine ⟨fun _ => rfl, begunAll 0 actions, recordedAll 0 actions, member, begunAll_sorted 0 actions, fun way action => ?_,
    recordedAll_sorted 0 actions, recordedOnce, applyAll_log 0 actions host, entries, ?_, applyAll_state 0 actions host⟩
  · rw [recordedOnce.mem_iff, member]
  · rw [descriptions, entries, List.map_append, List.map_map]
    rfl

example : (((Host.initial 0).apply (.mk "outer" (fun recorded _ => recorded)
    [.simple "first" (· + 1), .mk "second" (fun recorded state => 10 * state + recorded) [.simple "inner" (· + 5)]])).descriptions,
    ((Host.initial 0).apply (.mk "outer" (fun recorded _ => recorded)
      [.simple "first" (· + 1), .mk "second" (fun recorded state => 10 * state + recorded) [.simple "inner" (· + 5)]])).state) =
    (["first", "inner", "second", "outer"], 16) := rfl

end Scriptorium
