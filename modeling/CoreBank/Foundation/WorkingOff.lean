import CoreBank.Foundation.Raising
import CoreBank.Foundation.Runs
import Mathlib.Data.List.Basic
import Mathlib.Logic.Function.Basic

namespace CoreBank
namespace Foundation

/-!
# Working off requests

A system has requests of several clients before it and acts on some of them:
on those of one client in their order, and on none twice.  What it has done is
a list of acts; those of one client are asked for by a sublist of the requests
that are no longer before it.  Steps of this kind compose.
-/

variable {System Client Request Call Input : Type*} {Act State Error : Type}

/-- What is to be seen of a system: its state, and the requests before it. -/
structure Backlog (System Client Request State : Type*) where
  state : System -> State
  pending : System -> Client -> List Request

/-- What is to be seen of a larger system through a part of it. -/
def Backlog.through {Outer : Type*} (backlog : Backlog System Client Request State)
    (part : Outer -> System) : Backlog Outer Client Request State where
  state outer := backlog.state (part outer)
  pending outer := backlog.pending (part outer)

section WorksOff

variable [DecidableEq Client]

/-- What the acts for one client were asked to do. -/
def callsOf (call : Act -> Call) (client : Client) (acts : List (Client × Act)) : List Call :=
  (acts.filter fun act => decide (act.1 = client)).map fun act => call act.2

theorem callsOf_append (call : Act -> Call) (client : Client) (first second : List (Client × Act)) :
    callsOf call client (first ++ second) = callsOf call client first ++ callsOf call client second := by
  rw [callsOf, List.filter_append, List.map_append, callsOf, callsOf]

variable (backlog : Backlog System Client Request State) (perform : State -> Act -> Except Error State)
  (asksFor : Request -> Option Call) (call : Act -> Call)

/-- The system has come from one point to another by successful acts that its
clients have asked for, each of them once and in the order of its client. -/
def Backlog.WorksOff (before after : System) : Prop :=
  Exists fun acts : List (Client × Act) =>
    (acts.map Prod.snd).foldlM perform (backlog.state before) = .ok (backlog.state after) ∧
    forall client, Exists fun worked =>
      backlog.pending before client = worked ++ backlog.pending after client ∧
      (callsOf call client acts).Sublist (worked.filterMap asksFor)

namespace Backlog

variable {backlog perform asksFor call}

/-- Requests are dropped, and nothing is done. -/
theorem worksOff_of_quiet {before after : System} (state : backlog.state after = backlog.state before)
    (dropped : forall client, Exists fun worked =>
      backlog.pending before client = worked ++ backlog.pending after client) :
    backlog.WorksOff perform asksFor call before after := by
  refine ⟨[], ?_, fun client => ?_⟩
  · rw [state]
    rfl
  · rcases dropped client with ⟨worked, pending⟩
    exact ⟨worked, pending, List.nil_sublist _⟩

/-- The oldest request of one client is acted on. -/
theorem worksOff_of_act {before after : System} (client : Client) (request : Request) (act : Act)
    (performs : perform (backlog.state before) act = .ok (backlog.state after))
    (asked : asksFor request = some (call act))
    (oldest : backlog.pending before client = request :: backlog.pending after client)
    (others : forall other, other ≠ client -> backlog.pending before other = backlog.pending after other) :
    backlog.WorksOff perform asksFor call before after := by
  refine ⟨[(client, act)], bind_eq_ok_iff.mpr ⟨_, performs, rfl⟩, fun other => ?_⟩
  by_cases same : other = client
  · subst same
    refine ⟨[request], oldest, ?_⟩
    rw [List.filterMap_cons_some asked, List.filterMap_nil, callsOf, List.filter_cons_of_pos (by simp)]
    exact List.Sublist.refl _
  · refine ⟨[], others other same, ?_⟩
    rw [callsOf, List.filter_cons_of_neg (by simp [Ne.symm same])]
    exact List.Sublist.refl _

theorem WorksOff.refl (system : System) : backlog.WorksOff perform asksFor call system system :=
  worksOff_of_quiet rfl fun _ => ⟨[], rfl⟩

theorem WorksOff.trans {first second third : System}
    (earlier : backlog.WorksOff perform asksFor call first second)
    (later : backlog.WorksOff perform asksFor call second third) :
    backlog.WorksOff perform asksFor call first third := by
  rcases earlier with ⟨acts, performs, worked⟩
  rcases later with ⟨more, performsMore, workedMore⟩
  refine ⟨acts ++ more, ?_, fun client => ?_⟩
  · rw [List.map_append, List.foldlM_append]
    exact bind_eq_ok_iff.mpr ⟨_, performs, performsMore⟩
  · rcases worked client with ⟨consumed, pending, asked⟩
    rcases workedMore client with ⟨consumedMore, pendingMore, askedMore⟩
    refine ⟨consumed ++ consumedMore, ?_, ?_⟩
    · rw [pending, pendingMore, List.append_assoc]
    · rw [callsOf_append, List.filterMap_append]
      exact asked.append askedMore

/-- A system whose every step works off requests, while an invariant holds,
does so over every run. -/
theorem worksOff_run {step : System -> Input -> System} {Invariant : System -> Prop}
    (kept : forall system input, Invariant system -> Invariant (step system input))
    (works : forall system input, Invariant system ->
      backlog.WorksOff perform asksFor call system (step system input))
    {start : System} (initially : Invariant start) (inputs : List Input) :
    backlog.WorksOff perform asksFor call start (run step start inputs) :=
  run_related WorksOff.refl (fun _ _ _ => WorksOff.trans) works
    (Along.of_invariant Invariant kept initially inputs)

end Backlog

end WorksOff

end Foundation
end CoreBank
