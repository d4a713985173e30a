import CoreBank.Foundation.Runs
import Mathlib.Data.List.Basic

namespace CoreBank
namespace Foundation

/-!
# Histories of a sequential server

A server answers one request after another, each in the state that the one
before has left.  A concurrent system does the same in disguise when each of
its steps either changes nothing that can be seen, or serves the oldest pending
request of one client.  The order in which these steps come is then one order
of all requests that explains every reply and the state.
-/

variable {Client Request Reply State System Input : Type*}

/-- A request of a client together with its reply. -/
structure Served (Client Request Reply : Type*) where
  client : Client
  request : Request
  reply : Reply

/-- The server leads from one state to another through these requests and
replies. -/
inductive History (serve : Request -> State -> Reply -> State -> Prop) :
    State -> List (Served Client Request Reply) -> State -> Prop where
  | done (state : State) : History serve state [] state
  | next {before middle after : State} {served : Served Client Request Reply}
      {later : List (Served Client Request Reply)}
      (first : serve served.request before served.reply middle)
      (rest : History serve middle later after) : History serve before (served :: later) after

section Projections

variable [DecidableEq Client]

/-- The part of a history that one client takes part in. -/
def ofClient (client : Client) (history : List (Served Client Request Reply)) :
    List (Served Client Request Reply) :=
  history.filter fun served => decide (served.client = client)

def requestsOf (client : Client) (history : List (Served Client Request Reply)) : List Request :=
  (ofClient client history).map Served.request

def repliesOf (client : Client) (history : List (Served Client Request Reply)) : List Reply :=
  (ofClient client history).map Served.reply

theorem requestsOf_cons_same (served : Served Client Request Reply)
    (later : List (Served Client Request Reply)) :
    requestsOf served.client (served :: later) = served.request :: requestsOf served.client later := by
  simp only [requestsOf, ofClient, List.filter_cons, decide_true, if_true, List.map_cons]

theorem repliesOf_cons_same (served : Served Client Request Reply)
    (later : List (Served Client Request Reply)) :
    repliesOf served.client (served :: later) = served.reply :: repliesOf served.client later := by
  simp only [repliesOf, ofClient, List.filter_cons, decide_true, if_true, List.map_cons]

theorem ofClient_cons_of_ne {client : Client} {served : Served Client Request Reply}
    (different : served.client ≠ client) (later : List (Served Client Request Reply)) :
    ofClient client (served :: later) = ofClient client later := by
  rw [ofClient, List.filter_cons_of_neg (by simpa only [decide_eq_true_eq] using different)]
  rfl

end Projections

/-- What is seen of a system: its state, and for each client the requests that
still wait and the replies produced so far. -/
structure View (System Client Request Reply State : Type*) where
  state : System -> State
  pending : System -> Client -> List Request
  produced : System -> Client -> List Reply

namespace View

variable (view : View System Client Request Reply State)

/-- A step that cannot be seen. -/
structure Stutters (before after : System) : Prop where
  state : view.state after = view.state before
  pending : forall client, view.pending after client = view.pending before client
  produced : forall client, view.produced after client = view.produced before client

/-- A step that serves the oldest pending request of a client. -/
structure Serves (serve : Request -> State -> Reply -> State -> Prop)
    (served : Served Client Request Reply) (before after : System) : Prop where
  serves : serve served.request (view.state before) served.reply (view.state after)
  pending : view.pending before served.client = served.request :: view.pending after served.client
  produced : view.produced after served.client = view.produced before served.client ++ [served.reply]
  otherPending : forall client, client ≠ served.client ->
    view.pending after client = view.pending before client
  otherProduced : forall client, client ≠ served.client ->
    view.produced after client = view.produced before client

/-- A history between two states of a system: it keeps the order of each
client's requests, and its replies are the ones produced in between. -/
structure Explains [DecidableEq Client] (serve : Request -> State -> Reply -> State -> Prop)
    (history : List (Served Client Request Reply)) (before after : System) : Prop where
  sequential : History serve (view.state before) history (view.state after)
  ownOrder : forall client, view.pending before client =
    requestsOf client history ++ view.pending after client
  replies : forall client, view.produced after client =
    view.produced before client ++ repliesOf client history

variable {view} [DecidableEq Client] {serve : Request -> State -> Reply -> State -> Prop}

theorem Explains.nil (system : System) : view.Explains serve [] system system where
  sequential := .done _
  ownOrder _ := rfl
  replies client := (List.append_nil (view.produced system client)).symm

theorem Stutters.explains {before middle after : System} {history : List (Served Client Request Reply)}
    (stutters : view.Stutters before middle) (later : view.Explains serve history middle after) :
    view.Explains serve history before after where
  sequential := by
    rw [← stutters.state]
    exact later.sequential
  ownOrder client := by
    rw [← stutters.pending]
    exact later.ownOrder client
  replies client := by
    rw [← stutters.produced]
    exact later.replies client

theorem Serves.explains {served : Served Client Request Reply} {before middle after : System}
    {history : List (Served Client Request Reply)} (serves : view.Serves serve served before middle)
    (later : view.Explains serve history middle after) :
    view.Explains serve (served :: history) before after where
  sequential := .next serves.serves later.sequential
  ownOrder client := by
    by_cases same : served.client = client
    · subst same
      rw [serves.pending, later.ownOrder, requestsOf_cons_same, List.cons_append]
    · rw [requestsOf, ofClient_cons_of_ne same, ← serves.otherPending client (Ne.symm same)]
      exact later.ownOrder client
  replies client := by
    by_cases same : served.client = client
    · subst same
      rw [later.replies, serves.produced, repliesOf_cons_same, List.append_assoc]
      rfl
    · rw [repliesOf, ofClient_cons_of_ne same, ← serves.otherProduced client (Ne.symm same)]
      exact later.replies client

/-- The rule for runs: under an invariant, every step stutters or serves. -/
theorem explains_run {step : System -> Input -> System} (Invariant : System -> Prop)
    (kept : forall system input, Invariant system -> Invariant (step system input))
    (simulates : forall system input, Invariant system ->
      view.Stutters system (step system input) ∨
        Exists fun served => view.Serves serve served system (step system input))
    {start : System} (initially : Invariant start) (inputs : List Input) :
    Exists fun history => view.Explains serve history start (run step start inputs) := by
  induction inputs generalizing start with
  | nil => exact ⟨[], Explains.nil start⟩
  | cons input inputs inductionHypothesis =>
      rcases inductionHypothesis (kept start input initially) with ⟨history, later⟩
      rcases simulates start input initially with stutters | ⟨served, serves⟩
      · exact ⟨history, stutters.explains later⟩
      · exact ⟨served :: history, serves.explains later⟩

end View

end Foundation
end CoreBank
