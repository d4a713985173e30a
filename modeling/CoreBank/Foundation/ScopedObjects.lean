import CoreBank.Foundation.Runs
import Mathlib.Data.List.Basic
import Mathlib.Logic.Function.Basic

namespace CoreBank
namespace Foundation
namespace ScopedObjects

/-!
# Scoped objects over one mutex and one resource

Threads run functions whose local objects live until the end of their block.
However a block is left, its objects are destroyed first, the newest before the
older ones.  Some objects are guards, which hold a mutex as long as they live,
and some live on a shared resource, which bears one of them at a time.  Every
constructor and every call may throw.

A body is disciplined if on each of its paths it constructs one guard before the
one object on the resource.  That is read off its text, and it is enough: in any
interleaving the resource is used by one thread at a time, under the mutex, and
both are given back on every way out.
-/

/-! ## Bodies -/

/-- What a local object is for. -/
inductive Role where
  | guard
  | resource
  | plain
  deriving DecidableEq

/-- The statements of a body.  A declaration constructs an object for the rest
of the block. -/
inductive Code (Object Call : Type*) where
  | done
  | declare (object : Object) (rest : Code Object Call)
  | perform (call : Call) (rest : Code Object Call)
  | returnIf (test : Call) (rest : Code Object Call)
  | attempt (body handler rest : Code Object Call)
  | raise

/-- What the objects of a thread hold. -/
inductive Stage where
  | bare
  | locked
  | opened
  deriving DecidableEq

/-- The stage behind a declaration, if it may stand there. -/
def Stage.enter : Stage -> Role -> Option Stage
  | stage, .plain => some stage
  | .bare, .guard => some .locked
  | .locked, .resource => some .opened
  | _, _ => none

section Machine

variable {Object Call Name Thread : Type*}

/-- Every declaration of the body may stand where it stands. -/
def Code.Disciplined (role : Object -> Role) : Code Object Call -> Stage -> Prop
  | .done, _ => True
  | .declare object rest, stage =>
      Exists fun next => stage.enter (role object) = some next ∧ rest.Disciplined role next
  | .perform _ rest, stage => rest.Disciplined role stage
  | .returnIf _ rest, stage => rest.Disciplined role stage
  | .attempt body handler rest, stage =>
      body.Disciplined role stage ∧ handler.Disciplined role stage ∧ rest.Disciplined role stage
  | .raise, _ => True

/-! ## Threads -/

/-- A block in execution: its objects, the newest first, what is left of its
statements, and the handler if it is the block of a `try`. -/
structure Block (Object Call : Type*) where
  objects : List Object
  code : Code Object Call
  handler : Option (Code Object Call)

/-- Whether a thread executes statements, or leaves its blocks because of an
exception or a `return`. -/
inductive Mode where
  | running
  | throwing
  | returning
  deriving DecidableEq

/-- Where a thread stands: its blocks, the innermost first.  Without a block it
is outside the functions. -/
structure Control (Object Call : Type*) where
  mode : Mode
  blocks : List (Block Object Call)

/-- The objects of some blocks, the newest first. -/
def held (blocks : List (Block Object Call)) : List Object :=
  blocks.flatMap Block.objects

/-- The threads, the one that holds the mutex, and the one with an object on
the resource. -/
structure System (Thread Object Call : Type*) where
  owner : Option Thread
  bearer : Option Thread
  control : Thread -> Control Object Call

/-- What a thread does next, where there is a choice.  A call is for threads
outside; a body may throw or return only where its next statement can. -/
inductive Move (Name : Type*) where
  | calls (function : Name)
  | proceeds
  | throws
  | returns

/-- Where an exception, a `return` or the end of a block leads once the block is
left. -/
def behind (mode : Mode) (handler : Option (Code Object Call)) (outer : List (Block Object Call)) :
    Control Object Call :=
  match mode, handler with
  | .throwing, some caught => ⟨.running, ⟨[], caught, none⟩ :: outer⟩
  | _, _ => ⟨mode, outer⟩

section Moves

variable [DecidableEq Thread] (role : Object -> Role) (body : Name -> Code Object Call)

namespace System

/-- Nobody is inside a function. -/
def idle : System Thread Object Call where
  owner := none
  bearer := none
  control _ := ⟨.running, []⟩

def place (system : System Thread Object Call) (thread : Thread) (control : Control Object Call) :
    System Thread Object Call :=
  { system with control := Function.update system.control thread control }

/-- Give up the rest of the innermost block. -/
def abandon (system : System Thread Object Call) (thread : Thread) (mode : Mode)
    (block : Block Object Call) (outer : List (Block Object Call)) : System Thread Object Call :=
  system.place thread ⟨mode, { block with code := .done } :: outer⟩

/-- Construct an object.  A guard waits for the mutex; the resource refuses a
second object with an exception. -/
def construct (system : System Thread Object Call) (thread : Thread) (object : Object)
    (rest : Code Object Call) (block : Block Object Call) (outer : List (Block Object Call)) :
    System Thread Object Call :=
  let constructed : Control Object Call :=
    ⟨.running, { block with objects := object :: block.objects, code := rest } :: outer⟩
  match role object with
  | .guard =>
      if system.owner = none then { system.place thread constructed with owner := some thread }
      else system
  | .resource =>
      if system.bearer = none then { system.place thread constructed with bearer := some thread }
      else system.abandon thread .throwing block outer
  | .plain => system.place thread constructed

/-- Leave the innermost block: destroy its newest object, or else go behind it. -/
def leave (system : System Thread Object Call) (thread : Thread) (mode : Mode)
    (block : Block Object Call) (outer : List (Block Object Call)) : System Thread Object Call :=
  match block.objects with
  | object :: objects =>
      let destroyed := system.place thread ⟨mode, { block with objects, code := .done } :: outer⟩
      match role object with
      | .guard => { destroyed with owner := none }
      | .resource => { destroyed with bearer := none }
      | .plain => destroyed
  | [] => system.place thread (behind mode block.handler outer)

/-- Execute the next statement of the innermost block. -/
def execute (system : System Thread Object Call) (thread : Thread) (move : Move Name)
    (block : Block Object Call) (outer : List (Block Object Call)) : System Thread Object Call :=
  match block.code, move with
  | .declare _ _, .throws => system.abandon thread .throwing block outer
  | .declare object rest, _ => system.construct role thread object rest block outer
  | .perform _ _, .throws => system.abandon thread .throwing block outer
  | .perform _ rest, _ => system.place thread ⟨.running, { block with code := rest } :: outer⟩
  | .returnIf _ _, .returns => system.abandon thread .returning block outer
  | .returnIf _ rest, _ => system.place thread ⟨.running, { block with code := rest } :: outer⟩
  | .attempt body handler rest, _ =>
      system.place thread ⟨.running, ⟨[], body, some handler⟩ :: { block with code := rest } :: outer⟩
  | .raise, _ => system.abandon thread .throwing block outer
  | .done, _ => system.leave role thread .running block outer

/-- One move of a thread that stands somewhere. -/
def advance (system : System Thread Object Call) (thread : Thread) (move : Move Name) :
    Control Object Call -> System Thread Object Call
  | ⟨_, []⟩ =>
      match move with
      | .calls function => system.place thread ⟨.running, [⟨[], body function, none⟩]⟩
      | _ => system
  | ⟨.running, block :: outer⟩ => system.execute role thread move block outer
  | ⟨mode, block :: outer⟩ => system.leave role thread mode block outer

def step (system : System Thread Object Call) (event : Thread × Move Name) :
    System Thread Object Call :=
  system.advance role body event.1 event.2 (system.control event.1)

/-- The threads after some moves, from the state in which nobody is inside. -/
def after (moves : List (Thread × Move Name)) : System Thread Object Call :=
  run (step role body) idle moves

end System

/-! ## What a move can do -/

/-- What happens to the objects of a thread. -/
inductive Effect (Object : Type*) where
  | silent
  | constructs (object : Object)
  | destroys (object : Object)

/-- The next statement can throw. -/
def Code.MayThrow : Code Object Call -> Prop
  | .declare _ _ | .perform _ _ | .raise => True
  | .returnIf _ _ | .attempt _ _ _ | .done => False

/-- The transitions of one thread, whatever the others do. -/
inductive Transition (body : Name -> Code Object Call) :
    Control Object Call -> Effect Object -> Control Object Call -> Prop where
  | calls (mode : Mode) (function : Name) :
      Transition body ⟨mode, []⟩ .silent ⟨.running, [⟨[], body function, none⟩]⟩
  | constructs (object : Object) (rest : Code Object Call) (objects : List Object)
      (handler : Option (Code Object Call)) (outer : List (Block Object Call)) :
      Transition body ⟨.running, ⟨objects, .declare object rest, handler⟩ :: outer⟩
        (.constructs object) ⟨.running, ⟨object :: objects, rest, handler⟩ :: outer⟩
  | performs (call : Call) (rest : Code Object Call) (objects : List Object)
      (handler : Option (Code Object Call)) (outer : List (Block Object Call)) :
      Transition body ⟨.running, ⟨objects, .perform call rest, handler⟩ :: outer⟩ .silent
        ⟨.running, ⟨objects, rest, handler⟩ :: outer⟩
  | passes (test : Call) (rest : Code Object Call) (objects : List Object)
      (handler : Option (Code Object Call)) (outer : List (Block Object Call)) :
      Transition body ⟨.running, ⟨objects, .returnIf test rest, handler⟩ :: outer⟩ .silent
        ⟨.running, ⟨objects, rest, handler⟩ :: outer⟩
  | returns (test : Call) (rest : Code Object Call) (objects : List Object)
      (handler : Option (Code Object Call)) (outer : List (Block Object Call)) :
      Transition body ⟨.running, ⟨objects, .returnIf test rest, handler⟩ :: outer⟩ .silent
        ⟨.returning, ⟨objects, .done, handler⟩ :: outer⟩
  | throws (code : Code Object Call) (may : code.MayThrow) (objects : List Object)
      (handler : Option (Code Object Call)) (outer : List (Block Object Call)) :
      Transition body ⟨.running, ⟨objects, code, handler⟩ :: outer⟩ .silent
        ⟨.throwing, ⟨objects, .done, handler⟩ :: outer⟩
  | attempts (inner caught rest : Code Object Call) (objects : List Object)
      (handler : Option (Code Object Call)) (outer : List (Block Object Call)) :
      Transition body ⟨.running, ⟨objects, .attempt inner caught rest, handler⟩ :: outer⟩ .silent
        ⟨.running, ⟨[], inner, some caught⟩ :: ⟨objects, rest, handler⟩ :: outer⟩
  | destroys (mode : Mode) (object : Object) (objects : List Object) (code : Code Object Call)
      (handler : Option (Code Object Call)) (outer : List (Block Object Call))
      (ends : mode = .running -> code = .done) :
      Transition body ⟨mode, ⟨object :: objects, code, handler⟩ :: outer⟩ (.destroys object)
        ⟨mode, ⟨objects, .done, handler⟩ :: outer⟩
  | catches (code handler : Code Object Call) (outer : List (Block Object Call)) :
      Transition body ⟨.throwing, ⟨[], code, some handler⟩ :: outer⟩ .silent
        ⟨.running, ⟨[], handler, none⟩ :: outer⟩
  | leaves (mode : Mode) (code : Code Object Call) (handler : Option (Code Object Call))
      (outer : List (Block Object Call)) (ends : mode = .running -> code = .done)
      (uncaught : mode = .throwing -> handler = none) :
      Transition body ⟨mode, ⟨[], code, handler⟩ :: outer⟩ .silent ⟨mode, outer⟩

namespace System

/-- What a transition does to the mutex and the resource. -/
def affect (system : System Thread Object Call) (thread : Thread) :
    Effect Object -> System Thread Object Call
  | .silent => system
  | .constructs object =>
      match role object with
      | .guard => { system with owner := some thread }
      | .resource => { system with bearer := some thread }
      | .plain => system
  | .destroys object =>
      match role object with
      | .guard => { system with owner := none }
      | .resource => { system with bearer := none }
      | .plain => system

/-- The mutex and the resource let the transition happen. -/
def Admits (system : System Thread Object Call) : Effect Object -> Prop
  | .constructs object =>
      (role object = .guard -> system.owner = none) ∧ (role object = .resource -> system.bearer = none)
  | _ => True

/-- The thread cannot move: it is outside, or waits for the mutex. -/
def Stands (system : System Thread Object Call) (thread : Thread) : Prop :=
  (system.control thread).blocks = [] ∨
    Exists fun object => Exists fun rest => Exists fun objects => Exists fun handler =>
    Exists fun outer =>
      system.control thread = ⟨.running, ⟨objects, .declare object rest, handler⟩ :: outer⟩ ∧
      role object = .guard ∧ system.owner ≠ none

/-- A move is nothing, or one admitted transition of its thread. -/
inductive Acts (system : System Thread Object Call) (thread : Thread) :
    System Thread Object Call -> Prop where
  | stands (stands : system.Stands role thread) : Acts system thread system
  | moves (effect : Effect Object) (next : Control Object Call)
      (transition : Transition body (system.control thread) effect next)
      (admits : system.Admits role effect) :
      Acts system thread ((system.affect role thread effect).place thread next)

variable {role body} {system : System Thread Object Call} {thread : Thread} {objects : List Object}
  {handler : Option (Code Object Call)} {outer : List (Block Object Call)}

/-- A transition of a thread whose place is known. -/
theorem Acts.of_control {control next : Control Object Call} {effect : Effect Object}
    (known : system.control thread = control) (transition : Transition body control effect next)
    (admits : system.Admits role effect) :
    system.Acts role body thread ((system.affect role thread effect).place thread next) :=
  .moves effect next (known ▸ transition) admits

theorem acts_abandon {code : Code Object Call}
    (stands : system.control thread = ⟨.running, ⟨objects, code, handler⟩ :: outer⟩)
    (may : code.MayThrow) :
    system.Acts role body thread (system.abandon thread .throwing ⟨objects, code, handler⟩ outer) :=
  Acts.of_control stands (.throws code may objects handler outer) trivial

theorem acts_construct {object : Object} {rest : Code Object Call}
    (stands : system.control thread = ⟨.running, ⟨objects, .declare object rest, handler⟩ :: outer⟩) :
    system.Acts role body thread
      (system.construct role thread object rest ⟨objects, .declare object rest, handler⟩ outer) := by
  have constructs : Transition body _ _ _ :=
    Transition.constructs object rest objects handler outer
  unfold construct
  cases use : role object with
  | guard =>
      dsimp only
      split_ifs with free
      · have acts := Acts.of_control stands constructs
          ⟨fun _ => free, fun resource => absurd (use.symm.trans resource) nofun⟩
        rw [affect, use] at acts
        exact acts
      · exact .stands (.inr ⟨object, rest, objects, handler, outer, stands, use, free⟩)
  | resource =>
      dsimp only
      split_ifs with free
      · have acts := Acts.of_control stands constructs
          ⟨fun guard => absurd (use.symm.trans guard) nofun, fun _ => free⟩
        rw [affect, use] at acts
        exact acts
      · exact acts_abandon stands trivial
  | plain =>
      have acts := Acts.of_control stands constructs
        ⟨fun guard => absurd (use.symm.trans guard) nofun,
          fun resource => absurd (use.symm.trans resource) nofun⟩
      rw [affect, use] at acts
      exact acts

theorem acts_leave {mode : Mode} {code : Code Object Call}
    (stands : system.control thread = ⟨mode, ⟨objects, code, handler⟩ :: outer⟩)
    (ends : mode = .running -> code = .done) :
    system.Acts role body thread (system.leave role thread mode ⟨objects, code, handler⟩ outer) := by
  unfold leave
  cases objects with
  | cons object objects =>
      have acts : system.Acts role body thread _ :=
        Acts.of_control stands (.destroys mode object objects code handler outer ends) trivial
      dsimp only
      cases use : role object with
      | guard =>
          rw [affect, use] at acts
          exact acts
      | resource =>
          rw [affect, use] at acts
          exact acts
      | plain =>
          rw [affect, use] at acts
          exact acts
  | nil =>
      cases mode with
      | running =>
          exact Acts.of_control stands (.leaves .running code handler outer ends nofun) trivial
      | returning =>
          exact Acts.of_control stands (.leaves .returning code handler outer ends nofun) trivial
      | throwing =>
          cases handler with
          | some caught => exact Acts.of_control stands (.catches code caught outer) trivial
          | none =>
              exact Acts.of_control stands (.leaves .throwing code none outer ends fun _ => rfl)
                trivial

theorem acts_execute {move : Move Name} {code : Code Object Call}
    (stands : system.control thread = ⟨.running, ⟨objects, code, handler⟩ :: outer⟩) :
    system.Acts role body thread (system.execute role thread move ⟨objects, code, handler⟩ outer) := by
  cases code with
  | done => exact acts_leave stands fun _ => rfl
  | declare object rest =>
      cases move with
      | throws => exact acts_abandon stands trivial
      | _ => exact acts_construct stands
  | perform call rest =>
      cases move with
      | throws => exact acts_abandon stands trivial
      | _ => exact Acts.of_control stands (.performs call rest objects handler outer) trivial
  | returnIf test rest =>
      cases move with
      | returns => exact Acts.of_control stands (.returns test rest objects handler outer) trivial
      | _ => exact Acts.of_control stands (.passes test rest objects handler outer) trivial
  | attempt inner caught rest =>
      exact Acts.of_control stands (.attempts inner caught rest objects handler outer) trivial
  | raise => exact acts_abandon stands trivial

/-- Every move is nothing, or one transition of its thread. -/
theorem acts_step (system : System Thread Object Call) (event : Thread × Move Name) :
    system.Acts role body event.1 (system.step role body event) := by
  rcases event with ⟨thread, move⟩
  rcases stands : system.control thread with ⟨mode, blocks⟩
  rw [step, stands]
  cases blocks with
  | nil =>
      have outside : system.Stands role thread := .inl (by rw [stands])
      cases move with
      | calls function => exact Acts.of_control stands (.calls mode function) trivial
      | _ => exact .stands outside
  | cons block outer =>
      cases mode with
      | running => exact acts_execute stands
      | throwing => exact acts_leave stands nofun
      | returning => exact acts_leave stands nofun

end System

end Moves

/-! ## The stage of a thread -/

theorem Stage.enter_guard {stage next : Stage} :
    stage.enter .guard = some next ↔ stage = .bare ∧ next = .locked := by
  cases stage <;> cases next <;> decide

theorem Stage.enter_resource {stage next : Stage} :
    stage.enter .resource = some next ↔ stage = .locked ∧ next = .opened := by
  cases stage <;> cases next <;> decide

theorem Stage.enter_plain {stage next : Stage} :
    stage.enter .plain = some next ↔ next = stage := by
  cases stage <;> cases next <;> decide

section Stages

variable (role : Object -> Role)

/-- The stage that some objects, the newest first, have led to. -/
def stageOf : List Object -> Option Stage
  | [] => some .bare
  | object :: objects => (stageOf objects).bind fun stage => stage.enter (role object)

/-- The objects are constructed in order, and what is left of each block may
follow them.  A handler starts where the block of its `try` has started. -/
def Sound : List (Block Object Call) -> Prop
  | [] => True
  | block :: outer =>
      Sound outer ∧
      (Exists fun stage => stageOf role (held outer) = some stage ∧
        forall handler, block.handler = some handler -> handler.Disciplined role stage) ∧
      Exists fun stage => stageOf role (held (block :: outer)) = some stage ∧
        block.code.Disciplined role stage

variable {role}

theorem stageOf_cons {object : Object} {objects : List Object} {stage : Stage} :
    stageOf role (object :: objects) = some stage ↔
      Exists fun before => stageOf role objects = some before ∧
        before.enter (role object) = some stage :=
  Option.bind_eq_some_iff

theorem Sound.stage {blocks : List (Block Object Call)} (sound : Sound role blocks) :
    Exists fun stage => stageOf role (held blocks) = some stage := by
  cases blocks with
  | nil => exact ⟨.bare, rfl⟩
  | cons block outer =>
      rcases sound with ⟨_, _, stage, known, _⟩
      exact ⟨stage, known⟩

/-- The first block of a function. -/
theorem sound_body {code : Code Object Call} (disciplined : code.Disciplined role .bare) :
    Sound role [⟨[], code, none⟩] :=
  ⟨trivial, ⟨.bare, rfl, nofun⟩, .bare, rfl, disciplined⟩

/-- Every transition of a disciplined thread leaves it disciplined. -/
theorem Transition.sound {body : Name -> Code Object Call}
    (disciplined : forall function, (body function).Disciplined role .bare)
    {control next : Control Object Call} {effect : Effect Object}
    (transition : Transition body control effect next) (sound : Sound role control.blocks) :
    Sound role next.blocks := by
  cases transition with
  | calls mode function => exact sound_body (disciplined function)
  | constructs object rest objects handler outer =>
      rcases sound with ⟨outside, caught, stage, known, entered, enters, continues⟩
      exact ⟨outside, caught, entered, stageOf_cons.mpr ⟨stage, known, enters⟩, continues⟩
  | performs call rest objects handler outer => exact sound
  | passes test rest objects handler outer => exact sound
  | returns test rest objects handler outer =>
      rcases sound with ⟨outside, caught, stage, known, _⟩
      exact ⟨outside, caught, stage, known, trivial⟩
  | throws code may objects handler outer =>
      rcases sound with ⟨outside, caught, stage, known, _⟩
      exact ⟨outside, caught, stage, known, trivial⟩
  | attempts inner caught rest objects handler outer =>
      rcases sound with ⟨outside, outerCaught, stage, known, innerFits, caughtFits, restFits⟩
      refine ⟨⟨outside, outerCaught, stage, known, restFits⟩, ⟨stage, known, ?_⟩, stage, known,
        innerFits⟩
      intro given same
      cases same
      exact caughtFits
  | destroys mode object objects code handler outer ends =>
      rcases sound with ⟨outside, caught, stage, known, _⟩
      rcases stageOf_cons.mp known with ⟨before, knownBefore, _⟩
      exact ⟨outside, caught, before, knownBefore, trivial⟩
  | catches code handler outer =>
      rcases sound with ⟨outside, ⟨stage, known, fits⟩, _⟩
      exact ⟨outside, ⟨stage, known, nofun⟩, stage, known, fits handler rfl⟩
  | leaves mode code handler outer ends uncaught => exact sound.1

/-- What a transition does to the objects of its thread. -/
def Effect.Changes : Effect Object -> List Object -> List Object -> Prop
  | .silent, before, after => after = before
  | .constructs object, before, after => after = object :: before
  | .destroys object, before, after => before = object :: after

theorem Transition.changes {body : Name -> Code Object Call} {control next : Control Object Call}
    {effect : Effect Object} (transition : Transition body control effect next) :
    effect.Changes (held control.blocks) (held next.blocks) := by
  cases transition with
  | _ => rfl

/-- The stage says how many guards there are, and how many objects on the
resource. -/
theorem count_of_stageOf {objects : List Object} {stage : Stage}
    (known : stageOf role objects = some stage) :
    (objects.countP fun object => decide (role object = .guard)) = (if stage = .bare then 0 else 1) ∧
      (objects.countP fun object => decide (role object = .resource)) =
        (if stage = .opened then 1 else 0) := by
  induction objects generalizing stage with
  | nil =>
      cases known
      exact ⟨rfl, rfl⟩
  | cons object objects inductionHypothesis =>
      rcases stageOf_cons.mp known with ⟨before, knownBefore, enters⟩
      rcases inductionHypothesis knownBefore with ⟨guards, resources⟩
      rw [List.countP_cons, List.countP_cons, guards, resources]
      cases use : role object with
      | guard =>
          rw [use] at enters
          rcases Stage.enter_guard.mp enters with ⟨rfl, rfl⟩
          exact ⟨rfl, rfl⟩
      | resource =>
          rw [use] at enters
          rcases Stage.enter_resource.mp enters with ⟨rfl, rfl⟩
          exact ⟨rfl, rfl⟩
      | plain =>
          rw [use] at enters
          rw [Stage.enter_plain.mp enters]
          exact ⟨rfl, rfl⟩

/-- What a transition does to the stage of its thread. -/
def Effect.Leads (role : Object -> Role) : Effect Object -> Stage -> Stage -> Prop
  | .silent, before, after => after = before
  | .constructs object, before, after => before.enter (role object) = some after
  | .destroys object, before, after => after.enter (role object) = some before

theorem Effect.Changes.leads {effect : Effect Object} {before after : List Object}
    (changes : effect.Changes before after) {first last : Stage}
    (knownFirst : stageOf role before = some first) (knownLast : stageOf role after = some last) :
    effect.Leads role first last := by
  have enters : forall {object : Object} {objects : List Object} {inner outer : Stage},
      stageOf role objects = some outer -> stageOf role (object :: objects) = some inner ->
      outer.enter (role object) = some inner := by
    intro object objects inner outer knownOuter knownInner
    rcases stageOf_cons.mp knownInner with ⟨stage, known, enters⟩
    rw [knownOuter, Option.some.injEq] at known
    exact known ▸ enters
  cases effect with
  | silent =>
      have same : after = before := changes
      rw [same, knownFirst, Option.some.injEq] at knownLast
      exact knownLast.symm
  | constructs object =>
      have grown : after = object :: before := changes
      rw [grown] at knownLast
      exact enters knownFirst knownLast
  | destroys object =>
      have shrunk : before = object :: after := changes
      rw [shrunk] at knownFirst
      exact enters knownLast knownFirst

end Stages

/-! ## The mutex and the resource -/

/-- A place that one thread can take: a thread takes it when it is free, leaves
it, or lets it be.  The propositions say whether the thread has it. -/
inductive Takes (thread : Thread) : Option Thread -> Option Thread -> Prop -> Prop -> Prop where
  | keeps (holder : Option Thread) (before after : Prop) (same : before ↔ after) :
      Takes thread holder holder before after
  | takes (before after : Prop) (has : after) : Takes thread none (some thread) before after
  | leaves (holder : Option Thread) (before after : Prop) (had : before) (gone : ¬ after) :
      Takes thread holder none before after

theorem Takes.self {thread : Thread} {first last : Option Thread} {before after : Prop}
    (takes : Takes thread first last before after) (known : first = some thread ↔ before) :
    last = some thread ↔ after := by
  cases takes with
  | keeps holder before after same => exact known.trans same
  | takes before after has => exact ⟨fun _ => has, fun _ => rfl⟩
  | leaves holder before after had gone => exact ⟨nofun, fun has => absurd has gone⟩

theorem Takes.others {thread : Thread} {first last : Option Thread} {before after : Prop}
    (takes : Takes thread first last before after) (known : first = some thread ↔ before)
    {other : Thread} (different : other ≠ thread) : last = some other ↔ first = some other := by
  cases takes with
  | keeps holder before after same => exact Iff.rfl
  | takes before after has =>
      exact ⟨fun same => absurd (Option.some.inj same).symm different, nofun⟩
  | leaves holder before after had gone =>
      refine ⟨nofun, fun same => ?_⟩
      rw [known.mpr had] at same
      exact absurd (Option.some.inj same).symm different

namespace System

/-- What a transition does to the mutex and the resource, by the stages of its
thread before and after. -/
inductive Shifts (system : System Thread Object Call) (thread : Thread) :
    Stage -> Stage -> System Thread Object Call -> Prop where
  | keeps (stage : Stage) : Shifts system thread stage stage system
  | locks (free : system.owner = none) :
      Shifts system thread .bare .locked { system with owner := some thread }
  | opens (free : system.bearer = none) :
      Shifts system thread .locked .opened { system with bearer := some thread }
  | closes : Shifts system thread .opened .locked { system with bearer := none }
  | unlocks : Shifts system thread .locked .bare { system with owner := none }

variable {role : Object -> Role} {system shifted : System Thread Object Call} {thread : Thread}
  {first last : Stage}

theorem shifts_affect {effect : Effect Object} (leads : effect.Leads role first last)
    (admits : system.Admits role effect) :
    system.Shifts thread first last (system.affect role thread effect) := by
  cases effect with
  | silent =>
      have same : last = first := leads
      rw [same]
      exact .keeps first
  | constructs object =>
      simp only [Effect.Leads, affect] at leads ⊢
      cases use : role object with
      | guard =>
          rw [use] at leads
          rcases Stage.enter_guard.mp leads with ⟨rfl, rfl⟩
          exact .locks (admits.1 use)
      | resource =>
          rw [use] at leads
          rcases Stage.enter_resource.mp leads with ⟨rfl, rfl⟩
          exact .opens (admits.2 use)
      | plain =>
          rw [use] at leads
          rw [Stage.enter_plain.mp leads]
          exact .keeps first
  | destroys object =>
      simp only [Effect.Leads, affect] at leads ⊢
      cases use : role object with
      | guard =>
          rw [use] at leads
          rcases Stage.enter_guard.mp leads with ⟨rfl, rfl⟩
          exact .unlocks
      | resource =>
          rw [use] at leads
          rcases Stage.enter_resource.mp leads with ⟨rfl, rfl⟩
          exact .closes
      | plain =>
          rw [use] at leads
          rw [Stage.enter_plain.mp leads]
          exact .keeps last

theorem Shifts.takes_owner (shifts : system.Shifts thread first last shifted) :
    Takes thread system.owner shifted.owner (first ≠ .bare) (last ≠ .bare) := by
  cases shifts with
  | keeps => exact .keeps _ _ _ Iff.rfl
  | locks free =>
      rw [free]
      exact .takes _ _ nofun
  | opens free => exact .keeps _ _ _ ⟨fun _ => nofun, fun _ => nofun⟩
  | closes => exact .keeps _ _ _ ⟨fun _ => nofun, fun _ => nofun⟩
  | unlocks => exact .leaves _ _ _ nofun fun locked => locked rfl

theorem Shifts.takes_bearer (shifts : system.Shifts thread first last shifted) :
    Takes thread system.bearer shifted.bearer (first = .opened) (last = .opened) := by
  cases shifts with
  | keeps => exact .keeps _ _ _ Iff.rfl
  | locks free => exact .keeps _ _ _ ⟨nofun, nofun⟩
  | opens free =>
      rw [free]
      exact .takes _ _ rfl
  | closes => exact .leaves _ _ _ rfl nofun
  | unlocks => exact .keeps _ _ _ ⟨nofun, nofun⟩

theorem Shifts.control (shifts : system.Shifts thread first last shifted) :
    shifted.control = system.control := by
  cases shifts with
  | _ => rfl

variable (role) in
/-- The objects of a thread have led to a stage. -/
def IsAt (system : System Thread Object Call) (thread : Thread) (stage : Stage) : Prop :=
  stageOf role (held (system.control thread).blocks) = some stage

variable (role) in
/-- The invariant of all runs: the threads are disciplined, the mutex belongs to
the thread with a guard, and the resource to the thread with an object on it. -/
structure Invariant (system : System Thread Object Call) : Prop where
  sound : forall thread, Sound role (system.control thread).blocks
  owner : forall thread stage, system.IsAt role thread stage ->
    (system.owner = some thread ↔ stage ≠ .bare)
  bearer : forall thread stage, system.IsAt role thread stage ->
    (system.bearer = some thread ↔ stage = .opened)

theorem invariant_idle : (idle : System Thread Object Call).Invariant role where
  sound _ := trivial
  owner thread stage known := by
    cases known
    exact ⟨nofun, fun locked => absurd rfl locked⟩
  bearer thread stage known := by
    cases known
    exact ⟨nofun, nofun⟩

/-! ## One thread at a time -/

variable (role) in
/-- The thread has a live object of this kind. -/
def Has (system : System Thread Object Call) (thread : Thread) (kind : Role) : Prop :=
  Exists fun object => object ∈ held (system.control thread).blocks ∧ role object = kind

theorem has_iff {kind : Role} : system.Has role thread kind ↔
    0 < (held (system.control thread).blocks).countP fun object => decide (role object = kind) := by
  simp only [Has, List.countP_pos_iff, decide_eq_true_eq]

theorem Invariant.owner_iff (invariant : system.Invariant role) :
    system.owner = some thread ↔ system.Has role thread .guard := by
  rcases (invariant.sound thread).stage with ⟨stage, isAt⟩
  rw [invariant.owner thread stage isAt, has_iff, (count_of_stageOf isAt).1]
  split_ifs with bare
  · exact ⟨fun locked => absurd bare locked, nofun⟩
  · exact ⟨fun _ => Nat.one_pos, fun _ => bare⟩

theorem Invariant.bearer_iff (invariant : system.Invariant role) :
    system.bearer = some thread ↔ system.Has role thread .resource := by
  rcases (invariant.sound thread).stage with ⟨stage, isAt⟩
  rw [invariant.bearer thread stage isAt, has_iff, (count_of_stageOf isAt).2]
  split_ifs with opened
  · exact ⟨fun _ => Nat.one_pos, fun _ => opened⟩
  · exact ⟨fun same => absurd same opened, nofun⟩

/-- A thread with an object on the resource holds the mutex. -/
theorem Invariant.owner_of_resource (invariant : system.Invariant role)
    (has : system.Has role thread .resource) : system.owner = some thread := by
  rcases (invariant.sound thread).stage with ⟨stage, isAt⟩
  have opened := (invariant.bearer thread stage isAt).mp (invariant.bearer_iff.mpr has)
  refine (invariant.owner thread stage isAt).mpr ?_
  rw [opened]
  exact nofun

/-- No thread has two guards, or two objects on the resource. -/
theorem Invariant.single (invariant : system.Invariant role) {kind : Role} (shared : kind ≠ .plain) :
    ((held (system.control thread).blocks).countP fun object => decide (role object = kind)) ≤ 1 := by
  rcases (invariant.sound thread).stage with ⟨stage, isAt⟩
  rcases count_of_stageOf isAt with ⟨guards, resources⟩
  cases kind with
  | guard =>
      rw [guards]
      split_ifs
      · exact Nat.zero_le 1
      · exact Nat.le_refl 1
  | resource =>
      rw [resources]
      split_ifs
      · exact Nat.le_refl 1
      · exact Nat.zero_le 1
  | plain => exact absurd rfl shared

/-- Outside the functions a thread has nothing. -/
theorem not_has_of_outside {kind : Role} (outside : (system.control thread).blocks = []) :
    ¬ system.Has role thread kind := by
  rintro ⟨object, member, _⟩
  rw [outside] at member
  exact absurd member List.not_mem_nil

/-- Where a thread comes to construct an object on the resource, nobody has
one. -/
theorem Invariant.unborne (invariant : system.Invariant role) {object : Object}
    {rest : Code Object Call} {objects : List Object} {handler : Option (Code Object Call)}
    {outer : List (Block Object Call)}
    (stands : system.control thread = ⟨.running, ⟨objects, .declare object rest, handler⟩ :: outer⟩)
    (use : role object = .resource) : system.bearer = none := by
  have sound := invariant.sound thread
  rw [stands] at sound
  rcases sound with ⟨_, _, stage, known, next, enters, _⟩
  rw [use] at enters
  rcases Stage.enter_resource.mp enters with ⟨rfl, _⟩
  have isAt : system.IsAt role thread .locked := by
    rw [IsAt, stands]
    exact known
  have owned := (invariant.owner thread _ isAt).mpr nofun
  cases borne : system.bearer with
  | none => rfl
  | some other =>
      have also := invariant.owner_of_resource (invariant.bearer_iff.mp borne)
      rw [owned, Option.some.injEq] at also
      subst also
      exact absurd ((invariant.bearer thread _ isAt).mp borne) nofun

/-! ## Runs -/

variable [DecidableEq Thread]

theorem place_self (system : System Thread Object Call) (thread : Thread)
    (control : Control Object Call) : (system.place thread control).control thread = control := by
  unfold place
  exact Function.update_self thread control system.control

theorem place_other (system : System Thread Object Call) {thread other : Thread}
    (control : Control Object Call) (different : other ≠ thread) :
    (system.place thread control).control other = system.control other := by
  unfold place
  exact Function.update_of_ne different control system.control

/-- One transition of one thread keeps the invariant. -/
theorem Invariant.shifts (invariant : system.Invariant role)
    (before : system.IsAt role thread first) (shifts : system.Shifts thread first last shifted)
    {next : Control Object Call} (sound : Sound role next.blocks)
    (after : stageOf role (held next.blocks) = some last) :
    (shifted.place thread next).Invariant role := by
  have own := invariant.owner thread first before
  have bear := invariant.bearer thread first before
  refine ⟨fun other => ?_, fun other stage isAt => ?_, fun other stage isAt => ?_⟩
  · by_cases same : other = thread
    · rw [same, place_self]
      exact sound
    · rw [place_other _ _ same, shifts.control]
      exact invariant.sound other
  · by_cases same : other = thread
    · rw [same, IsAt, place_self, after, Option.some.injEq] at isAt
      rw [same, ← isAt]
      exact shifts.takes_owner.self own
    · rw [IsAt, place_other _ _ same, shifts.control] at isAt
      exact (shifts.takes_owner.others own same).trans (invariant.owner other stage isAt)
  · by_cases same : other = thread
    · rw [same, IsAt, place_self, after, Option.some.injEq] at isAt
      rw [same, ← isAt]
      exact shifts.takes_bearer.self bear
    · rw [IsAt, place_other _ _ same, shifts.control] at isAt
      exact (shifts.takes_bearer.others bear same).trans (invariant.bearer other stage isAt)

section Disciplined

variable {body : Name -> Code Object Call}
  (disciplined : forall function, (body function).Disciplined role .bare)

include disciplined

theorem Invariant.acts (invariant : system.Invariant role) {next : System Thread Object Call}
    (acts : system.Acts role body thread next) : next.Invariant role := by
  cases acts with
  | stands => exact invariant
  | moves effect control transition admits =>
      have sound := transition.sound disciplined (invariant.sound thread)
      rcases (invariant.sound thread).stage with ⟨first, before⟩
      rcases sound.stage with ⟨last, after⟩
      exact invariant.shifts before (shifts_affect (transition.changes.leads before after) admits)
        sound after

theorem invariant_after (moves : List (Thread × Move Name)) :
    (System.after role body moves).Invariant role :=
  invariant_of_step (Invariant role)
    (fun system event invariant => invariant.acts disciplined (acts_step system event))
    invariant_idle moves

end Disciplined

/-- The mutex is released only when nobody has an object on the resource. -/
theorem Invariant.unborne_of_release {body : Name -> Code Object Call}
    (invariant : system.Invariant role)
    (disciplined : forall function, (body function).Disciplined role .bare)
    {next : System Thread Object Call} (acts : system.Acts role body thread next) {owner : Thread}
    (owned : system.owner = some owner) (released : next.owner ≠ some owner) (other : Thread) :
    ¬ system.Has role other .resource := by
  intro has
  have same : other = owner := by
    have also := invariant.owner_of_resource has
    rw [owned, Option.some.injEq] at also
    exact also.symm
  subst same
  cases acts with
  | stands => exact released owned
  | moves effect control transition admits =>
      rcases (invariant.sound thread).stage with ⟨first, before⟩
      rcases (transition.sound disciplined (invariant.sound thread)).stage with ⟨last, after⟩
      have shifts : system.Shifts thread first last (system.affect role thread effect) :=
        shifts_affect (transition.changes.leads before after) admits
      generalize system.affect role thread effect = shifted at shifts released
      cases shifts with
      | keeps => exact released owned
      | locks free => exact absurd (free.symm.trans owned) nofun
      | opens free => exact released owned
      | closes => exact released owned
      | unlocks =>
          have mine := (invariant.owner thread _ before).mpr nofun
          rw [owned, Option.some.injEq] at mine
          subst mine
          exact absurd ((invariant.bearer other _ before).mp (invariant.bearer_iff.mpr has)) nofun

end System

end Machine

end ScopedObjects
end Foundation
end CoreBank
