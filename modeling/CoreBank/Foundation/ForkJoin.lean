import CoreBank.Foundation.Runs
import Mathlib.Algebra.BigOperators.Group.Finset.Basic
import Mathlib.Algebra.BigOperators.Intervals
import Mathlib.Logic.Function.Iterate

namespace CoreBank
namespace Foundation

/-!
# Workers that update one value under a lock

A parent starts a number of workers, waits for each of them, and reads a value.
Every worker goes a number of times through the same section: it takes the lock,
reads the value, writes the update of what it has read, and gives the lock back.
Reading and writing are steps of their own, so without the lock an update could
be lost.

Between any two steps the value has been updated once for each section that is
not pending any more.  Every step brings the run one step nearer to its end, and
there is always one to be made until then.
-/

/-- Where a worker stands, with the sections that it has not entered. -/
inductive Worker (Value : Type) where
  | absent
  | outside (left : ℕ)
  | locked (left : ℕ)
  | loaded (left : ℕ) (seen : Value)
  | stored (left : ℕ)
  deriving DecidableEq, Repr

/-- The value, the holder of the lock, the workers, how many have been started
and joined, and what the parent has read. -/
structure ForkJoin (Value : Type) where
  value : Value
  owner : Option ℕ
  workers : ℕ -> Worker Value
  started : ℕ
  joined : ℕ
  result : Option Value

/-- Whose turn it is. -/
inductive Turn where
  | parent
  | worker (index : ℕ)
  deriving DecidableEq, Repr

namespace Worker

variable {Value : Type}

/-- The worker has the lock. -/
def inside : Worker Value -> Bool
  | .absent | .outside _ => false
  | _ => true

/-- The sections whose update has not been written. -/
def pending : Worker Value -> ℕ
  | .absent => 0
  | .outside left | .stored left => left
  | .locked left | .loaded left _ => left + 1

/-- The steps that are left. -/
def steps : Worker Value -> ℕ
  | .absent => 0
  | .outside left => 4 * left
  | .locked left => 4 * left + 3
  | .loaded left _ => 4 * left + 2
  | .stored left => 4 * left + 1

end Worker

namespace ForkJoin

variable {Value : Type} (update : Value -> Value) (count times : ℕ)

/-- Nothing has been started. -/
def initial (start : Value) : ForkJoin Value where
  value := start
  owner := none
  workers _ := .absent
  started := 0
  joined := 0
  result := none

/-- One worker in another place. -/
def put (state : ForkJoin Value) (index : ℕ) (worker : Worker Value) : ForkJoin Value :=
  { state with workers := Function.update state.workers index worker }

/-- A step of a worker; it may have to wait for the lock. -/
def workerMove (state : ForkJoin Value) (index : ℕ) : Option (ForkJoin Value) :=
  match state.workers index with
  | .absent => none
  | .outside 0 => none
  | .outside (left + 1) =>
      match state.owner with
      | none => some { state.put index (.locked left) with owner := some index }
      | some _ => none
  | .locked left => some (state.put index (.loaded left state.value))
  | .loaded left seen => some { state.put index (.stored left) with value := update seen }
  | .stored left => some { state.put index (.outside left) with owner := none }

/-- A step of the parent; it may have to wait for the worker to join. -/
def parentMove (state : ForkJoin Value) : Option (ForkJoin Value) :=
  if state.started < count then
    some { state.put state.started (.outside times) with started := state.started + 1 }
  else if state.joined < count then
    match state.workers state.joined with
    | .outside 0 => some { state with joined := state.joined + 1 }
    | _ => none
  else
    match state.result with
    | none => some { state with result := some state.value }
    | some _ => none

def move (state : ForkJoin Value) : Turn -> Option (ForkJoin Value)
  | .parent => state.parentMove count times
  | .worker index => state.workerMove update index

/-- A turn of somebody who has to wait, or is done, changes nothing. -/
def step (state : ForkJoin Value) (turn : Turn) : ForkJoin Value :=
  (state.move update count times turn).getD state

/-- How many of the turns are used. -/
def used (state : ForkJoin Value) : List Turn -> ℕ
  | [] => 0
  | turn :: turns =>
      match state.move update count times turn with
      | none => used state turns
      | some next => used next turns + 1

/-- The steps that are left to everybody. -/
def remaining (state : ForkJoin Value) : ℕ :=
  (count - state.started) * (4 * times + 1) +
    (Finset.range state.started).sum (fun index => (state.workers index).steps) +
    (count - state.joined) + if state.result = none then 1 else 0

@[simp] theorem workers_put_self (state : ForkJoin Value) (index : ℕ) (worker : Worker Value) :
    (state.put index worker).workers index = worker := by
  change Function.update state.workers index worker index = worker
  rw [Function.update_self]

theorem workers_put_of_ne (state : ForkJoin Value) {index other : ℕ} (different : other ≠ index)
    (worker : Worker Value) : (state.put index worker).workers other = state.workers other := by
  change Function.update state.workers index worker other = state.workers other
  rw [Function.update_of_ne different]

/-! ## Sums over the workers -/

/-- One worker changes. -/
theorem sum_put (measure : Worker Value -> ℕ) (state : ForkJoin Value) {index started : ℕ}
    (among : index < started) (worker : Worker Value) :
    (Finset.range started).sum (fun other => measure ((state.put index worker).workers other)) +
        measure (state.workers index) =
      (Finset.range started).sum (fun other => measure (state.workers other)) + measure worker := by
  have member : index ∈ Finset.range started := Finset.mem_range.mpr among
  have others : forall other, other ∈ (Finset.range started).erase index ->
      measure ((state.put index worker).workers other) = measure (state.workers other) := by
    intro other erased
    rw [workers_put_of_ne state (Finset.ne_of_mem_erase erased)]
  rw [← Finset.add_sum_erase _ _ member, ← Finset.add_sum_erase _ _ member, workers_put_self,
    Finset.sum_congr rfl others]
  omega

/-- One worker more is started. -/
theorem sum_start (measure : Worker Value -> ℕ) (state : ForkJoin Value) (worker : Worker Value) :
    (Finset.range (state.started + 1)).sum
        (fun other => measure ((state.put state.started worker).workers other)) =
      (Finset.range state.started).sum (fun other => measure (state.workers other)) +
        measure worker := by
  have earlier : forall other, other ∈ Finset.range state.started ->
      measure ((state.put state.started worker).workers other) = measure (state.workers other) := by
    intro other member
    rw [workers_put_of_ne state (Nat.ne_of_lt (Finset.mem_range.mp member))]
  rw [Finset.sum_range_succ, Finset.sum_congr rfl earlier, workers_put_self]

/-! ## What a step can do -/

/-- The steps, with the conditions under which they are made. -/
inductive Moved (state : ForkJoin Value) : ForkJoin Value -> Prop where
  | starts (more : state.started < count) : Moved state
      { state.put state.started (.outside times) with started := state.started + 1 }
  | joins (all : count ≤ state.started) (more : state.joined < count)
      (done : state.workers state.joined = .outside 0) : Moved state
      { state with joined := state.joined + 1 }
  | reads (all : count ≤ state.started) (joined : count ≤ state.joined) (unread : state.result = none) :
      Moved state { state with result := some state.value }
  | locks (index left : ℕ) (stands : state.workers index = .outside (left + 1))
      (free : state.owner = none) : Moved state
      { state.put index (.locked left) with owner := some index }
  | loads (index left : ℕ) (stands : state.workers index = .locked left) : Moved state
      (state.put index (.loaded left state.value))
  | stores (index left : ℕ) (seen : Value) (stands : state.workers index = .loaded left seen) :
      Moved state { state.put index (.stored left) with value := update seen }
  | unlocks (index left : ℕ) (stands : state.workers index = .stored left) : Moved state
      { state.put index (.outside left) with owner := none }

variable {update count times}

theorem moved_of_move {state next : ForkJoin Value} {turn : Turn}
    (moves : state.move update count times turn = some next) : Moved update count times state next := by
  cases turn with
  | parent =>
      rw [move, parentMove] at moves
      split_ifs at moves with starts joins
      · cases moves
        exact .starts starts
      · split at moves
        · cases moves
          exact .joins (Nat.le_of_not_lt starts) joins ‹_›
        · cases moves
      · split at moves
        · cases moves
          exact .reads (Nat.le_of_not_lt starts) (Nat.le_of_not_lt joins) ‹_›
        · cases moves
  | worker index =>
      rw [move, workerMove] at moves
      split at moves
      · cases moves
      · cases moves
      · split at moves
        · cases moves
          exact .locks index _ ‹_› ‹_›
        · cases moves
      · cases moves
        exact .loads index _ ‹_›
      · cases moves
        exact .stores index _ _ ‹_›
      · cases moves
        exact .unlocks index _ ‹_›

/-! ## What every step keeps -/

/-- The lock tells who is inside; a value that has been read is still there; the
value has been updated once for each section that is not pending; and the parent
is where the workers let it be. -/
structure Sound (update : Value -> Value) (count times : ℕ) (start : Value)
    (state : ForkJoin Value) : Prop where
  mutex : forall index, (state.workers index).inside = true ↔ state.owner = some index
  seen : forall index left seen, state.workers index = .loaded left seen -> seen = state.value
  absent : forall index, state.workers index = .absent ↔ state.started ≤ index
  started : state.started ≤ count
  joined : state.joined ≤ state.started
  ended : forall index, index < state.joined -> state.workers index = .outside 0
  early : state.started < count -> state.joined = 0
  updates : Exists fun made => state.value = update^[made] start ∧
    made + (Finset.range state.started).sum (fun index => (state.workers index).pending) =
      state.started * times
  result : forall read, state.result = some read -> state.joined = count ∧ read = state.value

theorem sound_initial (start : Value) : Sound update count times start (initial start) where
  mutex _ := ⟨nofun, nofun⟩
  seen := nofun
  absent index := ⟨fun _ => Nat.zero_le index, fun _ => rfl⟩
  started := Nat.zero_le count
  joined := le_refl 0
  ended _ impossible := absurd impossible (Nat.not_lt_zero _)
  early _ := rfl
  updates := ⟨0, rfl, by simp [initial]⟩
  result := nofun

section Sound

variable {start : Value} {state : ForkJoin Value}

/-- A worker that is not at its end can be anywhere, but the parent waits. -/
theorem Sound.active (sound : Sound update count times start state) {index : ℕ}
    (present : state.workers index ≠ .absent) (unfinished : state.workers index ≠ .outside 0) :
    index < state.started ∧ state.joined ≤ index ∧ state.result = none := by
  have among : index < state.started := Nat.lt_of_not_le fun outside =>
    present ((sound.absent index).mpr outside)
  have waits : state.joined ≤ index := Nat.le_of_not_lt fun joined =>
    unfinished (sound.ended index joined)
  refine ⟨among, waits, ?_⟩
  cases read : state.result with
  | none => rfl
  | some value =>
      have all := (sound.result value read).1
      have bound := sound.started
      omega

/-- What does not depend on the stages inside the section. -/
theorem Sound.put (sound : Sound update count times start state) {index : ℕ} (worker : Worker Value)
    (present : state.workers index ≠ .absent) (unfinished : state.workers index ≠ .outside 0)
    (stays : worker ≠ .absent) {value : Value} {owner : Option ℕ}
    (mutex : forall other, ((state.put index worker).workers other).inside = true ↔ owner = some other)
    (seen : forall other left seen, (state.put index worker).workers other = .loaded left seen ->
      seen = value)
    (updates : Exists fun made => value = update^[made] start ∧
      made + (Finset.range state.started).sum
        (fun other => ((state.put index worker).workers other).pending) = state.started * times) :
    Sound update count times start { state.put index worker with value := value, owner := owner } := by
  rcases sound.active present unfinished with ⟨among, waits, unread⟩
  refine ⟨mutex, seen, ?_, sound.started, sound.joined, ?_, sound.early, updates, ?_⟩
  · intro other
    change (state.put index worker).workers other = .absent ↔ state.started ≤ other
    by_cases same : other = index
    · subst same
      rw [workers_put_self]
      exact ⟨fun absent => absurd absent stays, fun beyond => absurd among (Nat.not_lt_of_le beyond)⟩
    · rw [workers_put_of_ne state same]
      exact sound.absent other
  · intro other joined
    change other < state.joined at joined
    change (state.put index worker).workers other = .outside 0
    rw [workers_put_of_ne state (by omega)]
    exact sound.ended other joined
  · intro read reads
    change state.result = some read at reads
    rw [unread] at reads
    cases reads

/-- The section of a worker is its own: nobody else is inside. -/
theorem Sound.alone (sound : Sound update count times start state) {index other : ℕ}
    (own : (state.workers index).inside = true) (also : (state.workers other).inside = true) :
    other = index := by
  have first := (sound.mutex index).mp own
  have second := (sound.mutex other).mp also
  exact Option.some.inj (second.symm.trans first)

/-- A worker that goes on inside its section, or outside it, keeps the lock as it
is. -/
theorem Sound.mutex_put (sound : Sound update count times start state) {index : ℕ}
    {worker : Worker Value} (same : worker.inside = (state.workers index).inside) (other : ℕ) :
    ((state.put index worker).workers other).inside = true ↔ state.owner = some other := by
  by_cases own : other = index
  · subst own
    rw [workers_put_self, same]
    exact sound.mutex other
  · rw [workers_put_of_ne state own]
    exact sound.mutex other

/-- A worker whose section stays pending leaves the updates as they are. -/
theorem Sound.updates_put (sound : Sound update count times start state) {index : ℕ}
    (among : index < state.started) {worker : Worker Value}
    (same : worker.pending = (state.workers index).pending) : Exists fun made =>
      state.value = update^[made] start ∧
        made + (Finset.range state.started).sum
          (fun other => ((state.put index worker).workers other).pending) = state.started * times := by
  rcases sound.updates with ⟨made, value, total⟩
  have sum := sum_put Worker.pending state among worker
  exact ⟨made, value, by omega⟩

theorem Sound.seen_put (sound : Sound update count times start state) {index : ℕ}
    {worker : Worker Value} (own : forall left seen, worker = .loaded left seen -> seen = state.value)
    (other left : ℕ) (seen : Value)
    (loaded : (state.put index worker).workers other = .loaded left seen) : seen = state.value := by
  by_cases same : other = index
  · subst same
    rw [workers_put_self] at loaded
    exact own left seen loaded
  · rw [workers_put_of_ne state same] at loaded
    exact sound.seen other left seen loaded

theorem Sound.moved (sound : Sound update count times start state) {next : ForkJoin Value}
    (moved : Moved update count times state next) : Sound update count times start next := by
  cases moved with
  | starts more =>
      have joined := sound.early more
      have before := (sound.absent state.started).mpr (le_refl _)
      refine ⟨sound.mutex_put (by rw [before]; rfl), sound.seen_put nofun, ?_, more, ?_, ?_, ?_, ?_, ?_⟩
      · intro index
        change (state.put state.started (.outside times)).workers index = .absent ↔
          state.started + 1 ≤ index
        by_cases same : index = state.started
        · rw [same, workers_put_self]
          exact ⟨nofun, fun beyond => absurd beyond (Nat.not_succ_le_self _)⟩
        · rw [workers_put_of_ne state same, sound.absent index]
          omega
      · change state.joined ≤ state.started + 1
        omega
      · intro index impossible
        change index < state.joined at impossible
        omega
      · intro _
        exact joined
      · rcases sound.updates with ⟨made, value, total⟩
        have sum := sum_start Worker.pending state (.outside times)
        refine ⟨made, value, ?_⟩
        change made + (Finset.range (state.started + 1)).sum (fun index =>
          ((state.put state.started (.outside times)).workers index).pending) =
            (state.started + 1) * times
        rw [sum, Nat.succ_mul]
        change made + (_ + times) = _
        omega
      · intro read reads
        have all := (sound.result read reads).1
        omega
  | joins all more done =>
      have bound := sound.started
      refine ⟨sound.mutex, sound.seen, sound.absent, sound.started, ?_, ?_, ?_, sound.updates, ?_⟩
      · change state.joined + 1 ≤ state.started
        omega
      · intro index joined
        change index < state.joined + 1 at joined
        by_cases last : index = state.joined
        · rw [last]
          exact done
        · exact sound.ended index (by omega)
      · intro fewer
        change state.started < count at fewer
        omega
      · intro read reads
        have joined := (sound.result read reads).1
        omega
  | reads all joined unread =>
      have bound := sound.started
      have within := sound.joined
      refine ⟨sound.mutex, sound.seen, sound.absent, sound.started, sound.joined, sound.ended,
        sound.early, sound.updates, ?_⟩
      intro read reads
      cases reads
      exact ⟨by change state.joined = count; omega, rfl⟩
  | locks index left stands free =>
      have present : state.workers index ≠ .absent := by rw [stands]; exact nofun
      have unfinished : state.workers index ≠ .outside 0 := by
        rw [stands]
        intro same
        cases same
      refine sound.put (.locked left) present unfinished nofun ?_ (sound.seen_put nofun)
        (sound.updates_put (sound.active present unfinished).1 (by rw [stands]; rfl))
      intro other
      by_cases own : other = index
      · rw [own, workers_put_self]
        exact ⟨fun _ => rfl, fun _ => rfl⟩
      · rw [workers_put_of_ne state own, sound.mutex other, free]
        exact ⟨nofun, fun same => absurd (Option.some.inj same).symm own⟩
  | loads index left stands =>
      have present : state.workers index ≠ .absent := by rw [stands]; exact nofun
      have unfinished : state.workers index ≠ .outside 0 := by rw [stands]; exact nofun
      refine sound.put (.loaded left state.value) present unfinished nofun
        (sound.mutex_put (by rw [stands]; rfl))
        (sound.seen_put ?_)
        (sound.updates_put (sound.active present unfinished).1 (by rw [stands]; rfl))
      intro left seen loaded
      cases loaded
      rfl
  | stores index left seen stands =>
      have present : state.workers index ≠ .absent := by rw [stands]; exact nofun
      have unfinished : state.workers index ≠ .outside 0 := by rw [stands]; exact nofun
      have inside : (state.workers index).inside = true := by rw [stands]; rfl
      refine sound.put (.stored left) present unfinished nofun (sound.mutex_put (by rw [stands]; rfl)) ?_ ?_
      · intro other left' seen' loaded
        by_cases same : other = index
        · rw [same, workers_put_self] at loaded
          cases loaded
        · rw [workers_put_of_ne state same] at loaded
          exact absurd (sound.alone inside (by rw [loaded]; rfl)) same
      · rcases sound.updates with ⟨made, value, total⟩
        have sum := sum_put Worker.pending state (sound.active present unfinished).1 (.stored left)
        rw [stands] at sum
        change _ + (left + 1) = _ + left at sum
        refine ⟨made + 1, ?_, by omega⟩
        rw [sound.seen index left seen stands, value, Function.iterate_succ_apply']
  | unlocks index left stands =>
      have present : state.workers index ≠ .absent := by rw [stands]; exact nofun
      have unfinished : state.workers index ≠ .outside 0 := by rw [stands]; exact nofun
      have inside : (state.workers index).inside = true := by rw [stands]; rfl
      refine sound.put (.outside left) present unfinished nofun ?_ (sound.seen_put nofun)
        (sound.updates_put (sound.active present unfinished).1 (by rw [stands]; rfl))
      intro other
      by_cases own : other = index
      · rw [own, workers_put_self]
        exact ⟨nofun, nofun⟩
      · rw [workers_put_of_ne state own]
        exact ⟨fun also => absurd (sound.alone inside also) own, nofun⟩

/-! ## How far the end is -/

theorem Sound.remaining_put (sound : Sound update count times start state) {index : ℕ}
    (worker : Worker Value) (present : state.workers index ≠ .absent)
    (unfinished : state.workers index ≠ .outside 0)
    (nearer : worker.steps + 1 = (state.workers index).steps) (value : Value) (owner : Option ℕ) :
    remaining count times { state.put index worker with value := value, owner := owner } + 1 =
      remaining count times state := by
  have sum := sum_put Worker.steps state (sound.active present unfinished).1 worker
  change (count - state.started) * (4 * times + 1) +
    (Finset.range state.started).sum (fun other => ((state.put index worker).workers other).steps) +
    (count - state.joined) + (if state.result = none then 1 else 0) + 1 = _
  rw [remaining]
  omega

/-- Every step is one step nearer to the end. -/
theorem Sound.remaining_moved (sound : Sound update count times start state) {next : ForkJoin Value}
    (moved : Moved update count times state next) :
    next.remaining count times + 1 = state.remaining count times := by
  cases moved with
  | starts more =>
      have sum := sum_start Worker.steps state (.outside times)
      have fewer : count - state.started = count - (state.started + 1) + 1 := by omega
      have product : (count - state.started) * (4 * times + 1) =
          (count - (state.started + 1)) * (4 * times + 1) + (4 * times + 1) := by
        rw [fewer, Nat.succ_mul]
      rw [remaining, remaining, product]
      change (count - (state.started + 1)) * (4 * times + 1) + (Finset.range (state.started + 1)).sum
        (fun index => ((state.put state.started (.outside times)).workers index).steps) +
        (count - state.joined) + (if state.result = none then 1 else 0) + 1 = _
      rw [sum, Worker.steps]
      omega
  | joins all more done =>
      have fewer : count - state.joined = count - (state.joined + 1) + 1 := by omega
      dsimp only [remaining]
      omega
  | reads all joined unread =>
      rw [remaining, remaining, if_pos unread, if_neg (Option.some_ne_none _)]
  | locks index left stands free =>
      exact sound.remaining_put (.locked left) (by rw [stands]; exact nofun)
        (by rw [stands]; intro same; cases same) (by rw [stands]; rfl) _ _
  | loads index left stands =>
      exact sound.remaining_put (.loaded left state.value) (by rw [stands]; exact nofun)
        (by rw [stands]; exact nofun) (by rw [stands]; rfl) _ _
  | stores index left seen stands =>
      exact sound.remaining_put (.stored left) (by rw [stands]; exact nofun)
        (by rw [stands]; exact nofun) (by rw [stands]; rfl) _ _
  | unlocks index left stands =>
      exact sound.remaining_put (.outside left) (by rw [stands]; exact nofun)
        (by rw [stands]; exact nofun) (by rw [stands]; rfl) _ _

/-- The end is where the parent has read the value. -/
theorem Sound.remaining_eq_zero_iff (sound : Sound update count times start state) :
    state.remaining count times = 0 ↔ state.result ≠ none := by
  rw [remaining]
  constructor
  · intro zero unread
    rw [if_pos unread] at zero
    omega
  · intro read
    rcases Option.ne_none_iff_exists'.mp read with ⟨value, reads⟩
    have joined := (sound.result value reads).1
    have bound := sound.started
    have within := sound.joined
    have ended : forall index, index ∈ Finset.range state.started ->
        (state.workers index).steps = 0 := by
      intro index member
      rw [sound.ended index (by rw [Finset.mem_range] at member; omega)]
      rfl
    have started : count - state.started = 0 := by omega
    rw [Finset.sum_eq_zero ended, if_neg read, started]
    omega

/-- What the parent reads. -/
theorem Sound.read (sound : Sound update count times start state) {value : Value}
    (reads : state.result = some value) : value = update^[count * times] start := by
  rcases sound.result value reads with ⟨joined, rfl⟩
  have bound := sound.started
  have within := sound.joined
  have all : state.started = count := by omega
  rcases sound.updates with ⟨made, value, total⟩
  have ended : forall index, index ∈ Finset.range state.started ->
      (state.workers index).pending = 0 := by
    intro index member
    rw [sound.ended index (by rw [Finset.mem_range] at member; omega)]
    rfl
  rw [Finset.sum_eq_zero ended, all, Nat.add_zero] at total
  rw [value, total]

/-- Until the end somebody need not wait. -/
theorem Sound.moves (sound : Sound update count times start state) (unread : state.result = none) :
    Exists fun turn => (state.move update count times turn).isSome = true := by
  by_cases starts : state.started < count
  · refine ⟨.parent, ?_⟩
    rw [move, parentMove, if_pos starts]
    rfl
  by_cases joins : state.joined < count
  · have bound := sound.started
    have present : state.workers state.joined ≠ .absent := by
      intro absent
      have beyond := (sound.absent _).mp absent
      omega
    cases stands : state.workers state.joined with
    | absent => exact absurd stands present
    | locked left => exact ⟨.worker state.joined, by rw [move, workerMove, stands]; rfl⟩
    | loaded left seen => exact ⟨.worker state.joined, by rw [move, workerMove, stands]; rfl⟩
    | stored left => exact ⟨.worker state.joined, by rw [move, workerMove, stands]; rfl⟩
    | outside left =>
        cases left with
        | zero =>
            refine ⟨.parent, ?_⟩
            rw [move, parentMove, if_neg starts, if_pos joins, stands]
            rfl
        | succ left =>
            cases owned : state.owner with
            | none =>
                refine ⟨.worker state.joined, ?_⟩
                rw [move, workerMove, stands]
                dsimp only
                rw [owned]
                rfl
            | some holder =>
                have inside := (sound.mutex holder).mpr owned
                refine ⟨.worker holder, ?_⟩
                rw [move, workerMove]
                cases at_ : state.workers holder with
                | absent => rw [at_] at inside; cases inside
                | outside left => rw [at_] at inside; cases inside
                | _ => rfl
  · refine ⟨.parent, ?_⟩
    rw [move, parentMove, if_neg starts, if_neg joins, unread]
    rfl

/-! ## Any run -/

theorem Sound.step (sound : Sound update count times start state) (turn : Turn) :
    Sound update count times start (state.step update count times turn) := by
  rw [ForkJoin.step]
  cases moves : state.move update count times turn with
  | none => exact sound
  | some next => exact sound.moved (moved_of_move moves)

theorem Sound.run (sound : Sound update count times start state) (turns : List Turn) :
    Sound update count times start (run (ForkJoin.step update count times) state turns) :=
  invariant_of_step (Sound update count times start) (fun _ turn sound => sound.step turn) sound turns

/-- The steps that have been made and those that are left. -/
theorem Sound.remaining_run (sound : Sound update count times start state) (turns : List Turn) :
    (Foundation.run (ForkJoin.step update count times) state turns).remaining count times +
      used update count times state turns = state.remaining count times := by
  induction turns generalizing state with
  | nil => rfl
  | cons turn turns inductionHypothesis =>
      rw [Foundation.run, List.foldl_cons, used, ForkJoin.step]
      cases moves : state.move update count times turn with
      | none => exact inductionHypothesis sound
      | some next =>
          have moved := moved_of_move moves
          have rest := inductionHypothesis (sound.moved moved)
          have nearer := sound.remaining_moved moved
          rw [Foundation.run] at rest
          rw [Option.getD_some]
          dsimp only
          omega

end Sound

/-- The steps of a whole run. -/
theorem remaining_initial (start : Value) :
    (initial start).remaining count times = count * (4 * times + 1) + count + 1 := by
  rw [remaining, initial, Finset.range_zero, Finset.sum_empty, if_pos rfl, Nat.sub_zero, add_zero]

end ForkJoin

end Foundation
end CoreBank
