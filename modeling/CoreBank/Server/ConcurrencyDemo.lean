import CoreBank.Foundation.ForkJoin
import Mathlib.Data.Int.Cast.Lemmas

namespace CoreBank

open Foundation

/-!
# The counter demo

`main` starts a number of threads, each of which increments the global counter
a number of times under the mutex, and joins all of them before it prints what
it expects and what it finds.
-/

namespace ConcurrencyDemo

/-- `globalCounter++` on what has been read.  Where the sum does not fit the source
has no meaning at all, and this one wraps around. -/
def increment (globalCounter : Int32) : Int32 :=
  globalCounter + 1

/-- The program after some turns of its threads. -/
def after (numThreads incrementsPerThread : ℕ) (turns : List Turn) : ForkJoin Int32 :=
  run (ForkJoin.step increment numThreads incrementsPerThread) (ForkJoin.initial 0) turns

/-- The numbers of the source. -/
def main (turns : List Turn) : ForkJoin Int32 :=
  after 4 100000 turns

theorem iterate_increment (made : ℕ) : increment^[made] 0 = Int32.ofNat made := by
  induction made with
  | zero => rfl
  | succ made inductionHypothesis =>
      rw [Function.iterate_succ_apply', inductionHypothesis, increment, Int32.ofNat_add]
      rfl

/-- The increments that an `int` can count. -/
theorem toInt_iterate_increment {made : ℕ} (fits : made < 2 ^ 31) :
    (increment^[made] 0).toInt = made := by
  rw [iterate_increment, Int32.toInt_ofNat_of_lt fits]

theorem sound_after (numThreads incrementsPerThread : ℕ) (turns : List Turn) :
    ForkJoin.Sound increment numThreads incrementsPerThread 0
      (after numThreads incrementsPerThread turns) :=
  (ForkJoin.sound_initial 0).run turns

/-- No more increments are made than there are to make. -/
theorem exists_made (numThreads incrementsPerThread : ℕ) (turns : List Turn) :
    Exists fun made => (after numThreads incrementsPerThread turns).value = increment^[made] 0 ∧
      made + (Finset.range (after numThreads incrementsPerThread turns).started).sum
        (fun thread => ((after numThreads incrementsPerThread turns).workers thread).pending) =
          (after numThreads incrementsPerThread turns).started * incrementsPerThread ∧
      made ≤ numThreads * incrementsPerThread := by
  have sound := sound_after numThreads incrementsPerThread turns
  rcases sound.updates with ⟨made, value, total⟩
  refine ⟨made, value, total, ?_⟩
  calc
    made ≤ (after numThreads incrementsPerThread turns).started * incrementsPerThread := by omega
    _ ≤ numThreads * incrementsPerThread := Nat.mul_le_mul_right _ sound.started

/-- At any time one thread at most is between lock and unlock, and no increment
has been lost; what is printed is the product. -/
structure LosesNothing (numThreads incrementsPerThread : ℕ) (turns : List Turn) : Prop where
  exclusive : forall first second,
    ((after numThreads incrementsPerThread turns).workers first).inside = true ->
    ((after numThreads incrementsPerThread turns).workers second).inside = true -> first = second
  counted : (after numThreads incrementsPerThread turns).value.toInt +
    (Finset.range (after numThreads incrementsPerThread turns).started).sum
      (fun thread => ((after numThreads incrementsPerThread turns).workers thread).pending) =
    (after numThreads incrementsPerThread turns).started * incrementsPerThread
  printed : forall actual, (after numThreads incrementsPerThread turns).result = some actual ->
    actual.toInt = numThreads * incrementsPerThread

/-- Whatever the number of threads and however they take turns, if the counter
can hold all increments. -/
theorem losesNothing (numThreads incrementsPerThread : ℕ)
    (fits : numThreads * incrementsPerThread < 2 ^ 31) (turns : List Turn) :
    LosesNothing numThreads incrementsPerThread turns := by
  have sound := sound_after numThreads incrementsPerThread turns
  refine ⟨fun first second firstIn secondIn => sound.alone secondIn firstIn, ?_, ?_⟩
  · rcases exists_made numThreads incrementsPerThread turns with ⟨made, value, total, few⟩
    rw [value, toInt_iterate_increment (Nat.lt_of_le_of_lt few fits)]
    exact_mod_cast total
  · intro actual reads
    rw [sound.read reads, toInt_iterate_increment fits]
    exact Nat.cast_mul numThreads incrementsPerThread

/-- The numbers of the source, while two threads meet at the lock. -/
theorem losesNothing_main : LosesNothing 4 100000
    [.parent, .parent, .worker 0, .worker 1, .worker 0, .worker 1, .worker 0, .parent, .worker 1] :=
  losesNothing 4 100000 (by decide) _

/-- The length of a whole run. -/
def stepsOfRun (numThreads incrementsPerThread : ℕ) : ℕ :=
  numThreads * (4 * incrementsPerThread + 1) + numThreads + 1

/-- The turns that are used number at most so many, and exactly so many when the
program has printed; until then some thread can go on. -/
structure Ends (numThreads incrementsPerThread : ℕ) (turns : List Turn) : Prop where
  bounded : ForkJoin.used increment numThreads incrementsPerThread (ForkJoin.initial 0) turns ≤
    stepsOfRun numThreads incrementsPerThread
  printed : (after numThreads incrementsPerThread turns).result ≠ none ↔
    ForkJoin.used increment numThreads incrementsPerThread (ForkJoin.initial 0) turns =
      stepsOfRun numThreads incrementsPerThread
  moves : (after numThreads incrementsPerThread turns).result = none -> Exists fun turn =>
    ((after numThreads incrementsPerThread turns).move increment numThreads incrementsPerThread
      turn).isSome = true

/-- There is no deadlock, and every run in which the threads that can go on do so
comes to its end. -/
theorem comesToEnd (numThreads incrementsPerThread : ℕ) (turns : List Turn) :
    Ends numThreads incrementsPerThread turns := by
  have sound := sound_after numThreads incrementsPerThread turns
  have initially : ForkJoin.Sound increment numThreads incrementsPerThread 0 (ForkJoin.initial 0) :=
    ForkJoin.sound_initial 0
  have total := initially.remaining_run turns
  rw [ForkJoin.remaining_initial] at total
  change (after numThreads incrementsPerThread turns).remaining numThreads incrementsPerThread + _ =
    stepsOfRun numThreads incrementsPerThread at total
  refine ⟨by omega, ?_, sound.moves⟩
  rw [← sound.remaining_eq_zero_iff]
  omega

/-- A thread that has the lock keeps the other one out. -/
example : ((after 2 1 [.parent, .parent, .worker 0, .worker 1, .worker 0, .worker 1, .worker 0]).value,
    (after 2 1 [.parent, .parent, .worker 0, .worker 1]).workers 1) = (1, .outside 1) := by
  decide

end ConcurrencyDemo

end CoreBank
