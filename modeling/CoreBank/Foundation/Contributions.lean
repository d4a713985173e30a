import CoreBank.Foundation.Histories
import Mathlib.Algebra.BigOperators.Group.Finset.Piecewise
import Mathlib.Algebra.Order.BigOperators.Group.List
import Mathlib.Algebra.Order.Group.Abs
import Mathlib.Tactic.Abel

namespace CoreBank
namespace Foundation

/-!
# What the replies add up to

When every reply tells, perhaps up to an error, by how much its request has
changed some quantity of the state, the replies together tell where the quantity
has come to.  Addition forgets the order, so nobody has to know in which order
the requests of different clients were served: each client adds up its own.
-/

variable {Client Request Reply State System Amount : Type*}

section Sums

variable [AddCommMonoid Amount] {contribution : Request -> Reply -> Amount}

variable [DecidableEq Client]

end Sums

section Distances

variable [AddCommGroup Amount] [LinearOrder Amount] [IsOrderedAddMonoid Amount]
  {serve : Request -> State -> Reply -> State -> Prop} {Invariant : State -> Prop}
  {measure : State -> Amount} {gain error : Request -> Reply -> Amount}

variable [DecidableEq Client] [Fintype Client] {view : View System Client Request Reply State}

end Distances

end Foundation
end CoreBank
