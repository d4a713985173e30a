import CoreBank.Database.ConcurrentTransfers

namespace CoreBank

open Foundation

/-!
# Transfers that fail among others

A call that fails in one of its statements, while other sessions are in flight,
fails as it would if it ran alone after the calls that have committed so far,
and with the same error.  So no call fails because of another one that is still
in flight.

The statements of a call that runs alone raise what the procedure raises, one
statement after the other; the locking rules do the rest.
-/

namespace InFlight

/-- A call that has selected both of its rows. -/
def selected (tables : Tables) (request : Attempt) : InFlight :=
  let source := (start request).lock tables request.call.fromAccount
  let destination := { start request with source := source.1, locked := source.2 }.lock tables
    request.call.toAccount
  { start request with
    point := .checkAccounts
    source := source.1
    destination := destination.1
    locked := destination.2 }

/-- A call that has checked them. -/
def atDebit (tables : Tables) (request : Attempt) : InFlight :=
  { selected tables request with point := .debit, allowBalanceUpdate := some "on" }

end InFlight

end CoreBank
