import CoreBank.Server.ClientCommands

namespace CoreBank

open Foundation

/-!
# Balances that a client reads

A client asks for a balance and takes the reply apart with the extraction
operators, as the handler does with a command.  What the handler prints it reads
back as a number with six significant digits; an error, or a balance that is not
a number, it does not take for a balance.
-/

/-! ## The client -/

section Replies

variable {work : DatabaseWork} {database : Database} {accId : ℤ}

end Replies

end CoreBank
