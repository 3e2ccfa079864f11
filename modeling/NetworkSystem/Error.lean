/-!
# Errors of the network system

`src/error/mod.rs`. The texts that the Rust code formats are kept as strings; an I/O error that is
wrapped stands for its own text.
-/

namespace NetworkSystem

inductive NetworkError where
  | io (msg : String)
  | connection (msg : String)
  | timeout (msg : String)
  | serialization (msg : String)
  | invalidState (msg : String)
  | invalidAddress (msg : String)
  | messageTooLarge (size max : Nat)
  | channel (msg : String)
  | tls (msg : String)
  | other (msg : String)
  deriving Repr, DecidableEq

end NetworkSystem
