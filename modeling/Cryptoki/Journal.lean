/-!
The journal: what the library reports of its work, in order.
-/
namespace Cryptoki

inductive Level where
  | debug
  | warn
  | error
  deriving DecidableEq, Repr

structure Note where
  level : Level
  text : String
  deriving DecidableEq, Repr

abbrev Journal := List Note

end Cryptoki
