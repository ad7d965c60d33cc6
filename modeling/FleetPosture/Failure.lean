import FleetPosture.Text.Pieces

/-!
Why something failed: a message, and below it the messages of its causes, outermost first.
-/

namespace FleetPosture

structure Failure where
  message : String
  causes : List String
deriving DecidableEq, Repr

namespace Failure

def of (message : String) : Failure := ⟨message, []⟩

def during (activity : String) (f : Failure) : Failure := ⟨activity, f.message :: f.causes⟩

def full (f : Failure) : String := Text.join ": " (f.message :: f.causes)

end Failure

end FleetPosture
