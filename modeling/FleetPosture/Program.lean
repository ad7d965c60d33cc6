/-!
Computations that depend on the world outside. A program ends with a value or makes a request and
goes on with the answer; whoever runs it decides what requests do. Several programs can be run
interleaved, one request at a time, in any order.
-/

namespace FleetPosture

variable {R : Type} {A : R → Type}

/-- A computation with requests in `R`, where `A r` is the type of the answers to `r`. -/
inductive Program (A : R → Type) (α : Type) : Type
  | done (value : α)
  | ask (request : R) (next : A request → Program A α)

namespace Program

variable {α β : Type}

def bind : Program A α → (α → Program A β) → Program A β
  | done a, f => f a
  | ask r next, f => ask r fun answer => (next answer).bind f

instance : Monad (Program A) where
  pure := done
  bind := bind

def request (r : R) : Program A (A r) := ask r done

def run {m : Type → Type} [Monad m] (handle : (r : R) → m (A r)) : Program A α → m α
  | done a => pure a
  | ask r next => do
    let answer ← handle r
    (next answer).run handle

/-- Runs programs side by side. The schedule names the program that moves next by its place among
those that have not ended: it makes one request, or ends. When the schedule is used up, the programs
that are left run one after the other. The values come in the order in which the programs end. -/
def interleave {m : Type → Type} [Monad m] (handle : (r : R) → m (A r)) :
    List Nat → List (Program A α) → m (List α)
  | [], programs => programs.mapM (run handle)
  | i :: schedule, programs =>
    match programs[i]? with
    | none => interleave handle schedule programs
    | some (done a) => do
      let values ← interleave handle schedule (programs.eraseIdx i)
      pure (a :: values)
    | some (ask r next) => do
      let answer ← handle r
      interleave handle schedule (programs.set i (next answer))

end Program
end FleetPosture
