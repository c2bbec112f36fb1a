/-
Several contexts on one native layer, one scheduler and one log.

An operation works on one of the contexts at a time: the context is put on a bench with what all of
them share (`SharedBench.focus`), and afterwards put back (`SharedBench.settle`). The other contexts
are not on that bench, so the operation cannot reach them.
-/
import EdgeWait.Bench

namespace EdgeWait

/-- Contexts, and what they share. -/
structure SharedBench (N T σ η : Type) where
  contexts : Array (Mux σ η)
  native : N
  scheduler : T
  log : Log := #[]

namespace SharedBench

variable {N T σ η ε α : Type}

/-- A bench with one of the contexts. -/
def focus (s : SharedBench N T σ η) (mux : Mux σ η) : Bench N T σ η :=
  { mux, native := s.native, scheduler := s.scheduler, log := s.log }

/-- Takes over what an operation on one context has left. -/
def settle (s : SharedBench N T σ η) (i : Nat) (b : Bench N T σ η) : SharedBench N T σ η where
  contexts := s.contexts.setIfInBounds i b.mux
  native := b.native
  scheduler := b.scheduler
  log := b.log

/-- Performs an operation on one of the contexts. Answers nothing when there is no such context. -/
def perform (s : SharedBench N T σ η) (i : Nat)
    (operation : Bench N T σ η → Outcome ε (Bench N T σ η) α) :
    Option (Outcome ε (SharedBench N T σ η) α) :=
  s.contexts[i]?.map fun mux => (operation (s.focus mux)).mapState (s.settle i)

end SharedBench

end EdgeWait
