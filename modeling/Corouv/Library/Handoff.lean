import Mathlib.Data.List.Basic

/-!
# First come, first served

What it means for a resource with a waiting line to be handed out in order.  A party
enters the line at its end, may leave it at any time, and is served at its front; nobody
is let past while there is a line.  The meaning of a sequence of such moves is the line
they leave, and a sequence in which somebody was overtaken has none.
-/

namespace Library

variable {ω : Type}

inductive Move (ω : Type) where
  | enter (party : ω)
  | leave (party : ω)
  | serve (party : ω)
  /-- Served without having been in the line. -/
  | pass
  deriving DecidableEq, Repr

namespace Handoff

variable [DecidableEq ω]

def next (line : List ω) : Move ω → Option (List ω)
  | .enter party => some (line ++ [party])
  | .leave party => some (line.erase party)
  | .serve party => if line.head? = some party then some line.tail else none
  | .pass => if line = [] then some [] else none

/-- The line after some moves, unless somebody was overtaken. -/
def run (moves : List (Move ω)) : Option (List ω) :=
  moves.foldlM next []

theorem run_concat {moves : List (Move ω)} {line : List ω} (ran : run moves = some line)
    (move : Move ω) : run (moves ++ [move]) = next line move := by
  rw [run] at ran
  simp [run, List.foldlM_append, ran]

end Handoff

end Library
