import Mathlib.Data.List.Chain
import Stylesmith.Proofs.Minify.Settings

set_option autoImplicit false

namespace Stylesmith.Chunk

open Node (selectorCounts)

variable {α : Type} {max : Nat} {run : List (Node α)} {n : Node α}

/-- Comments, and then one node that has more selectors by itself than the budget allows. -/
def IsOversized (max : Nat) (run : List (Node α)) : Prop :=
  ∃ comments n, run = comments ++ [n] ∧ (∀ c ∈ comments, c.isComment = true) ∧
    max < n.selectorCount

def Fits (max : Nat) (run : List (Node α)) : Prop :=
  selectorCounts run ≤ max ∨ IsOversized max run

end Stylesmith.Chunk
