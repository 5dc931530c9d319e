import Memorist.Text.Unicode

/-!
What the statements of the two stores share.

* `Store`: SQLite or PostgreSQL;
* `Timestamp`, `addSeconds`: times in UTC, read and written to the second;
* `like`: SQL's `LIKE`.
-/

namespace Memorist

/-- The two stores. -/
inductive Store where
  | sqlite
  | postgres
  deriving DecidableEq, Repr

/-- A time in UTC, in microseconds. -/
abbrev Timestamp : Type := ℕ

/-- A second. -/
def second : Timestamp := 1000000

/-- A time some seconds later, to the second. -/
def addSeconds (value : Timestamp) (seconds : ℕ) : Timestamp :=
  (value + seconds * second) / second * second

/-- SQLite's `text LIKE pattern`: `%` for any text, `_` for any character, ASCII letters of either
case. -/
def like : Text → Text → Bool
  | [], text => text.isEmpty
  | '%' :: pattern, text => text.tails.any (like pattern)
  | '_' :: _, [] => false
  | '_' :: pattern, _ :: text => like pattern text
  | _ :: _, [] => false
  | c :: pattern, d :: text => c.toLower == d.toLower && like pattern text

end Memorist
