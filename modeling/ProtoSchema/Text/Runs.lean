/-!
# Sets of code points

A character property is a set of code points, written as runs in ascending
order. A run takes every `step`-th code point from `first` to `last`, so that
scripts which alternate between capital and small letters need one run each.
-/

namespace ProtoSchema.Text

/-- Every `step`-th code point from `first` to `last`. -/
structure Run where
  first : Nat
  last : Nat
  step : Nat

def Run.contains (r : Run) (n : Nat) : Bool :=
  r.first ≤ n && n ≤ r.last && (n - r.first) % r.step == 0

/-- Membership in ascending runs: the search ends at the first run beyond `n`. -/
def inRuns (n : Nat) : List Run → Bool
  | [] => false
  | r :: rest => if n < r.first then false else r.contains n || inRuns n rest

/-- A run whose code points all move by the same distance. -/
structure Shift extends Run where
  delta : Int

/-- The code point that `n` moves to; without a shift for it, `n` itself. -/
def shifted (n : Nat) : List Shift → Nat
  | [] => n
  | s :: rest =>
    if n < s.first then n
    else if s.toRun.contains n then (n + s.delta).toNat
    else shifted n rest

end ProtoSchema.Text
