/-!
# Statistics of a pass

Five counters that say what became of the directives a pass has met. The books of a finished pass are
balanced.
-/

namespace DirectiveLowering

/-- Counters of one pass (`TransformStats`). -/
structure Stats where
  /-- Directives met. -/
  visited : Int := 0
  /-- Directives lowered to elements. -/
  transformed : Int := 0
  /-- Directives left alone because another pass had lowered them. -/
  skipped : Int := 0
  /-- Directives that the filter rejected. -/
  filtered : Int := 0
  /-- Labels handed to the label handler. -/
  labels : Int := 0
deriving DecidableEq, Repr, Inhabited

namespace Stats

/-- One line that sums the counters up (`summary_make`). -/
def summary (s : Stats) : String :=
  toString s.transformed ++ "/" ++ toString s.visited ++ " directives transformed (" ++
    toString s.skipped ++ " skipped, " ++ toString s.filtered ++ " filtered, " ++
    toString s.labels ++ " labels)"

/-- Every directive met is accounted for, and there are no more labels than lowered directives. -/
def Balanced (s : Stats) : Prop :=
  s.visited = s.transformed + s.skipped + s.filtered ∧ s.labels ≤ s.transformed

/-- Counts a directive met. -/
def visit (s : Stats) : Stats := { s with visited := s.visited + 1 }

/-- Counts a lowered directive. -/
def transform (s : Stats) : Stats := { s with transformed := s.transformed + 1 }

/-- Counts a directive left alone. -/
def skip (s : Stats) : Stats := { s with skipped := s.skipped + 1 }

/-- Counts a rejected directive. -/
def reject (s : Stats) : Stats := { s with filtered := s.filtered + 1 }

/-- Counts a label handed on. -/
def label (s : Stats) : Stats := { s with labels := s.labels + 1 }

end Stats

end DirectiveLowering
