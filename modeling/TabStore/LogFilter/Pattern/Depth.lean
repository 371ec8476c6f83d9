
/-!
# Depth of a pattern

Of a part that has been read its depth is kept and nothing else, since only whether a pattern is
well formed matters.
-/

namespace TabStore.LogFilter.Pattern

/-- The depth of parts in a row, or of rows that are alternatives: one alone adds nothing. -/
def jointDepth : List Nat → Nat
  | [] => 0
  | [depth] => depth
  | depths => depths.foldl max 0 + 1

/-- How deep a pattern may nest. -/
def depthLimit : Nat := 250

end TabStore.LogFilter.Pattern
