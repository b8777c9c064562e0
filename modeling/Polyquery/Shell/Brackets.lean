/-!
# Closed Brackets

A query may be typed over several lines. It is taken to be complete at the end
of a line where no bracket is open any more. Brackets inside strings do not
count, and a backslash inside a string keeps the next character from ending
it.

## Main definitions

* `Shell.Scan`: What has been seen of a text.
* `Shell.isComplete`: Whether no bracket of a text is open.
-/

namespace Polyquery.Shell

/-- What has been seen of a text. -/
structure Scan where
  /-- The number of open brackets; closing brackets that close nothing count below zero. -/
  depth : Int
  inString : Bool
  /-- Whether a backslash stands before the next character. -/
  escaped : Bool
  deriving Repr, DecidableEq

/-- Nothing has been seen. -/
def Scan.start : Scan :=
  ⟨0, false, false⟩

/-- What has been seen after one more character. -/
def Scan.next (scan : Scan) (c : Char) : Scan :=
  if scan.escaped then { scan with escaped := false }
  else if scan.inString then
    if c = '\\' then { scan with escaped := true }
    else if c = '"' then { scan with inString := false }
    else scan
  else if c = '"' then { scan with inString := true }
  else if c = '\x7b' ∨ c = '[' then { scan with depth := scan.depth + 1 }
  else if c = '\x7d' ∨ c = ']' then { scan with depth := scan.depth - 1 }
  else scan

/-- What has been seen after a text. -/
def Scan.over (scan : Scan) (cs : List Char) : Scan :=
  cs.foldl Scan.next scan

/-- Whether no bracket of a text is open. -/
def isComplete (text : String) : Bool :=
  (Scan.start.over text.toList).depth ≤ 0

end Polyquery.Shell
