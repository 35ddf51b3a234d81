/-!
# Places in a script

A position is a line and a column, both counted from one; a column counts the bytes before it on
its line. A span is the closed range between two positions. Positions are ordered by line and then
by column, and joining two spans takes the least start and the greatest end in that order.
-/

namespace TextureScript

/-- A line and a byte column of a script, both counted from one. -/
structure Position where
  /-- Line number, the first line being one. -/
  line : UInt32
  /-- Byte column, the first byte of a line being one. -/
  column : UInt32
deriving DecidableEq, Repr, Inhabited

namespace Position

/-- Positions are compared by line, and by column on one line. -/
def le (p q : Position) : Bool :=
  p.line < q.line || (p.line == q.line && p.column ≤ q.column)

/-- The earlier of two positions. -/
def least (p q : Position) : Position :=
  if p.le q then p else q

/-- The later of two positions. -/
def greatest (p q : Position) : Position :=
  if p.le q then q else p

end Position

/-- The closed range of a script from one position to another. -/
structure Span where
  /-- Where the range begins. -/
  start : Position
  /-- The last position inside the range. -/
  stop : Position
deriving DecidableEq, Repr, Inhabited

namespace Span

/-- The span of the single position at the given line and column. -/
def point (line column : UInt32) : Span :=
  ⟨⟨line, column⟩, ⟨line, column⟩⟩

/-- The smallest span that covers both spans. -/
def merge (a b : Span) : Span :=
  ⟨a.start.least b.start, a.stop.greatest b.stop⟩

/-- A span is shown by where it begins, as line and column. -/
def render (s : Span) : String :=
  s!"{s.start.line}:{s.start.column}"

end Span

end TextureScript
