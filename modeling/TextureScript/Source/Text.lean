import TextureScript.Source.Span

/-!
# Script texts

A script text is a name and the lines of the script. Lines are what stands between newline
characters, so a text always has one line more than it has newlines, and the text is its lines
joined by newlines. Byte offsets are turned into positions through the table of line starts, which
is increasing and is searched by halving.
-/

namespace TextureScript

/-- The number of bytes that the characters take in UTF-8. -/
def byteLength (cs : List Char) : Nat :=
  cs.foldr (fun c length => c.utf8Size + length) 0

/-- The pieces of a text between its newline characters, in order; there is always at least one. -/
def splitLines (cs : List Char) : List (List Char) :=
  cs.foldr
    (fun c pieces =>
      if c = '\n' then [] :: pieces
      else
        match pieces with
        | [] => [[c]]
        | line :: rest => (c :: line) :: rest)
    [[]]

/-- The byte offset at which each line starts; a line is followed by one newline. -/
def lineStarts (lines : List (List Char)) : Array Nat :=
  (lines.foldl
    (fun (starts, offset) line => (starts.push offset, offset + byteLength line + 1))
    ((#[] : Array Nat), 0)).1

/-- The characters with every carriage return at their end removed. -/
def dropReturns (cs : List Char) : List Char :=
  (cs.reverse.dropWhile (· == '\r')).reverse

/-- A named script, with its lines laid out for quoting and for finding positions. -/
structure SourceText where
  /-- The name under which the script is reported. -/
  name : String
  /-- The script itself. -/
  content : String
  /-- The lines of the script, as they are quoted. -/
  lines : Array String := (splitLines content.toList).map (String.ofList ∘ dropReturns) |>.toArray
  /-- The byte offset at which each line starts. -/
  starts : Array Nat := lineStarts (splitLines content.toList)
  /-- The quoted lines are those of the script. -/
  lines_eq : lines = ((splitLines content.toList).map (String.ofList ∘ dropReturns)).toArray := by
    rfl
  /-- The offsets are those of the script's lines. -/
  starts_eq : starts = lineStarts (splitLines content.toList) := by rfl

namespace SourceText

/-- The text of a script with its name. -/
def ofString (name content : String) : SourceText :=
  { name, content }

/-- How many lines the text has. -/
def lineCount (source : SourceText) : Nat :=
  source.starts.size

/-- The quoted line with the given number, counted from one. -/
def line? (source : SourceText) (number : UInt32) : Option String :=
  if number = 0 then none else source.lines[number.toNat - 1]?

/-- The line with the given number, or nothing to quote where there is no such line. -/
def quote (source : SourceText) (number : UInt32) : String :=
  (source.line? number).getD ""

/-- The index below `high` of the last entry at most `offset`, looked for from `low` on, where the
entries increase and the one at `low` is at most `offset`. -/
def lastAtMost (starts : Array Nat) (offset low high : Nat) : Nat :=
  if h : low + 1 < high then
    let middle := (low + high) / 2
    if starts.getD middle 0 ≤ offset then lastAtMost starts offset middle high
    else lastAtMost starts offset low middle
  else low
termination_by high - low
decreasing_by all_goals omega

/-- The position of a byte offset; an offset beyond the text is taken to be its end. -/
def position (source : SourceText) (offset : Nat) : Position :=
  let offset := min offset source.content.utf8ByteSize
  let index := lastAtMost source.starts offset 0 source.starts.size
  ⟨UInt32.ofNat index + 1, UInt32.ofNat (offset - source.starts.getD index 0 + 1)⟩

/-- The span of the bytes from `start` up to but not including `stop`; an empty range still covers
the byte at `start`. -/
def span (source : SourceText) (start stop : Nat) : Span :=
  ⟨source.position start, source.position (max stop (start + 1) - 1)⟩

end SourceText

end TextureScript
