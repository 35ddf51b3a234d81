/-!
# Edit distance and near names

The edit distance of two texts is the least number of characters to insert, delete or replace that
turns one into the other. It is computed row by row: the row for a start of the first text holds its
distance to every start of the second. The nearest of some names, if it is near enough, is what a
misspelled name is taken to mean.
-/

namespace TextureScript

namespace EditDistance

/-- The entries of a row after the first, given the entry to the left and the one above that. -/
def rowFrom (c : Char) (left diagonal : Nat) : List Char → List Nat → List Nat
  | d :: text, above :: row =>
    let next := min (min (left + 1) (above + 1)) (diagonal + if c = d then 0 else 1)
    next :: rowFrom c next above text row
  | _, _ => []

/-- The row after one more character `c` of the first text, from the row before it. -/
def nextRow (text : List Char) (row : List Nat) (c : Char) : List Nat :=
  match row with
  | [] => []
  | first :: row => (first + 1) :: rowFrom c (first + 1) first text row

/-- The last row of the table for two texts. -/
def lastRow (s t : List Char) : List Nat :=
  s.foldl (nextRow t) (List.range (t.length + 1))

end EditDistance

/-- The least number of single-character edits between two texts. -/
def editDistance (s t : String) : Nat :=
  (EditDistance.lastRow s.toList t.toList).getLast?.getD 0

namespace NearName

/-- How far a name may be from what was written: a third of its characters, at least one and at
most three. -/
def tolerance (query : String) : Nat :=
  min (max (query.length / 3) 1) 3

/-- The nearer of the best candidate so far and another one; the earlier wins a tie. -/
def nearer (best : Option (Nat × String)) (candidate : Nat × String) : Option (Nat × String) :=
  match best with
  | none => some candidate
  | some best => if candidate.1 < best.1 then some candidate else some best

end NearName

/-- The first of the candidates nearest to what was written that differ from it and are near
enough. -/
def nearestName (query : String) (candidates : List String) : Option String :=
  let others := candidates.filter (· != query)
  let measured := others.map fun candidate => (editDistance query candidate, candidate)
  let near := measured.filter (·.1 ≤ NearName.tolerance query)
  (near.foldl NearName.nearer none).map (·.2)

/-- The advice to use the nearest name. -/
def didYouMean (query : String) (candidates : List String) : Option String :=
  (nearestName query candidates).map fun name => s!"did you mean '{name}'?"

end TextureScript
