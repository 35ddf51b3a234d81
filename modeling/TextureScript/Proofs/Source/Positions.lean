import TextureScript.Source.Text

/-!
# Positions of a text

The line starts of a text increase, so halving finds the line of an offset: the last one that starts
at the offset or before it. Later offsets have later positions, by line and then by column, and as
long as the text is short enough for lines and columns to be counted in 32 bits, every offset has a
position on one of the lines. So the span of any range of bytes is in order and lies on lines of the
text, and so does whatever is joined of such spans.
-/

namespace TextureScript

/-! ## The order of positions -/

namespace Position

theorem le_iff {p q : Position} :
    p.le q ↔ p.line < q.line ∨ (p.line = q.line ∧ p.column ≤ q.column) := by
  simp only [le, Bool.or_eq_true, Bool.and_eq_true, decide_eq_true_eq, beq_iff_eq]

theorem le_refl (p : Position) : p.le p :=
  le_iff.mpr (.inr ⟨rfl, UInt32.le_refl _⟩)

theorem le_trans {p q r : Position} (first : p.le q) (second : q.le r) : p.le r := by
  simp only [le_iff, UInt32.lt_iff_toNat_lt, UInt32.le_iff_toNat_le, ← UInt32.toNat_inj] at *
  omega

theorem le_total (p q : Position) : p.le q ∨ q.le p := by
  simp only [le_iff, UInt32.lt_iff_toNat_lt, UInt32.le_iff_toNat_le, ← UInt32.toNat_inj]
  omega

theorem line_le {p q : Position} (ordered : p.le q) : p.line.toNat ≤ q.line.toNat := by
  simp only [le_iff, UInt32.lt_iff_toNat_lt, ← UInt32.toNat_inj] at ordered
  omega

theorem least_cases (p q : Position) :
    (p.least q = p ∧ p.le q) ∨ (p.least q = q ∧ q.le p) := by
  unfold least
  by_cases ordered : p.le q
  · exact .inl ⟨if_pos ordered, ordered⟩
  · exact .inr ⟨if_neg ordered, (le_total p q).resolve_left ordered⟩

theorem greatest_cases (p q : Position) :
    (p.greatest q = q ∧ p.le q) ∨ (p.greatest q = p ∧ q.le p) := by
  unfold greatest
  by_cases ordered : p.le q
  · exact .inl ⟨if_pos ordered, ordered⟩
  · exact .inr ⟨if_neg ordered, (le_total p q).resolve_left ordered⟩

end Position

/-! ## Bytes and lines -/

theorem byteLength_cons (c : Char) (cs : List Char) :
    byteLength (c :: cs) = c.utf8Size + byteLength cs := rfl

theorem byteLength_eq_utf8ByteSize (cs : List Char) :
    byteLength cs = (String.ofList cs).utf8ByteSize := by
  induction cs with
  | nil => rfl
  | cons c cs ih =>
    have split : String.ofList (c :: cs) = String.singleton c ++ String.ofList cs := by
      rw [String.singleton_eq_ofList, ← String.ofList_append]
      rfl
    rw [split, String.utf8ByteSize_append, String.utf8ByteSize_singleton, ← ih, byteLength_cons]

theorem length_le_byteLength (cs : List Char) : cs.length ≤ byteLength cs := by
  induction cs with
  | nil => exact Nat.zero_le _
  | cons c cs ih =>
    have positive := c.utf8Size_pos
    rw [List.length_cons, byteLength_cons]
    omega

/-- There is a line, and there are at most as many newlines as characters. -/
theorem length_splitLines (cs : List Char) :
    1 ≤ (splitLines cs).length ∧ (splitLines cs).length ≤ cs.length + 1 := by
  induction cs with
  | nil => decide
  | cons c cs ih =>
    unfold splitLines at ih ⊢
    rw [List.foldr_cons]
    generalize List.foldr _ [[]] cs = pieces at ih ⊢
    by_cases newline : c = '\n'
    · rw [if_pos newline, List.length_cons, List.length_cons]
      omega
    · rw [if_neg newline]
      cases pieces with
      | nil => exact absurd ih.1 (by decide)
      | cons line rest =>
        simp only [List.length_cons] at ih ⊢
        omega

/-- The offsets at which lines start, the first of them at a given one. -/
def startsFrom (offset : Nat) : List (List Char) → List Nat
  | [] => []
  | line :: lines => offset :: startsFrom (offset + byteLength line + 1) lines

theorem toList_lineStarts (lines : List (List Char)) :
    (lineStarts lines).toList = startsFrom 0 lines := by
  have along : ∀ (lines : List (List Char)) (starts : Array Nat) (offset : Nat),
      (lines.foldl (fun found line =>
        (found.1.push found.2, found.2 + byteLength line + 1)) (starts, offset)).1.toList =
          starts.toList ++ startsFrom offset lines := by
    intro lines
    induction lines with
    | nil => simp [startsFrom]
    | cons line lines ih =>
      intro starts offset
      rw [List.foldl_cons, ih, startsFrom, Array.toList_push, List.append_assoc]
      rfl
  exact along lines #[] 0

theorem le_of_mem_startsFrom {offset start : Nat} {lines : List (List Char)}
    (member : start ∈ startsFrom offset lines) : offset ≤ start := by
  induction lines generalizing offset with
  | nil => cases member
  | cons line lines ih =>
    rcases List.mem_cons.mp member with same | later
    · omega
    · have := ih later
      omega

/-- Lines start one after the other. -/
theorem startsFrom_increasing (offset : Nat) (lines : List (List Char)) :
    (startsFrom offset lines).Pairwise (· < ·) := by
  induction lines generalizing offset with
  | nil => exact .nil
  | cons line lines ih =>
    refine .cons (fun start later => ?_) (ih _)
    have := le_of_mem_startsFrom later
    omega

theorem length_startsFrom (offset : Nat) (lines : List (List Char)) :
    (startsFrom offset lines).length = lines.length := by
  induction lines generalizing offset with
  | nil => rfl
  | cons line lines ih => rw [startsFrom, List.length_cons, List.length_cons, ih]

namespace SourceText

variable (source : SourceText)

theorem toList_starts : source.starts.toList = startsFrom 0 (splitLines source.content.toList) := by
  rw [source.starts_eq, toList_lineStarts]

theorem lineCount_eq : source.lineCount = (splitLines source.content.toList).length := by
  rw [lineCount, ← Array.length_toList, toList_starts, length_startsFrom]

theorem size_lines : source.lines.size = source.lineCount := by
  rw [lineCount_eq, source.lines_eq, List.size_toArray, List.length_map]

/-- A text has a line, and at most one line more than it has bytes. -/
theorem lineCount_bounds :
    1 ≤ source.lineCount ∧ source.lineCount ≤ source.content.utf8ByteSize + 1 := by
  have lines := length_splitLines source.content.toList
  have bytes := length_le_byteLength source.content.toList
  rw [byteLength_eq_utf8ByteSize, String.ofList_toList] at bytes
  rw [lineCount_eq]
  omega

theorem starts_getD (index : Nat) :
    source.starts.getD index 0 = (source.starts.toList[index]?).getD 0 := by
  rw [Array.getD_eq_getD_getElem?, Array.getElem?_toList]

/-- The first line starts at the beginning. -/
theorem starts_zero : source.starts.getD 0 0 = 0 := by
  rw [starts_getD, toList_starts]
  cases splitLines source.content.toList with
  | nil => rfl
  | cons line lines => rfl

theorem starts_le {first second : Nat} (ordered : first ≤ second)
    (inside : second < source.lineCount) :
    source.starts.getD first 0 ≤ source.starts.getD second 0 := by
  have increasing := startsFrom_increasing 0 (splitLines source.content.toList)
  rw [← toList_starts] at increasing
  have within : second < source.starts.toList.length := inside
  rcases Nat.lt_or_eq_of_le ordered with less | same
  · have entries := List.pairwise_iff_getElem.mp increasing first second (by omega) within less
    rw [starts_getD, starts_getD, List.getElem?_eq_getElem (by omega),
      List.getElem?_eq_getElem within]
    exact Nat.le_of_lt entries
  · exact Nat.le_of_eq (by rw [same])

/-- What halving looks for lies between two entries, of which the first is at most the offset and
the second, if there is one, above it. -/
theorem lastAtMost_spec {starts : Array Nat} {offset low high : Nat} (room : low < high)
    (inside : high ≤ starts.size) (below : starts.getD low 0 ≤ offset)
    (above : high < starts.size → offset < starts.getD high 0) :
    lastAtMost starts offset low high < high ∧
      starts.getD (lastAtMost starts offset low high) 0 ≤ offset ∧
      (lastAtMost starts offset low high + 1 < starts.size →
        offset < starts.getD (lastAtMost starts offset low high + 1) 0) := by
  fun_induction lastAtMost starts offset low high with
  | case1 low high wide middle atMost ih =>
    exact ih (by omega) inside atMost above
  | case2 low high wide middle atMost ih =>
    have found := ih (by omega) (by omega) below fun _ => by omega
    exact ⟨by omega, found.2⟩
  | case3 low high narrow =>
    obtain rfl : high = low + 1 := by omega
    exact ⟨room, below, above⟩

/-- The number of the line that an offset is on, counted from zero. -/
def lineOf (offset : Nat) : Nat :=
  lastAtMost source.starts (min offset source.content.utf8ByteSize) 0 source.starts.size

/-- An offset is on the last line that starts at it or before it. -/
theorem lineOf_spec (offset : Nat) :
    source.lineOf offset < source.lineCount ∧
      source.starts.getD (source.lineOf offset) 0 ≤ min offset source.content.utf8ByteSize ∧
      (source.lineOf offset + 1 < source.lineCount →
        min offset source.content.utf8ByteSize <
          source.starts.getD (source.lineOf offset + 1) 0) := by
  apply lastAtMost_spec
  · exact source.lineCount_bounds.1
  · exact Nat.le_refl _
  · rw [starts_zero]
    exact Nat.zero_le _
  · exact fun beyond => absurd beyond (Nat.lt_irrefl _)

/-- Later offsets are on later lines. -/
theorem lineOf_mono {first second : Nat} (ordered : first ≤ second) :
    source.lineOf first ≤ source.lineOf second := by
  obtain ⟨inside, reached, -⟩ := source.lineOf_spec first
  obtain ⟨-, -, passed⟩ := source.lineOf_spec second
  apply Nat.le_of_not_lt
  intro later
  have starts : source.starts.getD (source.lineOf second + 1) 0 ≤
      source.starts.getD (source.lineOf first) 0 := source.starts_le later inside
  have beyond := passed (Nat.lt_of_le_of_lt later inside)
  omega

variable {source}
variable (short : source.content.utf8ByteSize < 4294967295)
include short

theorem line_position (offset : Nat) :
    (source.position offset).line.toNat = source.lineOf offset + 1 := by
  obtain ⟨inside, -, -⟩ := source.lineOf_spec offset
  have count := source.lineCount_bounds.2
  have narrow : source.lineOf offset + 1 < 4294967296 := by omega
  change (UInt32.ofNat (source.lineOf offset) + 1).toNat = _
  rw [UInt32.toNat_add, UInt32.toNat_ofNat_of_lt' (by simp only [UInt32.size]; omega)]
  exact Nat.mod_eq_of_lt narrow

theorem column_position (offset : Nat) :
    (source.position offset).column.toNat =
      min offset source.content.utf8ByteSize - source.starts.getD (source.lineOf offset) 0 + 1 := by
  change (UInt32.ofNat _).toNat = _
  rw [UInt32.toNat_ofNat_of_lt' (by simp only [UInt32.size]; omega)]
  rfl

/-- Later offsets have later positions. -/
theorem position_mono {first second : Nat} (ordered : first ≤ second) :
    (source.position first).le (source.position second) := by
  have lines := source.lineOf_mono ordered
  rw [Position.le_iff, UInt32.lt_iff_toNat_lt, UInt32.le_iff_toNat_le, ← UInt32.toNat_inj,
    line_position short, line_position short, column_position short, column_position short]
  rcases Nat.lt_or_eq_of_le lines with less | same
  · exact .inl (by omega)
  · rw [same]
    exact .inr ⟨rfl, by omega⟩

end SourceText

/-! ## Spans on a text -/

/-- A span is in order and lies on lines of a text. -/
structure SourceText.Places (source : SourceText) (span : Span) : Prop where
  /-- The start is not after the end. -/
  ordered : span.start.le span.stop
  /-- Lines are counted from one. -/
  first : 1 ≤ span.start.line.toNat
  /-- The end is on a line. -/
  last : span.stop.line.toNat ≤ source.lineCount

namespace SourceText.Places

variable {source : SourceText}

/-- The span of any range of bytes. -/
theorem ofRange (short : source.content.utf8ByteSize < 4294967295) (start stop : Nat) :
    source.Places (source.span start stop) where
  ordered := position_mono short (by omega)
  first := by
    change 1 ≤ (source.position start).line.toNat
    rw [line_position short]
    omega
  last := by
    change (source.position (max stop (start + 1) - 1)).line.toNat ≤ _
    rw [line_position short]
    exact (source.lineOf_spec _).1

/-- Joined spans. -/
theorem merge {first second : Span} (here : source.Places first) (there : source.Places second) :
    source.Places (first.merge second) := by
  have begins : (first.start.least second.start).le first.start ∧
      1 ≤ (first.start.least second.start).line.toNat := by
    rcases Position.least_cases first.start second.start with ⟨least, _⟩ | ⟨least, less⟩
    · rw [least]
      exact ⟨Position.le_refl _, here.first⟩
    · rw [least]
      exact ⟨less, there.first⟩
  have ends : first.stop.le (first.stop.greatest second.stop) ∧
      (first.stop.greatest second.stop).line.toNat ≤ source.lineCount := by
    rcases Position.greatest_cases first.stop second.stop with ⟨greatest, less⟩ | ⟨greatest, _⟩
    · rw [greatest]
      exact ⟨less, there.last⟩
    · rw [greatest]
      exact ⟨Position.le_refl _, here.last⟩
  exact ⟨Position.le_trans begins.1 (Position.le_trans here.ordered ends.1), begins.2, ends.2⟩

/-- The line on which such a span begins can be quoted. -/
theorem line?_eq_quote {span : Span} (placed : source.Places span) :
    source.line? span.start.line = some (source.quote span.start.line) := by
  have lines := Position.line_le placed.ordered
  have first := placed.first
  have last := placed.last
  have nonzero : span.start.line ≠ 0 := by
    intro zero
    rw [zero] at first
    exact absurd first (by decide)
  have inside : span.start.line.toNat - 1 < source.lines.size := by
    rw [source.size_lines]
    omega
  have there : source.line? span.start.line = some source.lines[span.start.line.toNat - 1] := by
    rw [line?, if_neg nonzero, Array.getElem?_eq_getElem inside]
  rw [quote, there, Option.getD_some]

end SourceText.Places

end TextureScript
