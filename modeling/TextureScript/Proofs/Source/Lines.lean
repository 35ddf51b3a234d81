import TextureScript.Proofs.Source.Slices

/-!
# Positions and lines are exact

The bytes of a text tell its lines: a newline is a byte that is part of no other character, a line
starts at the beginning of the text or right behind a newline, and its number counts the newlines
before it. The table of line starts agrees with that, as the text before a line is its predecessors,
each closed by a newline. An offset lies on the last line that starts at it or before it, so there
is no newline between the start of the line and the offset. A position therefore says exactly where
an offset is, and the lines that are quoted are those between the newlines.
-/

namespace TextureScript

/-! ## Newlines among bytes -/

/-- The byte of a newline. -/
def newlineByte : UInt8 := 10

/-- The bytes of characters in UTF-8. -/
def utf8Bytes (cs : List Char) : List UInt8 :=
  cs.flatMap String.utf8EncodeChar

theorem utf8Bytes_cons (c : Char) (cs : List Char) :
    utf8Bytes (c :: cs) = String.utf8EncodeChar c ++ utf8Bytes cs :=
  rfl

theorem utf8Bytes_append (cs ds : List Char) :
    utf8Bytes (cs ++ ds) = utf8Bytes cs ++ utf8Bytes ds :=
  List.flatMap_append

theorem utf8Bytes_newline : utf8Bytes ['\n'] = [newlineByte] := by
  decide

theorem byteLength_newline : byteLength ['\n'] = 1 := by
  decide

theorem length_utf8Bytes (cs : List Char) : (utf8Bytes cs).length = byteLength cs := by
  induction cs with
  | nil => rfl
  | cons c cs ih =>
    rw [utf8Bytes_cons, List.length_append, String.length_utf8EncodeChar, ih, byteLength_cons]

/-- A newline is not among the bytes of other characters. -/
theorem newlineByte_not_mem {c : Char} (other : c ≠ '\n') :
    newlineByte ∉ String.utf8EncodeChar c := by
  -- the bytes of a character that takes more than one byte are all above those that stand alone
  have high (value : Nat) (above : 128 ≤ value) (below : value < 256) :
      newlineByte ≠ UInt8.ofNat value := by
    intro same
    have values := congrArg UInt8.toNat same
    rw [UInt8.toNat_ofNat_of_lt' below] at values
    exact absurd (values ▸ above) (by decide)
  fun_cases String.utf8EncodeChar c with
  | case1 value alone =>
    intro member
    have same := congrArg UInt8.toNat (List.mem_singleton.mp member)
    rw [UInt8.toNat_ofNat_of_lt' (Nat.lt_of_le_of_lt alone (by decide))] at same
    exact other (Char.ext (UInt32.toNat_inj.mp same.symm))
  | case2 =>
    simp only [List.mem_cons, List.not_mem_nil, or_false, not_or]
    exact ⟨high _ (by omega) (by omega), high _ (by omega) (by omega)⟩
  | case3 =>
    simp only [List.mem_cons, List.not_mem_nil, or_false, not_or]
    exact ⟨high _ (by omega) (by omega), high _ (by omega) (by omega), high _ (by omega) (by omega)⟩
  | case4 =>
    simp only [List.mem_cons, List.not_mem_nil, or_false, not_or]
    exact ⟨high _ (by omega) (by omega), high _ (by omega) (by omega),
      high _ (by omega) (by omega), high _ (by omega) (by omega)⟩

/-- There are as many newlines among the bytes as among the characters. -/
theorem count_utf8Bytes (cs : List Char) : (utf8Bytes cs).count newlineByte = cs.count '\n' := by
  induction cs with
  | nil => rfl
  | cons c cs ih =>
    rw [utf8Bytes_cons, List.count_append, ih]
    by_cases newline : c = '\n'
    · subst newline
      have one : (String.utf8EncodeChar '\n').count newlineByte = 1 := by decide
      rw [one, List.count_cons_self, Nat.add_comm]
    · rw [List.count_eq_zero.mpr (newlineByte_not_mem newline), List.count_cons_of_ne newline,
        Nat.zero_add]

theorem newlineByte_mem_utf8Bytes {cs : List Char} : newlineByte ∈ utf8Bytes cs ↔ '\n' ∈ cs := by
  rw [← List.count_pos_iff, ← List.count_pos_iff, count_utf8Bytes]

/-! ## Lines closed by newlines -/

theorem splitLines_cons (c : Char) (cs : List Char) :
    splitLines (c :: cs) =
      if c = '\n' then [] :: splitLines cs else (splitLines cs).modifyHead (List.cons c) := by
  have some := (length_splitLines cs).1
  cases shape : splitLines cs with
  | nil =>
    rw [shape] at some
    exact absurd some (by decide)
  | cons line rest =>
    rw [splitLines] at shape ⊢
    rw [List.foldr_cons, shape]
    rfl

/-- The lines of a text are what it is split into at its newlines. -/
theorem splitLines_eq_splitOn (cs : List Char) : splitLines cs = cs.splitOn '\n' := by
  induction cs with
  | nil => rfl
  | cons c cs ih =>
    rw [splitLines_cons, List.splitOn_cons_eq_if_modifyHead, ih]
    simp only [beq_iff_eq]

theorem newline_not_mem_splitLines {cs line : List Char} (member : line ∈ splitLines cs) :
    '\n' ∉ line := by
  induction cs generalizing line with
  | nil =>
    rw [List.mem_singleton.mp member]
    exact List.not_mem_nil
  | cons c cs ih =>
    rw [splitLines_cons] at member
    by_cases newline : c = '\n'
    · rw [if_pos newline] at member
      rcases List.mem_cons.mp member with rfl | later
      · exact List.not_mem_nil
      · exact ih later
    · rw [if_neg newline] at member
      cases shape : splitLines cs with
      | nil =>
        rw [shape] at member
        cases member
      | cons first rest =>
        rw [shape] at ih member
        rcases List.mem_cons.mp member with rfl | later
        · rw [List.mem_cons, not_or]
          exact ⟨Ne.symm newline, ih List.mem_cons_self⟩
        · exact ih (List.mem_cons_of_mem first later)

/-- Lines one after the other, each closed by a newline. -/
def closedLines (lines : List (List Char)) : List Char :=
  lines.flatMap (· ++ ['\n'])

theorem closedLines_cons (line : List Char) (lines : List (List Char)) :
    closedLines (line :: lines) = line ++ ['\n'] ++ closedLines lines :=
  rfl

theorem closedLines_concat (lines : List (List Char)) (line : List Char) :
    closedLines (lines ++ [line]) = closedLines lines ++ line ++ ['\n'] := by
  simp [closedLines]

theorem count_closedLines {lines : List (List Char)} (single : ∀ line ∈ lines, '\n' ∉ line) :
    (closedLines lines).count '\n' = lines.length := by
  induction lines with
  | nil => rfl
  | cons line lines ih =>
    obtain ⟨here, later⟩ := List.forall_mem_cons.mp single
    rw [closedLines_cons, List.count_append, List.count_append, List.count_eq_zero.mpr here, ih later,
      List.count_singleton_self, List.length_cons]
    omega

/-- A text is its first lines, closed by newlines, and then the others. -/
theorem intercalate_eq_append {lines : List (List Char)} {index : Nat}
    (inside : index < lines.length) :
    ['\n'].intercalate lines =
      closedLines (lines.take index) ++ ['\n'].intercalate (lines.drop index) := by
  induction lines generalizing index with
  | nil => exact absurd inside (Nat.not_lt_zero _)
  | cons line lines ih =>
    cases index with
    | zero => rfl
    | succ index =>
      have shorter : index < lines.length := Nat.lt_of_succ_lt_succ inside
      have others : lines ≠ [] := List.ne_nil_of_length_pos (Nat.zero_lt_of_lt shorter)
      rw [List.intercalate_cons_of_ne_nil others, ih shorter, List.take_succ_cons,
        closedLines_cons, List.drop_succ_cons, List.append_assoc (line ++ ['\n'])]

theorem getElem?_startsFrom (offset : Nat) {lines : List (List Char)} {index : Nat}
    (inside : index < lines.length) :
    (startsFrom offset lines)[index]? =
      some (offset + byteLength (closedLines (lines.take index))) := by
  induction lines generalizing offset index with
  | nil => exact absurd inside (Nat.not_lt_zero _)
  | cons line lines ih =>
    cases index with
    | zero => rfl
    | succ index =>
      rw [startsFrom, List.getElem?_cons_succ, ih _ (Nat.lt_of_succ_lt_succ inside),
        List.take_succ_cons, closedLines_cons, byteLength_append, byteLength_append,
        byteLength_newline]
      simp only [Nat.add_assoc]

namespace SourceText

variable (source : SourceText)

/-- The bytes of a text. -/
def bytes : List UInt8 :=
  source.content.toUTF8.data.toList

theorem bytes_eq_utf8Bytes : source.bytes = utf8Bytes source.content.toList := by
  rw [bytes, String.toUTF8_eq_toByteArray, ← String.utf8Encode_toList, List.utf8Encode,
    List.toList_data_toByteArray]
  rfl

/-- The text before the line with the given number, counted from zero. -/
def textBefore (index : Nat) : List Char :=
  closedLines ((splitLines source.content.toList).take index)

variable {source}

theorem getElem?_starts {index : Nat} (inside : index < source.lineCount) :
    source.starts[index]? = some (byteLength (source.textBefore index)) := by
  rw [lineCount_eq] at inside
  rw [← Array.getElem?_toList, toList_starts, getElem?_startsFrom 0 inside, Nat.zero_add]
  rfl

theorem starts_getD_eq {index : Nat} (inside : index < source.lineCount) :
    source.starts.getD index 0 = byteLength (source.textBefore index) := by
  rw [Array.getD_eq_getD_getElem?, getElem?_starts inside, Option.getD_some]

theorem textBefore_succ {index : Nat} {line : List Char}
    (found : (splitLines source.content.toList)[index]? = some line) :
    source.textBefore (index + 1) = source.textBefore index ++ line ++ ['\n'] := by
  rw [textBefore, textBefore, List.take_add_one, found, Option.toList_some, closedLines_concat]

theorem count_textBefore {index : Nat} (inside : index < source.lineCount) :
    (source.textBefore index).count '\n' = index := by
  rw [lineCount_eq] at inside
  rw [textBefore, count_closedLines, List.length_take]
  · omega
  · intro line member
    exact newline_not_mem_splitLines (List.mem_of_mem_take member)

/-- A line stands between the text before it and what follows, which is nothing for the last
line. -/
theorem exists_line {index : Nat} (inside : index < source.lineCount) :
    ∃ line after, (splitLines source.content.toList)[index]? = some line ∧
      source.content.toList = source.textBefore index ++ line ++ after ∧
      (index + 1 = source.lineCount → after = []) := by
  have count := source.lineCount_eq
  have within : index < (splitLines source.content.toList).length := by omega
  have joined : ['\n'].intercalate (splitLines source.content.toList) = source.content.toList := by
    rw [splitLines_eq_splitOn, List.intercalate_splitOn]
  have whole := intercalate_eq_append within
  have shape := List.drop_eq_getElem_cons within
  rw [joined, shape] at whole
  refine ⟨(splitLines source.content.toList)[index], ?_⟩
  by_cases last : index + 1 = source.lineCount
  · have none : (splitLines source.content.toList).drop (index + 1) = [] :=
      List.drop_of_length_le (by omega)
    rw [none, List.intercalate_singleton] at whole
    exact ⟨[], List.getElem?_eq_getElem within, by rw [List.append_nil]; exact whole, fun _ => rfl⟩
  · have more : (splitLines source.content.toList).drop (index + 1) ≠ [] := by
      rw [Ne, List.drop_eq_nil_iff]
      omega
    rw [List.intercalate_cons_of_ne_nil more, List.append_assoc, ← List.append_assoc] at whole
    exact ⟨_, List.getElem?_eq_getElem within, whole, fun isLast => absurd isLast last⟩

/-! ## The starts of lines -/

/-- The line with the given number, counted from one, starts at an offset. -/
structure StartsLine (source : SourceText) (line start : Nat) : Prop where
  /-- The offset is in the text or at its end. -/
  inside : start ≤ source.bytes.length
  /-- There is one newline before it for each earlier line. -/
  counted : (source.bytes.take start).count newlineByte + 1 = line
  /-- It is the beginning of the text, or right behind a newline. -/
  begins : start = 0 ∨ source.bytes[start - 1]? = some newlineByte

/-- The table has the starts of all lines. -/
theorem startsLine_textBefore {index : Nat} (inside : index < source.lineCount) :
    source.StartsLine (index + 1) (byteLength (source.textBefore index)) := by
  obtain ⟨line, after, -, whole, -⟩ := exists_line inside
  have bytes : source.bytes = utf8Bytes (source.textBefore index) ++ utf8Bytes (line ++ after) := by
    rw [bytes_eq_utf8Bytes, whole, List.append_assoc, utf8Bytes_append]
  have size := length_utf8Bytes (source.textBefore index)
  refine ⟨?_, ?_, ?_⟩
  · rw [bytes, List.length_append]
    omega
  · rw [bytes, ← size, List.take_left, count_utf8Bytes, count_textBefore inside]
  · cases index with
    | zero => exact .inl rfl
    | succ index =>
      obtain ⟨earlier, -, found, -, -⟩ := exists_line (Nat.lt_of_succ_lt inside)
      have closed : utf8Bytes (source.textBefore (index + 1)) =
          utf8Bytes (source.textBefore index ++ earlier) ++ [newlineByte] := by
        rw [textBefore_succ found, utf8Bytes_append, utf8Bytes_newline]
      rw [closed, List.length_append, List.length_singleton] at size
      right
      rw [bytes, closed, ← size, Nat.add_sub_cancel, List.append_assoc,
        List.getElem?_append_right (Nat.le_refl _), Nat.sub_self]
      rfl

/-- An offset is not behind the end of the line that it is on. -/
theorem offset_le_end {offset : Nat} {line after : List Char}
    (found : (splitLines source.content.toList)[source.lineOf offset]? = some line)
    (whole : source.content.toList = source.textBefore (source.lineOf offset) ++ line ++ after)
    (last : source.lineOf offset + 1 = source.lineCount → after = []) :
    min offset source.content.utf8ByteSize ≤
      byteLength (source.textBefore (source.lineOf offset)) + byteLength line := by
  obtain ⟨inside, -, passed⟩ := source.lineOf_spec offset
  by_cases isLast : source.lineOf offset + 1 = source.lineCount
  · have size := congrArg byteLength whole
    rw [last isLast, List.append_nil, byteLength_content, byteLength_append] at size
    omega
  · have next : source.lineOf offset + 1 < source.lineCount := by omega
    have below := passed next
    rw [starts_getD_eq next, textBefore_succ found, byteLength_append, byteLength_append,
      byteLength_newline] at below
    omega

/-- There is no newline between the start of a line and an offset on it. -/
theorem newline_not_between {offset place : Nat}
    (begun : byteLength (source.textBefore (source.lineOf offset)) ≤ place)
    (earlier : place < min offset source.content.utf8ByteSize) :
    source.bytes[place]? ≠ some newlineByte := by
  obtain ⟨line, after, found, whole, last⟩ := exists_line (source.lineOf_spec offset).1
  have reached := offset_le_end found whole last
  have size := length_utf8Bytes (source.textBefore (source.lineOf offset))
  have lineSize := length_utf8Bytes line
  rw [bytes_eq_utf8Bytes, whole, List.append_assoc, utf8Bytes_append, utf8Bytes_append,
    List.getElem?_append_right (by omega), List.getElem?_append_left (by omega)]
  intro newline
  have member : '\n' ∈ line := newlineByte_mem_utf8Bytes.mp (List.mem_of_getElem? newline)
  exact newline_not_mem_splitLines (List.mem_of_getElem? found) member

/-- There is one line more than there are newlines. -/
theorem lineCount_eq_count : source.lineCount = source.bytes.count newlineByte + 1 := by
  have some := source.lineCount_bounds.1
  have inside : source.lineCount - 1 < source.lineCount := by omega
  obtain ⟨line, after, found, whole, last⟩ := exists_line inside
  have single : line.count '\n' = 0 :=
    List.count_eq_zero.mpr (newline_not_mem_splitLines (List.mem_of_getElem? found))
  rw [last (by omega), List.append_nil] at whole
  rw [bytes_eq_utf8Bytes, count_utf8Bytes, whole, List.count_append, count_textBefore inside,
    single]
  omega

/-! ## Quoted lines -/

end SourceText

/-- Only carriage returns are dropped from the end of a line, and all of them. -/
theorem exists_returns (line : List Char) :
    ∃ count, line = dropReturns line ++ List.replicate count '\r' ∧
      (dropReturns line).getLast? ≠ some '\r' := by
  have split := List.takeWhile_append_dropWhile (p := (· == '\r')) (l := line.reverse)
  have returns : line.reverse.takeWhile (· == '\r') =
      List.replicate (line.reverse.takeWhile (· == '\r')).length '\r' := by
    apply List.eq_replicate_of_mem
    intro c member
    exact beq_iff_eq.mp (List.all_eq_true.mp List.all_takeWhile c member)
  refine ⟨(line.reverse.takeWhile (· == '\r')).length, ?_, ?_⟩
  · have back := congrArg List.reverse split
    rw [List.reverse_reverse, List.reverse_append, returns, List.reverse_replicate] at back
    exact back.symm
  · rw [dropReturns, List.getLast?_reverse]
    intro first
    have stopped := List.head?_dropWhile_not (· == '\r') line.reverse
    rw [first] at stopped
    exact absurd stopped (by decide)

namespace SourceText

variable {source : SourceText}

theorem line?_of_getElem? {number : UInt32} {line : List Char} (counted : 1 ≤ number.toNat)
    (found : (splitLines source.content.toList)[number.toNat - 1]? = some line) :
    source.line? number = some (String.ofList (dropReturns line)) := by
  have nonzero : number ≠ 0 := by
    rintro rfl
    exact absurd counted (by decide)
  rw [line?, if_neg nonzero, source.lines_eq, List.getElem?_toArray, List.getElem?_map, found]
  rfl

theorem line?_eq_none {number : UInt32}
    (outside : ¬(1 ≤ number.toNat ∧ number.toNat ≤ source.lineCount)) :
    source.line? number = none := by
  by_cases zero : number = 0
  · rw [line?, if_pos zero]
  · have positive : 1 ≤ number.toNat := by
      have nonzero : number.toNat ≠ 0 := fun same => zero (UInt32.toNat_inj.mp same)
      omega
    have size := source.size_lines
    rw [line?, if_neg zero, Array.getElem?_eq_none (by omega)]

/-- Positions say exactly where offsets are, and lines are quoted as they stand in the text. -/
structure ExactPositions (source : SourceText) : Prop where
  /-- Every newline ends a line, and the last line is ended by the end of the text. -/
  counted : source.lineCount = source.bytes.count newlineByte + 1
  /-- The position of an offset is on a line of the text. An offset beyond the text counts as its
  end. -/
  onLine : ∀ offset, 1 ≤ (source.position offset).line.toNat ∧
    (source.position offset).line.toNat ≤ source.lineCount
  /-- The column counts from the start of that line, and up to the offset there is no newline. -/
  onColumn : ∀ offset, ∃ start,
    source.starts[(source.position offset).line.toNat - 1]? = some start ∧
      source.StartsLine (source.position offset).line.toNat start ∧
      1 ≤ (source.position offset).column.toNat ∧
      min offset source.content.utf8ByteSize =
        start + (source.position offset).column.toNat - 1 ∧
      ∀ place, start ≤ place → place < min offset source.content.utf8ByteSize →
        source.bytes[place]? ≠ some newlineByte
  /-- In the text, later offsets are on later lines, or in later columns of one line. -/
  increasing : ∀ first second, first < second → second ≤ source.content.utf8ByteSize →
    (source.position first).line < (source.position second).line ∨
      ((source.position first).line = (source.position second).line ∧
        (source.position first).column < (source.position second).column)
  /-- In the text, no two offsets have one position. -/
  injective : ∀ first second, first ≤ source.content.utf8ByteSize →
    second ≤ source.content.utf8ByteSize → source.position first = source.position second →
      first = second
  /-- A line is quoted as what stands between newlines, without carriage returns at its end. -/
  quoted : ∀ number : UInt32, 1 ≤ number.toNat → number.toNat ≤ source.lineCount →
    ∃ text count,
      (source.content.toList.splitOn '\n')[number.toNat - 1]? =
        some (text ++ List.replicate count '\r') ∧
      text.getLast? ≠ some '\r' ∧
      source.line? number = some (String.ofList text)
  /-- Nothing else is quoted. -/
  unquoted : ∀ number : UInt32, ¬(1 ≤ number.toNat ∧ number.toNat ≤ source.lineCount) →
    source.line? number = none

theorem position_increasing (short : source.content.utf8ByteSize < 4294967295)
    {first second : Nat} (less : first < second)
    (inside : second ≤ source.content.utf8ByteSize) :
    (source.position first).line < (source.position second).line ∨
      ((source.position first).line = (source.position second).line ∧
        (source.position first).column < (source.position second).column) := by
  have ordered := Position.le_iff.mp (position_mono short (Nat.le_of_lt less))
  have different := position_ne short less inside
  refine ordered.imp_right fun ⟨sameLine, columns⟩ => ⟨sameLine, ?_⟩
  have otherColumn : (source.position first).column ≠ (source.position second).column := by
    intro sameColumn
    have same : Position.mk (source.position first).line (source.position first).column =
        ⟨(source.position second).line, (source.position second).column⟩ := by
      rw [sameLine, sameColumn]
    exact different same
  exact UInt32.lt_of_le_of_ne columns otherColumn

/-- As long as a text is short enough for its lines and columns to be counted in 32 bits, positions
are exact: they are on lines of the text and lead from the start of their line to the offset without
passing a newline; they increase strictly along the text, and so differ. The lines that are quoted
are the pieces between the newlines without their last carriage returns, and there are no others. -/
theorem positions_exact (short : source.content.utf8ByteSize < 4294967295) :
    source.ExactPositions where
  counted := lineCount_eq_count
  onLine offset := by
    have inside := (source.lineOf_spec offset).1
    rw [line_position short]
    omega
  onColumn offset := by
    obtain ⟨inside, reached, -⟩ := source.lineOf_spec offset
    rw [starts_getD_eq inside] at reached
    refine ⟨byteLength (source.textBefore (source.lineOf offset)), ?_, ?_, ?_, ?_, ?_⟩
    · rw [line_position short, Nat.add_sub_cancel, getElem?_starts inside]
    · rw [line_position short]
      exact startsLine_textBefore inside
    · rw [column_position short]
      omega
    · rw [column_position short, starts_getD_eq inside]
      omega
    · intro place begun earlier
      exact newline_not_between begun earlier
  increasing first second less inside := position_increasing short less inside
  injective first second insideFirst insideSecond same := by
    have back := congrArg source.offset same
    rwa [offset_position short insideFirst, offset_position short insideSecond] at back
  quoted number counted inside := by
    have within : number.toNat - 1 < source.lineCount := by omega
    obtain ⟨line, -, found, -, -⟩ := exists_line within
    obtain ⟨count, shape, stripped⟩ := exists_returns line
    refine ⟨dropReturns line, count, ?_, stripped, line?_of_getElem? counted found⟩
    rw [← splitLines_eq_splitOn, found, ← shape]
  unquoted number outside := line?_eq_none outside

/-- A text with a character of two bytes, a line that ends with two carriage returns, an empty line
and an empty last line. -/
def raggedText : SourceText :=
  .ofString "ragged" "é;\nb\r\r\n\n"

/-- The second byte of the first character has a position of its own, and what stands behind the
carriage returns is on the next line. -/
theorem positions_exact_raggedText :
    raggedText.content.utf8ByteSize < 4294967295 ∧
      raggedText.lineCount = 4 ∧
      [0, 1, 3, 4, 7, 8, 9, 100].map raggedText.position =
        [⟨1, 1⟩, ⟨1, 2⟩, ⟨1, 4⟩, ⟨2, 1⟩, ⟨2, 4⟩, ⟨3, 1⟩, ⟨4, 1⟩, ⟨4, 1⟩] ∧
      [0, 1, 2, 3, 4, 5].map raggedText.line? =
        [none, some "é;", some "b", some "", some "", none] ∧
      raggedText.ExactPositions :=
  ⟨by decide, by decide, by decide +kernel, by decide, positions_exact (by decide)⟩

end SourceText

end TextureScript
