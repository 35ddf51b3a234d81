import TextureScript.Proofs.Source.Positions

/-!
# Slices of a text

A slice is what the bytes between two offsets spell. The offsets before and behind some characters
of a text lie between characters, and the slice between them is these characters. A position leads
back to the offset that it was made from, by the start of its line and its column, as long as the
text is short enough for lines and columns to be counted in 32 bits. So positions are in the same
strict order as the offsets.
-/

namespace TextureScript

theorem byteLength_append (cs ds : List Char) :
    byteLength (cs ++ ds) = byteLength cs + byteLength ds := by
  induction cs with
  | nil => exact (Nat.zero_add _).symm
  | cons c cs ih => rw [List.cons_append, byteLength_cons, byteLength_cons, ih, Nat.add_assoc]

theorem byteLength_pos {cs : List Char} (nonempty : cs ≠ []) : 0 < byteLength cs :=
  Nat.lt_of_lt_of_le (List.length_pos_iff.mpr nonempty) (length_le_byteLength cs)

namespace SourceText

/-- What the bytes from `start` up to but not including `stop` spell, if they spell anything. -/
def slice? (source : SourceText) (start stop : Nat) : Option String :=
  String.fromUTF8? (source.content.toUTF8.extract start stop)

/-- An offset that lies between two characters, or at an end of the text. -/
def IsBoundary (source : SourceText) (offset : Nat) : Prop :=
  String.Pos.Raw.IsValid source.content ⟨offset⟩

variable {source : SourceText}

theorem byteLength_content : byteLength source.content.toList = source.content.utf8ByteSize := by
  rw [byteLength_eq_utf8ByteSize, String.ofList_toList]

/-- The offset behind the first characters of a text lies between characters. -/
theorem isBoundary_of_append {before after : List Char}
    (whole : source.content.toList = before ++ after) : source.IsBoundary (byteLength before) := by
  refine String.Pos.Raw.isValid_iff_exists_append.mpr ⟨.ofList before, .ofList after, ?_, ?_⟩
  · rw [← String.ofList_append, ← whole, String.ofList_toList]
  · rw [byteLength_eq_utf8ByteSize]
    rfl

/-- The slice between the ends of some characters is these characters. -/
theorem slice?_of_append {before text after : List Char}
    (whole : source.content.toList = before ++ text ++ after) :
    source.slice? (byteLength before) (byteLength before + byteLength text) =
      some (String.ofList text) := by
  have content : source.content =
      String.ofList before ++ (String.ofList text ++ String.ofList after) := by
    rw [← String.ofList_append, ← String.ofList_append, ← List.append_assoc, ← whole,
      String.ofList_toList]
  have bytes : source.content.toUTF8.extract (byteLength before)
      (byteLength before + byteLength text) = (String.ofList text).toByteArray := by
    rw [String.toUTF8_eq_toByteArray, content, String.toByteArray_append,
      String.toByteArray_append, byteLength_eq_utf8ByteSize, byteLength_eq_utf8ByteSize]
    have behind := ByteArray.extract_append_size_add (a := (String.ofList before).toByteArray)
      (b := (String.ofList text).toByteArray ++ (String.ofList after).toByteArray) (i := 0)
      (j := (String.ofList text).toByteArray.size)
    exact behind.trans (ByteArray.extract_append_eq_left rfl)
  rw [slice?, bytes, String.fromUTF8?, dif_pos (String.ofList text).isValidUTF8]
  rfl

/-! ## Positions lead back to offsets -/

/-- The offset at a position: the start of its line, and the bytes before it on the line. -/
def offset (source : SourceText) (position : Position) : Nat :=
  source.starts.getD (position.line.toNat - 1) 0 + (position.column.toNat - 1)

section

variable (short : source.content.utf8ByteSize < 4294967295)
include short

theorem offset_position {offset : Nat} (inside : offset ≤ source.content.utf8ByteSize) :
    source.offset (source.position offset) = offset := by
  obtain ⟨-, reached, -⟩ := source.lineOf_spec offset
  rw [SourceText.offset, line_position short, column_position short, Nat.add_sub_cancel,
    Nat.add_sub_cancel]
  omega

/-- Different offsets have different positions. -/
theorem position_ne {first second : Nat} (less : first < second)
    (inside : second ≤ source.content.utf8ByteSize) :
    source.position first ≠ source.position second := by
  intro same
  have back := congrArg source.offset same
  rw [offset_position short (by omega), offset_position short inside] at back
  omega

end

/-- The text of a span, from its first position to its last. -/
def extent? (source : SourceText) (span : Span) : Option String :=
  source.slice? (source.offset span.start) (source.offset span.stop + 1)

/-- A span from the first to the last of some characters leads back to them. -/
theorem extent?_of_append (short : source.content.utf8ByteSize < 4294967295)
    {before text after : List Char} (whole : source.content.toList = before ++ text ++ after)
    (nonempty : text ≠ []) {span : Span} (start : span.start = source.position (byteLength before))
    (stop : span.stop = source.position (byteLength before + byteLength text - 1)) :
    source.extent? span = some (String.ofList text) := by
  have inside : byteLength before + byteLength text ≤ source.content.utf8ByteSize := by
    rw [← byteLength_content, whole, byteLength_append, byteLength_append]
    omega
  have positive := byteLength_pos nonempty
  rw [extent?, start, stop, offset_position short (by omega), offset_position short (by omega),
    Nat.sub_add_cancel (by omega)]
  exact slice?_of_append whole

end SourceText

end TextureScript
