import TextureScript.Token.Lexer

/-!
# Pieces of a known beginning

Cutting looks at the first piece and goes on behind it, so a script is cut at a known beginning
whatever follows it, as long as the beginning does not run on. A blank and a comment never run on. A
word and a number do when the script goes on with a letter, a digit or a point.
-/

namespace TextureScript

namespace Piece

/-! ## One piece after the other -/

/-- Pieces that are already cut off stay in front. -/
theorem toList_splitFrom (done : Array Piece) :
    (cs : List Char) → (splitFrom done cs).toList = done.toList ++ split cs
  | [] => by simp [split, splitFrom]
  | c :: cs => by
    have later := toList_splitFrom (done.push (first c cs).1) (first c cs).2
    have alone := toList_splitFrom (#[].push (first c cs).1) (first c cs).2
    rw [split, splitFrom, splitFrom, later, alone]
    simp
termination_by cs => cs.length
decreasing_by all_goals exact first_rest_length_lt c cs

theorem split_nil : split [] = [] := by
  rw [split, splitFrom]

/-- A script that begins with a piece is cut behind it. -/
theorem split_of_first {c : Char} {cs rest : List Char} {piece : Piece}
    (begins : first c cs = (piece, rest)) : split (c :: cs) = piece :: split rest := by
  rw [split, splitFrom, toList_splitFrom, begins]
  simp

/-! ## Characters -/

theorem isLetter_iff {c : Char} :
    isLetter c ↔ 'A' ≤ c ∧ c ≤ 'Z' ∨ 'a' ≤ c ∧ c ≤ 'z' ∨ c = '_' := by
  have alphabetic : c.isAlpha = (decide (c.val ≥ 'A'.val ∧ c.val ≤ 'Z'.val) ||
    decide (c.val ≥ 'a'.val) && decide (c.val ≤ 'z'.val)) := rfl
  simp only [isLetter, alphabetic, Bool.or_eq_true, Bool.and_eq_true, decide_eq_true_eq, beq_iff_eq,
    Char.le_def, ge_iff_le, or_assoc]

theorem isDigit_iff {c : Char} : c.isDigit ↔ '0' ≤ c ∧ c ≤ '9' := by
  simp only [Char.isDigit, Bool.and_eq_true, decide_eq_true_eq, Char.le_def, ge_iff_le]

theorem isBlank_iff {c : Char} : isBlank c ↔ c ∈ [' ', '\t', '\r', '\n'] := by
  simp [isBlank, or_assoc]

/-- Letters stand behind the digits in the order of characters. -/
theorem not_isDigit_of_isLetter {c : Char} (letter : isLetter c) : ¬c.isDigit := by
  intro digit
  have below := (isDigit_iff.mp digit).2
  rcases isLetter_iff.mp letter with ⟨above, -⟩ | ⟨above, -⟩ | rfl
  · exact absurd (Char.le_trans above below) (by decide)
  · exact absurd (Char.le_trans above below) (by decide)
  · exact absurd below (by decide)

/-- A blank or a slash begins no word and no number, and goes on with none. -/
theorem not_isWordChar_of_isBlank {c : Char} (separates : isBlank c ∨ c = '/') :
    ¬isWordChar c ∧ ¬runsOn c := by
  simp only [isBlank, Bool.or_eq_true, beq_iff_eq] at separates
  rcases separates with (((rfl | rfl) | rfl) | rfl) | rfl <;> decide

/-- The characters of a kind end where one of another kind follows. -/
theorem span_of_stop {p : Char → Bool} {taken rest : List Char} (all : ∀ c ∈ taken, p c)
    (stop : ∀ c ∈ rest.head?, ¬p c) :
    (taken ++ rest).takeWhile p = taken ∧ (taken ++ rest).dropWhile p = rest := by
  rw [List.takeWhile_append_of_pos all, List.dropWhile_append_of_pos all]
  cases rest with
  | nil => simp
  | cons c rest =>
    have other : ¬p c := stop c (by simp)
    simp [other]

/-! ## Blanks and comments -/

theorem first_blank {c : Char} (isBlank : isBlank c) (rest : List Char) :
    first c rest = (blank [c], rest) :=
  if_pos isBlank

theorem first_slash (rest : List Char) : first '/' rest = slash rest := rfl

/-- A line comment goes up to a newline, or up to the end of the script. -/
theorem first_lineComment {body rest : List Char} (oneLine : '\n' ∉ body)
    (ends : ∀ c ∈ rest.head?, c = '\n') :
    first '/' ('/' :: (body ++ rest)) = (blank ('/' :: '/' :: body), rest) := by
  have inside : ∀ c ∈ body, (c != '\n') = true := by
    intro c member
    exact bne_iff_ne.mpr fun same => oneLine (same ▸ member)
  have outside : ∀ c ∈ rest.head?, ¬(c != '\n') = true := by
    intro c head
    simp [ends c head]
  obtain ⟨taken, dropped⟩ := span_of_stop inside outside
  simp only [first_slash, slash, taken, dropped]

/-- The end of a block comment is the first one behind its beginning. -/
theorem closeComment?_body {body : List Char} (unclosed : ¬['*', '/'] <:+: body)
    (passed rest : List Char) :
    closeComment? passed (body ++ '*' :: '/' :: rest) =
      some (passed.reverse ++ body ++ ['*', '/'], rest) := by
  induction body generalizing passed with
  | nil => simp [closeComment?]
  | cons c body ih =>
    -- the end of the comment does not stand here, nor does it begin here
    have inside : ¬['*', '/'] <:+: body := fun found => unclosed (List.infix_cons found)
    have goesOn : ∀ after, c = '*' → body ++ '*' :: '/' :: rest = '/' :: after → False := by
      rintro after rfl next
      cases body with
      | nil => simp at next
      | cons d body =>
        simp only [List.cons_append, List.cons.injEq] at next
        exact unclosed ⟨[], body, by simp [next.1]⟩
    rw [List.cons_append, closeComment?.eq_2 _ _ _ goesOn, ih inside]
    simp

theorem first_blockComment {body : List Char} (unclosed : ¬['*', '/'] <:+: body)
    (rest : List Char) :
    first '/' ('*' :: (body ++ '*' :: '/' :: rest)) =
      (blank ('/' :: '*' :: (body ++ ['*', '/'])), rest) := by
  simp [first_slash, slash, closeComment?_body unclosed]

/-! ## Words and numbers -/

/-- A script goes on in a way that ends a word or a number before it. -/
def Stops (rest : List Char) : Prop :=
  ∀ c ∈ rest.head?, ¬isWordChar c ∧ ¬runsOn c

theorem first_letter {c : Char} (letter : isLetter c) (cs : List Char) :
    first c cs = word c cs := by
  have wordChar : isWordChar c := by simp [isWordChar, letter]
  have separates : ¬(isBlank c ∨ c = '/') := fun h => (not_isWordChar_of_isBlank h).1 wordChar
  rw [first, if_neg (fun h => separates (.inl h)), if_neg (fun h => separates (.inr h)),
    if_neg (not_isDigit_of_isLetter letter), if_pos letter]

theorem first_digit {c : Char} (digit : c.isDigit) (cs : List Char) :
    first c cs = number c cs := by
  have wordChar : isWordChar c := by simp [isWordChar, digit]
  have separates : ¬(isBlank c ∨ c = '/') := fun h => (not_isWordChar_of_isBlank h).1 wordChar
  rw [first, if_neg (fun h => separates (.inl h)), if_neg (fun h => separates (.inr h)),
    if_pos digit]

/-- A word ends where the script does not go on with it. -/
theorem first_word {c : Char} {more rest : List Char} (letter : isLetter c)
    (all : ∀ d ∈ more, isWordChar d) (stops : Stops rest) :
    first c (more ++ rest) =
      (lexeme (.ofWord (String.ofList (c :: more))) (c :: more), rest) := by
  obtain ⟨taken, dropped⟩ := span_of_stop all fun d head => (stops d head).1
  rw [first_letter letter, word, taken, dropped]

/-- A number ends where the script does not go on with it, and is too large or a lexeme. -/
theorem first_number {c : Char} {more rest : List Char} (digit : c.isDigit)
    (all : ∀ d ∈ more, d.isDigit) (stops : Stops rest) :
    first c (more ++ rest) =
      (if decimalValue (c :: more) ≤ largestNumber then
        lexeme (.number (UInt32.ofNat (decimalValue (c :: more)))) (c :: more)
      else oversizedNumber (c :: more), rest) := by
  have noDigit : ∀ d ∈ rest.head?, ¬d.isDigit := by
    intro d head isDigit
    exact (stops d head).1 (by simp [isWordChar, isDigit])
  obtain ⟨taken, dropped⟩ := span_of_stop all noDigit
  have ends : rest.head?.any runsOn = false := by
    rw [Bool.eq_false_iff, ne_eq, Option.any_eq_true]
    rintro ⟨d, head, goesOn⟩
    exact (stops d head).2 goesOn
  rw [first_digit digit, number]
  simp only [taken, dropped, ends, Bool.false_eq_true, ↓reduceIte]
  split <;> rfl

/-- A mark is a piece by itself. -/
theorem first_mark {c : Char} {mark : Lexeme} (isMark : Lexeme.punctuation? c = some mark)
    (rest : List Char) : first c rest = (lexeme mark [c], rest) := by
  unfold Lexeme.punctuation? at isMark
  split at isMark <;> cases isMark <;> rfl

end Piece

end TextureScript
