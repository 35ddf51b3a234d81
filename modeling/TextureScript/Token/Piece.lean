import TextureScript.Token

/-!
# Cutting a script into pieces

A script is cut, from its start to its end and without leaving anything out, into pieces: blanks
and comments, lexemes, malformed and oversized numbers, and characters that mean nothing. Each
piece keeps its characters, so the pieces of a script, put together again, are the script. Every
decision looks at ASCII characters only; any other character is a piece of its own, unless it stands
in a comment.
-/

namespace TextureScript

/-- A stretch of a script that the lexer treats as one. -/
inductive Piece where
  /-- A blank character, or a comment. -/
  | blank (text : List Char)
  /-- A block comment that the script never closes. -/
  | openComment (text : List Char)
  /-- A lexeme as it is written. -/
  | lexeme (lexeme : Lexeme) (text : List Char)
  /-- Digits that run on into letters or points. -/
  | malformedNumber (text : List Char)
  /-- A number above two to the thirty-first. -/
  | oversizedNumber (text : List Char)
  /-- A character that begins nothing. -/
  | stray (char : Char)
deriving DecidableEq, Repr, Inhabited

namespace Piece

/-- The characters of a piece. -/
def text : Piece → List Char
  | blank text => text
  | openComment text => text
  | lexeme _ text => text
  | malformedNumber text => text
  | oversizedNumber text => text
  | stray char => [char]

/-- Blank characters are the space, the tab, the carriage return and the newline. -/
def isBlank (c : Char) : Bool :=
  c == ' ' || c == '\t' || c == '\r' || c == '\n'

/-- Letters of a word are ASCII letters and the underscore. -/
def isLetter (c : Char) : Bool :=
  c.isAlpha || c == '_'

/-- A word goes on with letters and digits. -/
def isWordChar (c : Char) : Bool :=
  isLetter c || c.isDigit

/-- A number that is followed by one of these is malformed. -/
def runsOn (c : Char) : Bool :=
  isLetter c || c == '.'

/-- The value of decimal digits. -/
def decimalValue (digits : List Char) : Nat :=
  digits.foldl (fun value c => 10 * value + (c.toNat - '0'.toNat)) 0

/-- The largest number that may be written; with a minus sign before it, it is still a signed
32-bit number. -/
def largestNumber : Nat := 2147483648

/-- The characters up to and including the first end of a block comment, and those after it. The
characters already passed are given in reverse. -/
def closeComment? (passed : List Char) : List Char → Option (List Char × List Char)
  | '*' :: '/' :: rest => some (('/' :: '*' :: passed).reverse, rest)
  | c :: rest => closeComment? (c :: passed) rest
  | [] => none

/-- The piece that begins with a digit, and the rest. -/
def number (c : Char) (cs : List Char) : Piece × List Char :=
  let digits := c :: cs.takeWhile Char.isDigit
  let rest := cs.dropWhile Char.isDigit
  if rest.head?.any runsOn then
    let more := rest.takeWhile (fun c => runsOn c || c.isDigit)
    (malformedNumber (digits ++ more), rest.dropWhile (fun c => runsOn c || c.isDigit))
  else if decimalValue digits ≤ largestNumber then
    (lexeme (.number (UInt32.ofNat (decimalValue digits))) digits, rest)
  else (oversizedNumber digits, rest)

/-- The piece that begins with a letter, and the rest. -/
def word (c : Char) (cs : List Char) : Piece × List Char :=
  let text := c :: cs.takeWhile isWordChar
  (lexeme (.ofWord (String.ofList text)) text, cs.dropWhile isWordChar)

/-- The piece that begins with a slash, and the rest. -/
def slash (cs : List Char) : Piece × List Char :=
  match cs with
  | '/' :: after =>
    (blank ('/' :: '/' :: after.takeWhile (· != '\n')), after.dropWhile (· != '\n'))
  | '*' :: after =>
    match closeComment? ['*', '/'] after with
    | some (comment, rest) => (blank comment, rest)
    | none => (openComment ('/' :: '*' :: after), [])
  | _ => (stray '/', cs)

/-- The first piece of a script that begins with the character `c`, and the rest. -/
def first (c : Char) (cs : List Char) : Piece × List Char :=
  if isBlank c then (blank [c], cs)
  else if c = '/' then slash cs
  else if c.isDigit then number c cs
  else if isLetter c then word c cs
  else
    match Lexeme.punctuation? c with
    | some mark => (lexeme mark [c], cs)
    | none => (stray c, cs)

/-- Nothing is lost while the end of a comment is looked for. -/
theorem closeComment?_append {passed cs comment rest : List Char}
    (h : closeComment? passed cs = some (comment, rest)) :
    comment ++ rest = passed.reverse ++ cs := by
  fun_induction closeComment? passed cs with
  | case1 passed after =>
    simp only [Option.some.injEq, Prod.mk.injEq] at h
    simp [← h.1, h.2]
  | case2 passed c after _ ih => simpa using ih h
  | case3 => simp at h

/-- A number and the rest are the characters it was taken from. -/
theorem text_number (c : Char) (cs : List Char) :
    (number c cs).1.text ++ (number c cs).2 = c :: cs := by
  simp only [number]
  split
  · simp [text, List.takeWhile_append_dropWhile]
  · split <;> simp [text, List.takeWhile_append_dropWhile]

/-- A comment or a lone slash and the rest are the characters they were taken from. -/
theorem text_slash (cs : List Char) : (slash cs).1.text ++ (slash cs).2 = '/' :: cs := by
  unfold slash
  split
  · simp [text, List.takeWhile_append_dropWhile]
  · split
    · rename_i found
      simpa [text] using closeComment?_append found
    · simp [text]
  · simp [text]

/-- The first piece and the rest are the whole script. -/
theorem text_first (c : Char) (cs : List Char) :
    (first c cs).1.text ++ (first c cs).2 = c :: cs := by
  unfold first
  split
  · simp [text]
  · split
    · rename_i h
      rw [h, text_slash]
    · split
      · exact text_number c cs
      · split
        · simp [word, text, List.takeWhile_append_dropWhile]
        · split <;> simp [text]

/-- No piece is empty. -/
theorem text_first_ne_nil (c : Char) (cs : List Char) : (first c cs).1.text ≠ [] := by
  unfold first
  split
  · simp [text]
  · split
    · unfold slash
      split
      · simp [text]
      · split
        · rename_i comment rest found
          have nonempty : ∀ {passed cs comment rest : List Char},
              closeComment? passed cs = some (comment, rest) → comment ≠ [] := by
            intro passed cs comment rest h
            fun_induction closeComment? passed cs with
            | case1 =>
              simp only [Option.some.injEq, Prod.mk.injEq] at h
              simp [← h.1]
            | case2 passed c after _ ih => exact ih h
            | case3 => simp at h
          simpa [text] using nonempty found
        · simp [text]
      · simp [text]
    · split
      · simp only [number]
        split
        · simp [text]
        · split <;> simp [text]
      · split
        · simp [word, text]
        · split <;> simp [text]

/-- What follows the first piece is shorter than the script. -/
theorem first_rest_length_lt (c : Char) (cs : List Char) :
    (first c cs).2.length < (c :: cs).length := by
  have whole := congrArg List.length (text_first c cs)
  have nonempty := List.length_pos_iff.2 (text_first_ne_nil c cs)
  rw [List.length_append] at whole
  omega

/-- The pieces of the characters after those already cut off. -/
def splitFrom (done : Array Piece) : List Char → Array Piece
  | [] => done
  | c :: cs => splitFrom (done.push (first c cs).1) (first c cs).2
termination_by cs => cs.length
decreasing_by exact first_rest_length_lt c cs

/-- The pieces of a script, in order. -/
def split (cs : List Char) : List Piece :=
  (splitFrom #[] cs).toList

end Piece

end TextureScript
