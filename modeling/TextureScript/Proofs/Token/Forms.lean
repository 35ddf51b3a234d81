import Mathlib.Data.Nat.Digits.Defs
import TextureScript.Proofs.Token.Layout

/-!
# The forms of pieces

What a piece may be is said here without cutting anything: which text denotes which lexeme, what a
comment is, which numbers are malformed or too large, and which characters begin nothing. Words and
numbers go on as far as they can, so a piece is seen together with the text behind it, of which only
the first character matters. Cutting finds exactly the pieces that have one of these forms, and so a
piece is cut off again wherever the text behind it begins in the same way.
-/

namespace TextureScript

/-- The number that decimal digits stand for, the first digit being the highest one. -/
def numeral (digits : List Char) : Nat :=
  Nat.ofDigits 10 (digits.map fun c => c.toNat - '0'.toNat).reverse

/-- Digits are evaluated from the highest one on. -/
theorem Piece.decimalValue_eq_numeral (digits : List Char) :
    decimalValue digits = numeral digits := by
  rw [decimalValue, numeral, Nat.ofDigits_eq_foldr, List.foldr_reverse, List.foldl_map]
  simp [Nat.add_comm]

namespace Lexeme

/-- A decimal digit. -/
def IsDigit (c : Char) : Prop :=
  '0' ≤ c ∧ c ≤ '9'

instance : DecidablePred IsDigit :=
  fun c => inferInstanceAs (Decidable ('0' ≤ c ∧ c ≤ '9'))

/-- A character that runs on behind digits. -/
def RunsOn (c : Char) : Prop :=
  BeginsName c ∨ c = '.'

/-- The lexeme that a text denotes: a number is denoted by decimal digits of its value, any other
lexeme by itself. -/
def IsDenotedBy (lexeme : Lexeme) (text : List Char) : Prop :=
  lexeme.IsWritable ∧
    match lexeme with
    | number value => text ≠ [] ∧ (∀ c ∈ text, IsDigit c) ∧ value.toNat = numeral text
    | other => text = other.render.toList

theorem IsDenotedBy.ne_endOfFile {lexeme : Lexeme} {text : List Char}
    (denoted : lexeme.IsDenotedBy text) : lexeme ≠ endOfFile := by
  rintro rfl
  exact denoted.1

theorem IsDenotedBy.ne_nil {lexeme : Lexeme} {text : List Char}
    (denoted : lexeme.IsDenotedBy text) : text ≠ [] := by
  obtain ⟨writable, denoted⟩ := denoted
  cases lexeme with
  | number => exact denoted.1
  | name spelled =>
    obtain ⟨⟨c, more, shape, -⟩, -⟩ := writable
    rw [show text = c :: more from denoted.trans shape]
    exact List.cons_ne_nil _ _
  | endOfFile => exact writable.elim
  | exportWord | leftParen | rightParen | comma | semicolon | equals | minus =>
    rw [denoted]
    exact List.cons_ne_nil _ _

/-- A lexeme is longer than a text that the given character follows. -/
def GoesOnWith (lexeme : Lexeme) (c : Char) : Prop :=
  match lexeme with
  | number _ => IsDigit c ∨ RunsOn c
  | name _ | exportWord => ContinuesName c
  | _ => False

/-- The punctuation marks. -/
def marks : List Char :=
  ['(', ')', ',', ';', '=', '-']

end Lexeme

open Lexeme (BeginsName ContinuesName IsDigit RunsOn)

namespace Piece

/-- A piece before the rest of a text. -/
inductive Fits : Piece → List Char → Prop where
  /-- A space, a tab, a carriage return or a newline. -/
  | blank {c : Char} {rest : List Char} (isBlank : c ∈ [' ', '\t', '\r', '\n']) :
      Fits (.blank [c]) rest
  /-- Two slashes and the rest of a line. -/
  | lineComment {body rest : List Char} (oneLine : '\n' ∉ body)
      (ends : ∀ c ∈ rest.head?, c = '\n') : Fits (.blank ('/' :: '/' :: body)) rest
  /-- Anything between a slash with a star and the next star with a slash. -/
  | blockComment {body rest : List Char} (unclosed : ¬['*', '/'] <:+: body) :
      Fits (.blank ('/' :: '*' :: (body ++ ['*', '/']))) rest
  /-- A slash with a star, and no star with a slash up to the end of the text. -/
  | openComment {body : List Char} (unclosed : ¬['*', '/'] <:+: body) :
      Fits (.openComment ('/' :: '*' :: body)) []
  /-- A text that denotes a lexeme, and is not followed by more of it. -/
  | lexeme {lexeme : Lexeme} {text rest : List Char} (denoted : lexeme.IsDenotedBy text)
      (ends : ∀ c ∈ rest.head?, ¬lexeme.GoesOnWith c) : Fits (.lexeme lexeme text) rest
  /-- Digits and all that runs on behind them. -/
  | malformedNumber {digits more rest : List Char} {c : Char} (nonempty : digits ≠ [])
      (all : ∀ d ∈ digits, IsDigit d) (begins : RunsOn c)
      (goesOn : ∀ d ∈ more, IsDigit d ∨ RunsOn d)
      (ends : ∀ d ∈ rest.head?, ¬(IsDigit d ∨ RunsOn d)) :
      Fits (.malformedNumber (digits ++ c :: more)) rest
  /-- Digits of a number above two to the thirty-first. -/
  | oversizedNumber {digits rest : List Char} (nonempty : digits ≠ [])
      (all : ∀ d ∈ digits, IsDigit d) (large : 2147483648 < numeral digits)
      (ends : ∀ d ∈ rest.head?, ¬(IsDigit d ∨ RunsOn d)) : Fits (.oversizedNumber digits) rest
  /-- A character that is neither blank nor part of a name nor a mark, nor the first of a
  comment. -/
  | stray {c : Char} {rest : List Char} (solid : c ∉ [' ', '\t', '\r', '\n'])
      (nameless : ¬ContinuesName c) (unmarked : c ∉ Lexeme.marks)
      (alone : c = '/' → ∀ d ∈ rest.head?, d ≠ '/' ∧ d ≠ '*') : Fits (.stray c) rest

/-- No piece is empty. -/
theorem Fits.text_ne_nil {piece : Piece} {rest : List Char} (fits : piece.Fits rest) :
    piece.text ≠ [] := by
  cases fits with
  | lexeme denoted => exact denoted.ne_nil
  | oversizedNumber nonempty => exact nonempty
  | malformedNumber => simp [text]
  | blank | lineComment | blockComment | openComment | stray => exact List.cons_ne_nil _ _

/-- Only the first character of the text behind a piece matters. -/
theorem Fits.of_head? {piece : Piece} {rest rest' : List Char} (fits : piece.Fits rest)
    (same : rest'.head? = rest.head?) : piece.Fits rest' := by
  cases fits with
  | blank isBlank => exact .blank isBlank
  | lineComment oneLine ends => exact .lineComment oneLine (same ▸ ends)
  | blockComment unclosed => exact .blockComment unclosed
  | openComment unclosed =>
    rw [List.head?_eq_none_iff.mp same]
    exact .openComment unclosed
  | lexeme denoted ends => exact .lexeme denoted (same ▸ ends)
  | malformedNumber nonempty all begins goesOn ends =>
    exact .malformedNumber nonempty all begins goesOn (same ▸ ends)
  | oversizedNumber nonempty all large ends =>
    exact .oversizedNumber nonempty all large (same ▸ ends)
  | stray solid nameless unmarked alone => exact .stray solid nameless unmarked (same ▸ alone)

/-! ## Characters -/

theorem isWordChar_iff {c : Char} : isWordChar c ↔ ContinuesName c := by
  rw [isWordChar, Bool.or_eq_true]
  exact or_congr isLetter_iff isDigit_iff

theorem runsOn_iff {c : Char} : runsOn c ↔ RunsOn c := by
  rw [runsOn, Bool.or_eq_true, beq_iff_eq]
  exact or_congr isLetter_iff Iff.rfl

theorem goesOn_iff {c : Char} : (runsOn c || c.isDigit) ↔ IsDigit c ∨ RunsOn c := by
  rw [Bool.or_eq_true, or_comm]
  exact or_congr isDigit_iff runsOn_iff

theorem punctuation?_eq_none_iff {c : Char} :
    Lexeme.punctuation? c = none ↔ c ∉ Lexeme.marks := by
  unfold Lexeme.punctuation?
  split <;> simp_all [Lexeme.marks]

/-- Where dropping characters of a kind stops, a character of another kind stands. -/
theorem not_of_head?_dropWhile {p : Char → Bool} {cs : List Char} :
    ∀ c ∈ (cs.dropWhile p).head?, ¬p c := by
  intro c head
  have stopped := List.head?_dropWhile_not p cs
  rw [Option.mem_def.mp head] at stopped
  simpa using stopped

theorem of_mem_takeWhile {p : Char → Bool} {cs : List Char} : ∀ c ∈ cs.takeWhile p, p c :=
  List.all_eq_true.mp List.all_takeWhile

/-- A character that runs on is no digit. -/
theorem not_isDigit_of_runsOn {c : Char} (goesOn : runsOn c) : ¬c.isDigit := by
  rw [runsOn, Bool.or_eq_true, beq_iff_eq] at goesOn
  rcases goesOn with letter | rfl
  · exact not_isDigit_of_isLetter letter
  · decide

/-! ## Cutting finds pieces of these forms -/

/-- A comment is closed at the first star with a slash. -/
theorem exists_body_of_closeComment? {passed cs comment rest : List Char}
    (closed : closeComment? passed cs = some (comment, rest)) :
    ∃ body, comment = passed.reverse ++ body ++ ['*', '/'] ∧ ¬['*', '/'] <:+: body := by
  fun_induction closeComment? passed cs with
  | case1 passed after =>
    simp only [Option.some.injEq, Prod.mk.injEq] at closed
    exact ⟨[], by simp [← closed.1], by decide⟩
  | case2 passed c after notHere ih =>
    obtain ⟨body, rfl, unclosed⟩ := ih closed
    refine ⟨c :: body, by simp, ?_⟩
    rw [List.infix_cons_iff]
    rintro (begins | later)
    · obtain ⟨others, same⟩ := begins
      simp only [List.cons_append, List.nil_append, List.cons.injEq] at same
      obtain ⟨rfl, next⟩ := same
      have whole := closeComment?_append closed
      rw [← next] at whole
      simp only [List.reverse_cons, List.append_assoc, List.cons_append, List.nil_append,
        List.append_cancel_left_eq, List.cons.injEq, true_and] at whole
      exact notHere _ rfl whole.symm
    · exact unclosed later
  | case3 => simp at closed

theorem closeComment?_eq_none_iff {passed cs : List Char} :
    closeComment? passed cs = none ↔ ¬['*', '/'] <:+: cs := by
  fun_induction closeComment? passed cs with
  | case1 passed after =>
    simp only [reduceCtorEq, false_iff, not_not]
    exact ⟨[], after, rfl⟩
  | case2 passed c after notHere ih =>
    rw [ih, List.infix_cons_iff, not_or]
    refine ⟨fun later => ⟨?_, later⟩, And.right⟩
    rintro ⟨others, same⟩
    simp only [List.cons_append, List.nil_append, List.cons.injEq] at same
    exact notHere others same.1.symm same.2.symm
  | case3 => simp

theorem fits_slash (cs : List Char) : (slash cs).1.Fits (slash cs).2 := by
  unfold slash
  split
  · rename_i after
    refine .lineComment (fun newline => ?_) (fun c head => ?_)
    · simpa using of_mem_takeWhile _ newline
    · simpa using not_of_head?_dropWhile c head
  · rename_i after
    split
    · rename_i comment rest closed
      obtain ⟨body, rfl, unclosed⟩ := exists_body_of_closeComment? closed
      exact .blockComment unclosed
    · rename_i unclosed
      exact .openComment (closeComment?_eq_none_iff.mp unclosed)
  · rename_i noLine noBlock
    refine .stray (by decide) (by decide) (by decide) ?_
    intro _ d head
    obtain ⟨after, rfl⟩ := List.head?_eq_some_iff.mp head
    exact ⟨fun slash => noLine after (slash ▸ rfl), fun star => noBlock after (star ▸ rfl)⟩

theorem fits_number {c : Char} (digit : c.isDigit) (cs : List Char) :
    (number c cs).1.Fits (number c cs).2 := by
  have all : ∀ d ∈ c :: cs.takeWhile Char.isDigit, IsDigit d := by
    rw [List.forall_mem_cons]
    exact ⟨isDigit_iff.mp digit, fun d member => isDigit_iff.mp (of_mem_takeWhile d member)⟩
  simp only [number]
  split
  · rename_i malformed
    obtain ⟨d, head, goesOn⟩ := (Option.any_eq_true _ _).mp malformed
    obtain ⟨more, shape⟩ := List.head?_eq_some_iff.mp head
    rw [shape, List.takeWhile_cons_of_pos (by simp [goesOn])]
    refine .malformedNumber (by simp) all (runsOn_iff.mp goesOn) ?_ ?_
    · exact fun e member => goesOn_iff.mp (of_mem_takeWhile e member)
    · exact fun e head both => not_of_head?_dropWhile e head (goesOn_iff.mpr both)
  · rename_i wellFormed
    have ends : ∀ d ∈ (cs.dropWhile Char.isDigit).head?, ¬(IsDigit d ∨ RunsOn d) := by
      rintro d head (isDigit | runsOn)
      · exact not_of_head?_dropWhile d head (isDigit_iff.mpr isDigit)
      · exact wellFormed ((Option.any_eq_true _ _).mpr ⟨d, head, runsOn_iff.mpr runsOn⟩)
    split
    · rename_i small
      have fits : (UInt32.ofNat (decimalValue (c :: cs.takeWhile Char.isDigit))).toNat =
          decimalValue (c :: cs.takeWhile Char.isDigit) :=
        UInt32.toNat_ofNat_of_lt' (Nat.lt_of_le_of_lt small (by decide))
      refine .lexeme ⟨Nat.le_trans (Nat.le_of_eq fits) small, by simp, all, ?_⟩ ends
      rw [fits, decimalValue_eq_numeral]
    · rename_i large
      rw [decimalValue_eq_numeral] at large
      exact .oversizedNumber (by simp) all (Nat.lt_of_not_le large) ends

theorem fits_word {c : Char} (letter : isLetter c) (cs : List Char) :
    (word c cs).1.Fits (word c cs).2 := by
  have continues : ∀ d ∈ cs.takeWhile isWordChar, ContinuesName d :=
    fun d member => isWordChar_iff.mp (of_mem_takeWhile d member)
  have ends : ∀ d ∈ (cs.dropWhile isWordChar).head?, ¬ContinuesName d :=
    fun d head wordChar => not_of_head?_dropWhile d head (isWordChar_iff.mpr wordChar)
  simp only [word, Lexeme.ofWord, Lexeme.keyword?]
  split
  · rename_i reserved
    exact .lexeme ⟨trivial, by rw [← String.toList_ofList (l := c :: _), reserved]; rfl⟩ ends
  · rename_i free
    have spelled : Lexeme.IsNameText (String.ofList _) :=
      ⟨⟨c, _, String.toList_ofList, isLetter_iff.mp letter, continues⟩, free⟩
    exact .lexeme ⟨spelled, String.toList_ofList.symm⟩ ends

/-- The first piece of a text has one of the forms. -/
theorem fits_first (c : Char) (cs : List Char) : (first c cs).1.Fits (first c cs).2 := by
  unfold first
  split
  · rename_i blank
    exact .blank (isBlank_iff.mp blank)
  rename_i solid
  split
  · exact fits_slash cs
  rename_i noSlash
  split
  · rename_i digit
    exact fits_number digit cs
  rename_i noDigit
  split
  · rename_i letter
    exact fits_word letter cs
  rename_i noLetter
  have nameless : ¬ContinuesName c := by
    rw [← isWordChar_iff, isWordChar, Bool.or_eq_true]
    exact not_or.mpr ⟨noLetter, noDigit⟩
  split
  · rename_i mark isMark
    unfold Lexeme.punctuation? at isMark
    split at isMark <;> cases isMark <;>
      exact .lexeme ⟨trivial, rfl⟩ fun _ _ => id
  · rename_i noMark
    exact .stray (fun blank => solid (isBlank_iff.mpr blank)) nameless
      (punctuation?_eq_none_iff.mp noMark) (fun slash => absurd slash noSlash)

/-! ## Pieces of these forms are cut off -/

/-- What ends a number ends it before anything that would run on. -/
theorem stops_iff {rest : List Char} :
    Stops rest ↔ ∀ c ∈ rest.head?, ¬(IsDigit c ∨ RunsOn c) := by
  constructor
  · rintro stops c head (digit | goesOn)
    · exact (stops c head).1 (isWordChar_iff.mpr (.inr digit))
    · exact (stops c head).2 (runsOn_iff.mpr goesOn)
  · intro ends c head
    refine ⟨fun wordChar => ends c head ?_, fun goesOn => ends c head (.inr (runsOn_iff.mp goesOn))⟩
    exact (isWordChar_iff.mp wordChar).elim (fun letter => .inr (.inl letter)) .inl

/-- A word is cut off where no character of a word follows, also before a point. -/
theorem split_word {c : Char} {more rest : List Char} (letter : BeginsName c)
    (all : ∀ d ∈ more, ContinuesName d) (ends : ∀ d ∈ rest.head?, ¬ContinuesName d) :
    split (c :: more ++ rest) =
      .lexeme (.ofWord (String.ofList (c :: more))) (c :: more) :: split rest := by
  obtain ⟨taken, dropped⟩ := span_of_stop (p := isWordChar)
    (fun d member => isWordChar_iff.mpr (all d member))
    (fun d head wordChar => ends d head (isWordChar_iff.mp wordChar))
  have piece : first c (more ++ rest) =
      (.lexeme (.ofWord (String.ofList (c :: more))) (c :: more), rest) := by
    rw [first_letter (isLetter_iff.mpr letter), word, taken, dropped]
  exact split_of_first piece

theorem split_denoted {lexeme : Lexeme} {text rest : List Char}
    (denoted : lexeme.IsDenotedBy text) (ends : ∀ c ∈ rest.head?, ¬lexeme.GoesOnWith c) :
    split (text ++ rest) = .lexeme lexeme text :: split rest := by
  obtain ⟨writable, denoted⟩ := denoted
  cases lexeme with
  | number value =>
    obtain ⟨nonempty, all, counted⟩ := denoted
    obtain ⟨c, more, rfl⟩ := List.exists_cons_of_ne_nil nonempty
    obtain ⟨digit, others⟩ := List.forall_mem_cons.mp all
    have small : decimalValue (c :: more) ≤ largestNumber := by
      rw [decimalValue_eq_numeral, ← counted]
      exact writable
    have piece := first_number (isDigit_iff.mpr digit)
      (fun d member => isDigit_iff.mpr (others d member)) (stops_iff.mpr ends)
    rw [if_pos small, decimalValue_eq_numeral, ← counted, UInt32.ofNat_toNat] at piece
    exact split_of_first piece
  | name spelled =>
    obtain ⟨⟨c, more, shape, begins, continues⟩, free⟩ := writable
    obtain rfl : text = c :: more := denoted.trans shape
    rw [split_word begins continues ends, ← shape, String.ofList_toList, Lexeme.ofWord,
      Lexeme.keyword?, if_neg free]
    rfl
  | exportWord =>
    have letters : ∀ d ∈ ['x', 'p', 'o', 'r', 't'], ContinuesName d := by
      simp [ContinuesName, BeginsName]
    rw [show text = 'e' :: ['x', 'p', 'o', 'r', 't'] from denoted,
      split_word (by decide) letters ends]
    rfl
  | endOfFile => exact writable.elim
  | leftParen | rightParen | comma | semicolon | equals | minus =>
    rw [denoted]
    exact split_of_first (first_mark rfl rest)

theorem split_malformed {digits more rest : List Char} {c : Char} (nonempty : digits ≠ [])
    (all : ∀ d ∈ digits, IsDigit d) (begins : RunsOn c)
    (goesOn : ∀ d ∈ more, IsDigit d ∨ RunsOn d)
    (ends : ∀ d ∈ rest.head?, ¬(IsDigit d ∨ RunsOn d)) :
    split (digits ++ c :: more ++ rest) =
      .malformedNumber (digits ++ c :: more) :: split rest := by
  obtain ⟨d, others, rfl⟩ := List.exists_cons_of_ne_nil nonempty
  obtain ⟨digit, areDigits⟩ := List.forall_mem_cons.mp all
  have runs : runsOn c := runsOn_iff.mpr begins
  have noDigit : ∀ e ∈ (c :: (more ++ rest)).head?, ¬e.isDigit := by
    rintro e ⟨⟩
    exact not_isDigit_of_runsOn runs
  obtain ⟨taken, dropped⟩ :=
    span_of_stop (fun e member => isDigit_iff.mpr (areDigits e member)) noDigit
  obtain ⟨takenOn, droppedOn⟩ := span_of_stop (p := fun e => runsOn e || e.isDigit)
    (fun e member => goesOn_iff.mpr (goesOn e member))
    (fun e head both => ends e head (goesOn_iff.mp both))
  have piece : first d (others ++ c :: (more ++ rest)) =
      (.malformedNumber (d :: others ++ c :: more), rest) := by
    rw [first_digit (isDigit_iff.mpr digit), number]
    simp [taken, dropped, runs, takenOn, droppedOn]
  rw [← split_of_first piece]
  simp

theorem split_stray {c : Char} {rest : List Char} (solid : c ∉ [' ', '\t', '\r', '\n'])
    (nameless : ¬ContinuesName c) (unmarked : c ∉ Lexeme.marks)
    (alone : c = '/' → ∀ d ∈ rest.head?, d ≠ '/' ∧ d ≠ '*') :
    split (c :: rest) = .stray c :: split rest := by
  apply split_of_first
  by_cases isSlash : c = '/'
  · subst isSlash
    rw [first_slash]
    unfold slash
    split
    · exact absurd rfl (alone rfl '/' rfl).1
    · exact absurd rfl (alone rfl '*' rfl).2
    · rfl
  · have noWord : ¬isWordChar c := fun wordChar => nameless (isWordChar_iff.mp wordChar)
    rw [isWordChar, Bool.or_eq_true, not_or] at noWord
    rw [first, if_neg (fun blank => solid (isBlank_iff.mp blank)), if_neg isSlash,
      if_neg noWord.2, if_neg noWord.1, punctuation?_eq_none_iff.mpr unmarked]

/-- A piece that has one of the forms is cut off. -/
theorem Fits.split_text {piece : Piece} {rest : List Char} (fits : piece.Fits rest) :
    split (piece.text ++ rest) = piece :: split rest := by
  cases fits with
  | blank isBlank => exact split_of_first (first_blank (isBlank_iff.mpr isBlank) rest)
  | lineComment oneLine ends => exact split_of_first (first_lineComment oneLine ends)
  | blockComment unclosed =>
    rw [← split_of_first (first_blockComment unclosed rest)]
    simp [text]
  | @openComment body unclosed =>
    have piece : first '/' ('*' :: body) = (.openComment ('/' :: '*' :: body), []) := by
      simp [first_slash, slash, closeComment?_eq_none_iff.mpr unclosed]
    rw [List.append_nil]
    exact split_of_first piece
  | lexeme denoted ends => exact split_denoted denoted ends
  | malformedNumber nonempty all begins goesOn ends =>
    exact split_malformed nonempty all begins goesOn ends
  | @oversizedNumber digits rest nonempty all large ends =>
    obtain ⟨c, more, rfl⟩ := List.exists_cons_of_ne_nil nonempty
    obtain ⟨digit, others⟩ := List.forall_mem_cons.mp all
    have piece := first_number (isDigit_iff.mpr digit)
      (fun d member => isDigit_iff.mpr (others d member)) (stops_iff.mpr ends)
    rw [if_neg (by rw [decimalValue_eq_numeral]; exact Nat.not_le_of_lt large)] at piece
    exact split_of_first piece
  | stray solid nameless unmarked alone => exact split_stray solid nameless unmarked alone

/-! ## Pieces one after the other -/

/-- Pieces one after the other, before the rest of a text. -/
inductive FitAll : List Piece → List Char → Prop where
  /-- No piece. -/
  | nil {rest : List Char} : FitAll [] rest
  /-- A piece before others. -/
  | cons {piece : Piece} {pieces : List Piece} {rest : List Char}
      (fits : piece.Fits (pieces.flatMap text ++ rest)) (others : FitAll pieces rest) :
      FitAll (piece :: pieces) rest

theorem FitAll.append {pieces others : List Piece} {rest : List Char}
    (fit : FitAll (pieces ++ others) rest) :
    FitAll pieces (others.flatMap text ++ rest) ∧ FitAll others rest := by
  induction pieces with
  | nil => exact ⟨.nil, fit⟩
  | cons piece pieces ih =>
    rw [List.cons_append] at fit
    cases fit with
    | cons fits later =>
      rw [List.flatMap_append, List.append_assoc] at fits
      exact ⟨.cons fits (ih later).1, (ih later).2⟩

/-- Where nothing can go on behind the last piece, it does not matter what follows the pieces. -/
theorem FitAll.alone {pieces : List Piece} {last : Piece} {rest : List Char}
    (fit : FitAll (pieces ++ [last]) rest) (ends : last.Fits []) :
    FitAll (pieces ++ [last]) [] := by
  induction pieces with
  | nil => exact .cons ends .nil
  | cons piece pieces ih =>
    rw [List.cons_append] at fit
    cases fit with
    | cons fits later =>
      have nonempty : (pieces ++ [last]).flatMap text ≠ [] := by
        simp [ends.text_ne_nil]
      have same : ((pieces ++ [last]).flatMap text ++ []).head? =
          ((pieces ++ [last]).flatMap text ++ rest).head? := by
        rw [List.head?_append_of_ne_nil _ nonempty, List.head?_append_of_ne_nil _ nonempty]
      exact .cons (fits.of_head? same) (ih later)

/-- Pieces that fit are what their texts are cut into. -/
theorem FitAll.split_flatMap {pieces : List Piece} (fit : FitAll pieces []) :
    split (pieces.flatMap text) = pieces := by
  generalize none : ([] : List Char) = rest at fit
  induction fit with
  | nil => exact split_nil
  | cons fits _ ih =>
    rw [← none, List.append_nil] at fits
    rw [List.flatMap_cons, fits.split_text, ih none]

/-- A text is made of the pieces that it is cut into, each of one of the forms. -/
theorem fitAll_split : (cs : List Char) → FitAll (split cs) [] ∧ (split cs).flatMap text = cs
  | [] => by
    rw [split_nil]
    exact ⟨.nil, rfl⟩
  | c :: cs => by
    obtain ⟨others, whole⟩ := fitAll_split (first c cs).2
    rw [split_of_first (Prod.eta (first c cs)).symm, List.flatMap_cons, whole]
    refine ⟨.cons ?_ others, text_first c cs⟩
    rw [whole, List.append_nil]
    exact fits_first c cs
termination_by cs => cs.length
decreasing_by exact first_rest_length_lt c cs

end Piece

end TextureScript
