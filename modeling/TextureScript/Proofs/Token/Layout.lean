import Mathlib.Data.List.Chain
import TextureScript.Proofs.Token.Split

/-!
# Layout does not change lexemes

A list of lexemes can be written down in many ways: blanks and comments may stand before, between
and behind the lexemes, and only between two words, numbers or reserved words must there be one of
them. Whatever the layout, lexing gives the lexemes back and finds no problem. The pieces of a
layout are known from the layout: they are cut off one after the other from its front, and a lexeme
never runs on into what is written behind it.
-/

namespace TextureScript

/-! ## Layouts -/

/-- A blank character, or a comment with the characters that close it. -/
inductive Trivia where
  /-- A space, a tab, a carriage return or a newline. -/
  | blank (char : Char) (isBlank : char ∈ [' ', '\t', '\r', '\n'])
  /-- Two slashes and the rest of a line, which a newline closes. -/
  | lineComment (body : List Char) (oneLine : '\n' ∉ body)
  /-- Anything between a slash with a star and the next star with a slash. -/
  | blockComment (body : List Char) (unclosed : ¬['*', '/'] <:+: body)

/-- How trivia are written. -/
def Trivia.text : Trivia → List Char
  | blank char _ => [char]
  | lineComment body _ => ['/', '/'] ++ body ++ ['\n']
  | blockComment body _ => ['/', '*'] ++ body ++ ['*', '/']

namespace Lexeme

/-- Names begin with an ASCII letter or an underscore. -/
def BeginsName (c : Char) : Prop :=
  'A' ≤ c ∧ c ≤ 'Z' ∨ 'a' ≤ c ∧ c ≤ 'z' ∨ c = '_'

/-- Names go on with ASCII letters, underscores and digits. -/
def ContinuesName (c : Char) : Prop :=
  BeginsName c ∨ '0' ≤ c ∧ c ≤ '9'

instance : DecidablePred BeginsName :=
  fun c => inferInstanceAs (Decidable ('A' ≤ c ∧ c ≤ 'Z' ∨ 'a' ≤ c ∧ c ≤ 'z' ∨ c = '_'))

instance : DecidablePred ContinuesName :=
  fun c => inferInstanceAs (Decidable (BeginsName c ∨ '0' ≤ c ∧ c ≤ '9'))

/-- A text that can be a name: not empty, of the right characters, and not the reserved word. -/
def IsNameText (text : String) : Prop :=
  (∃ c more, text.toList = c :: more ∧ BeginsName c ∧ ∀ d ∈ more, ContinuesName d) ∧
    text ≠ "export"

/-- A lexeme that can be written in a script. -/
def IsWritable : Lexeme → Prop
  | number value => value.toNat ≤ 2147483648
  | name text => IsNameText text
  | endOfFile => False
  | _ => True

/-- Whether a lexeme is a word, a number or the reserved word, which would run on into each
other. -/
def isWord : Lexeme → Bool
  | number _ => true
  | name _ => true
  | exportWord => true
  | _ => false

end Lexeme

/-- Some lexemes, and what is written around them. -/
structure Layout where
  /-- The lexemes, each with the trivia before it. -/
  items : List (List Trivia × Lexeme)
  /-- The trivia behind the last lexeme. -/
  ending : List Trivia
  /-- The body of a line comment that the end of the script closes, if there is one. -/
  lastComment : Option { body : List Char // '\n' ∉ body }
  /-- The lexemes can be written. -/
  writable : ∀ item ∈ items, item.2.IsWritable
  /-- Lexemes that would run on into each other stand apart. -/
  apart : items.IsChain fun left right => left.2.isWord → right.2.isWord → right.1 ≠ []

namespace Layout

/-- The lexemes of a layout. -/
def lexemes (layout : Layout) : List Lexeme :=
  layout.items.map (·.2)

/-- How some trivia are written, one after the other. -/
def gapText (gap : List Trivia) : List Char :=
  gap.flatMap Trivia.text

/-- How a lexeme is written with the trivia before it. -/
def itemText (item : List Trivia × Lexeme) : List Char :=
  gapText item.1 ++ item.2.render.toList

/-- How a line comment at the end is written. -/
def lastText (layout : Layout) : List Char :=
  layout.lastComment.elim [] fun body => ['/', '/'] ++ body.val

/-- The script that is laid out. -/
def text (layout : Layout) : List Char :=
  layout.items.flatMap itemText ++ gapText layout.ending ++ layout.lastText

end Layout

/-! ## The pieces of a layout -/

open Piece (split Stops)

/-- The pieces of trivia; the newline behind a line comment is a piece of its own. -/
def Trivia.pieces : Trivia → List Piece
  | blank char _ => [.blank [char]]
  | lineComment body _ => [.blank ('/' :: '/' :: body), .blank ['\n']]
  | blockComment body _ => [.blank ('/' :: '*' :: (body ++ ['*', '/']))]

/-- Trivia are cut off whatever follows them. -/
theorem Trivia.split_text (trivia : Trivia) (rest : List Char) :
    split (trivia.text ++ rest) = trivia.pieces ++ split rest := by
  cases trivia with
  | blank char isBlank =>
    exact Piece.split_of_first (Piece.first_blank (Piece.isBlank_iff.mpr isBlank) rest)
  | lineComment body oneLine =>
    have ends : ∀ c ∈ ('\n' :: rest).head?, c = '\n' := by simp
    have comment := Piece.first_lineComment oneLine ends
    have newline := Piece.first_blank (c := '\n') (by decide) rest
    simp only [text, pieces, List.cons_append, List.nil_append, List.append_assoc]
    rw [Piece.split_of_first comment, Piece.split_of_first newline]
  | blockComment body unclosed =>
    have comment := Piece.first_blockComment unclosed rest
    simp only [text, pieces, List.cons_append, List.nil_append, List.append_assoc]
    rw [Piece.split_of_first comment]

theorem Layout.split_gapText (gap : List Trivia) (rest : List Char) :
    split (gapText gap ++ rest) = gap.flatMap Trivia.pieces ++ split rest := by
  induction gap with
  | nil => rfl
  | cons trivia gap ih =>
    have split : gapText (trivia :: gap) = trivia.text ++ gapText gap := rfl
    rw [split, List.append_assoc, Trivia.split_text, ih, List.flatMap_cons, List.append_assoc]

/-- The value of the digits of a number is the number. -/
theorem Piece.decimalValue_toDigits (n : Nat) : decimalValue (Nat.toDigits 10 n) = n :=
  Nat.ofDigitChars_ten_toDigits

namespace Lexeme

theorem isLetter_of_beginsName {c : Char} (begins : BeginsName c) : Piece.isLetter c :=
  Piece.isLetter_iff.mpr begins

theorem isWordChar_of_continuesName {c : Char} (continues : ContinuesName c) :
    Piece.isWordChar c := by
  rw [Piece.isWordChar, Bool.or_eq_true]
  exact continues.imp Piece.isLetter_iff.mpr Piece.isDigit_iff.mpr

/-- A lexeme that can be written is cut off as one piece, if it does not run on. -/
theorem split_render {lexeme : Lexeme} (writable : lexeme.IsWritable) {rest : List Char}
    (stops : lexeme.isWord → Stops rest) :
    split (lexeme.render.toList ++ rest) =
      .lexeme lexeme lexeme.render.toList :: split rest := by
  cases lexeme with
  | number value =>
    have digits : (number value).render.toList = Nat.toDigits 10 value.toNat := Nat.toList_repr
    have all : ∀ d ∈ Nat.toDigits 10 value.toNat, d.isDigit := fun d member =>
      Nat.isDigit_of_mem_toDigits (by decide) (by decide) member
    have counted := Piece.decimalValue_toDigits value.toNat
    rw [digits]
    obtain ⟨c, more, shape⟩ := List.exists_cons_of_ne_nil (Nat.toDigits_ne_nil (n := value.toNat))
    rw [shape] at all counted ⊢
    obtain ⟨first, others⟩ := List.forall_mem_cons.mp all
    have small : value.toNat ≤ Piece.largestNumber := writable
    have piece := Piece.first_number first others (stops rfl)
    rw [counted, if_pos small, UInt32.ofNat_toNat] at piece
    exact Piece.split_of_first piece
  | name text =>
    obtain ⟨⟨c, more, shape, begins, continues⟩, free⟩ := writable
    have written : (name text).render.toList = c :: more := shape
    have piece := Piece.first_word (isLetter_of_beginsName begins)
      (fun d member => isWordChar_of_continuesName (continues d member)) (stops rfl)
    have spelled : ofWord (String.ofList (c :: more)) = name text := by
      rw [← shape, String.ofList_toList, ofWord, keyword?, if_neg free]
      rfl
    rw [spelled] at piece
    rw [written]
    exact Piece.split_of_first piece
  | exportWord =>
    have letters : ∀ d ∈ ['x', 'p', 'o', 'r', 't'], Piece.isWordChar d :=
      List.all_eq_true.mp (by decide)
    exact Piece.split_of_first (Piece.first_word (c := 'e') (by decide) letters (stops rfl))
  | endOfFile => exact writable.elim
  | leftParen | rightParen | comma | semicolon | equals | minus =>
    exact Piece.split_of_first (Piece.first_mark rfl rest)

/-- A mark ends what stands before it. -/
theorem stops_render {lexeme : Lexeme} (writable : lexeme.IsWritable) (mark : ¬lexeme.isWord)
    (rest : List Char) : Stops (lexeme.render.toList ++ rest) := by
  intro c head
  cases lexeme with
  | number | name | exportWord => exact absurd rfl mark
  | endOfFile => exact writable.elim
  | leftParen | rightParen | comma | semicolon | equals | minus =>
    cases head
    decide

end Lexeme

namespace Layout

/-- Trivia end what stands before them. -/
theorem stops_gapText {gap : List Trivia} {rest : List Char} (empty : gap = [] → Stops rest) :
    Stops (gapText gap ++ rest) := by
  cases gap with
  | nil => exact empty rfl
  | cons trivia gap =>
    intro c head
    apply Piece.not_isWordChar_of_isBlank
    cases trivia with
    | blank char isBlank =>
      cases head
      exact .inl (Piece.isBlank_iff.mpr isBlank)
    | lineComment | blockComment =>
      cases head
      exact .inr rfl

/-- The pieces of a lexeme with the trivia before it. -/
def itemPieces (item : List Trivia × Lexeme) : List Piece :=
  item.1.flatMap Trivia.pieces ++ [.lexeme item.2 item.2.render.toList]

/-- Lexemes that stand apart are cut off one by one, with the trivia before them. -/
theorem split_items {items : List (List Trivia × Lexeme)} {after : List Char}
    (writable : ∀ item ∈ items, item.2.IsWritable)
    (apart : items.IsChain fun left right => left.2.isWord → right.2.isWord → right.1 ≠ [])
    (stops : Stops after) :
    split (items.flatMap itemText ++ after) = items.flatMap itemPieces ++ split after := by
  induction items with
  | nil => rfl
  | cons item items ih =>
    obtain ⟨here, later⟩ := List.forall_mem_cons.mp writable
    -- behind a word stand trivia, a mark or the end
    have ends : item.2.isWord → Stops (items.flatMap itemText ++ after) := by
      intro word
      cases items with
      | nil => exact stops
      | cons next items =>
        have separate := (List.isChain_cons_cons.mp apart).1 word
        rw [List.flatMap_cons, List.append_assoc, itemText, List.append_assoc]
        apply stops_gapText
        intro adjacent
        exact Lexeme.stops_render (List.forall_mem_cons.mp later).1
          (fun wordToo => separate wordToo adjacent) _
    rw [List.flatMap_cons, itemText, List.append_assoc, List.append_assoc, split_gapText,
      Lexeme.split_render here ends, ih later apart.tail, List.flatMap_cons, itemPieces]
    simp

/-- The pieces of a layout. -/
def pieces (layout : Layout) : List Piece :=
  layout.items.flatMap itemPieces ++ layout.ending.flatMap Trivia.pieces ++
    (layout.lastComment.elim [] fun body => [.blank ('/' :: '/' :: body.val)])

/-- A script that is laid out is cut into the pieces of its layout. -/
theorem split_text (layout : Layout) : split layout.text = layout.pieces := by
  have last : split layout.lastText =
      layout.lastComment.elim [] fun body => [.blank ('/' :: '/' :: body.val)] := by
    rw [lastText]
    cases layout.lastComment with
    | none => exact Piece.split_nil
    | some body =>
      have ends : ∀ c ∈ ([] : List Char).head?, c = '\n' := by simp
      have comment := Piece.first_lineComment body.property ends
      rw [List.append_nil] at comment
      exact (Piece.split_of_first comment).trans (by rw [Piece.split_nil]; rfl)
  have lastStops : Stops layout.lastText := by
    rw [lastText]
    cases layout.lastComment with
    | none => exact nofun
    | some body =>
      intro c head
      cases head
      decide
  have stops : Stops (gapText layout.ending ++ layout.lastText) :=
    stops_gapText fun _ => lastStops
  rw [text, List.append_assoc, split_items layout.writable layout.apart stops, split_gapText, last,
    pieces, List.append_assoc]

end Layout

/-! ## Walking over pieces without problems -/

namespace Piece

/-- The lexeme of a piece, if it is one. -/
def lexeme? : Piece → Option Lexeme
  | .lexeme found _ => some found
  | _ => none

/-- A piece without a problem is blank or a lexeme. -/
def IsClean : Piece → Prop
  | .blank _ => True
  | .lexeme _ _ => True
  | _ => False

end Piece

namespace Lexer.State

/-- A piece without a problem adds its lexeme to the tokens and nothing to the findings. -/
theorem read_clean (source : SourceText) {state : State} {piece : Piece} (clean : piece.IsClean)
    (going : state.stopped = false) (none : state.findings = #[]) :
    (state.read source piece).stopped = false ∧ (state.read source piece).findings = #[] ∧
      (state.read source piece).tokens.toList.map (·.lexeme) =
        state.tokens.toList.map (·.lexeme) ++ piece.lexeme?.toList := by
  have budget : errorBudget ≠ 0 := by decide
  cases piece with
  | blank text => simp [read, going, none, Piece.lexeme?]
  | lexeme lexeme text => simp [read, take, going, none, budget, Piece.lexeme?]
  | openComment | malformedNumber | oversizedNumber | stray => exact clean.elim

/-- A walk over pieces without problems collects their lexemes. -/
theorem foldl_read_clean (source : SourceText) {pieces : List Piece}
    (clean : ∀ piece ∈ pieces, piece.IsClean) {state : State} (going : state.stopped = false)
    (none : state.findings = #[]) :
    (pieces.foldl (read source) state).findings = #[] ∧
      (pieces.foldl (read source) state).tokens.toList.map (·.lexeme) =
        state.tokens.toList.map (·.lexeme) ++ pieces.filterMap Piece.lexeme? := by
  induction pieces generalizing state with
  | nil => simp [none]
  | cons piece pieces ih =>
    obtain ⟨here, later⟩ := List.forall_mem_cons.mp clean
    obtain ⟨stillGoing, stillNone, added⟩ := read_clean source here going none
    obtain ⟨noFindings, lexemes⟩ := ih later stillGoing stillNone
    refine ⟨noFindings, ?_⟩
    rw [List.foldl_cons, lexemes, added, List.append_assoc, List.filterMap_cons]
    cases piece.lexeme? <;> rfl

end Lexer.State

/-- The pieces of trivia are blank. -/
theorem Trivia.isClean_of_mem_pieces {trivia : Trivia} {piece : Piece}
    (member : piece ∈ trivia.pieces) : piece.IsClean ∧ piece.lexeme? = none := by
  cases trivia with
  | blank | blockComment =>
    rw [List.mem_singleton.mp member]
    exact ⟨trivial, rfl⟩
  | lineComment =>
    simp only [pieces, List.mem_cons, List.not_mem_nil, or_false] at member
    rcases member with rfl | rfl <;> exact ⟨trivial, rfl⟩

namespace Layout

theorem isClean_of_mem_gap {gap : List Trivia} {piece : Piece}
    (member : piece ∈ gap.flatMap Trivia.pieces) : piece.IsClean ∧ piece.lexeme? = none := by
  obtain ⟨trivia, -, inside⟩ := List.mem_flatMap.mp member
  exact Trivia.isClean_of_mem_pieces inside

/-- The pieces of a layout have no problems. -/
theorem isClean_of_mem_pieces {layout : Layout} {piece : Piece} (member : piece ∈ layout.pieces) :
    piece.IsClean := by
  rw [pieces, List.mem_append, List.mem_append] at member
  rcases member with (listed | behind) | last
  · obtain ⟨item, -, inside⟩ := List.mem_flatMap.mp listed
    rw [itemPieces, List.mem_append, List.mem_singleton] at inside
    rcases inside with before | rfl
    · exact (isClean_of_mem_gap before).1
    · trivial
  · exact (isClean_of_mem_gap behind).1
  · cases comment : layout.lastComment with
    | none => simp [comment] at last
    | some body =>
      simp only [comment, Option.elim_some, List.mem_singleton] at last
      rw [last]
      trivial

theorem filterMap_lexeme?_gap (gap : List Trivia) :
    (gap.flatMap Trivia.pieces).filterMap Piece.lexeme? = [] :=
  List.filterMap_eq_nil_iff.mpr fun _ member => (isClean_of_mem_gap member).2

/-- The lexemes among the pieces of a layout are those that are laid out. -/
theorem filterMap_lexeme?_pieces (layout : Layout) :
    layout.pieces.filterMap Piece.lexeme? = layout.lexemes := by
  have items : (layout.items.flatMap itemPieces).filterMap Piece.lexeme? = layout.lexemes := by
    rw [lexemes]
    induction layout.items with
    | nil => rfl
    | cons item items ih =>
      rw [List.flatMap_cons, List.filterMap_append, ih, itemPieces, List.filterMap_append,
        filterMap_lexeme?_gap]
      rfl
  rw [pieces, List.filterMap_append, List.filterMap_append, items, filterMap_lexeme?_gap]
  cases layout.lastComment <;> simp [Piece.lexeme?]

/-- Whatever is written around lexemes, lexing gives them back, with one end behind them and without
a finding. -/
theorem lex_text (layout : Layout) (name : String) :
    (SourceText.ofString name (String.ofList layout.text)).lex.tokens.toList.map (·.lexeme) =
        layout.lexemes ++ [.endOfFile] ∧
      (SourceText.ofString name (String.ofList layout.text)).lex.findings = #[] := by
  have content : (SourceText.ofString name (String.ofList layout.text)).content.toList =
      layout.text := String.toList_ofList
  have start : ({} : Lexer.State).findings = #[] := rfl
  obtain ⟨findings, lexemes⟩ := Lexer.State.foldl_read_clean
    (SourceText.ofString name (String.ofList layout.text))
    (fun _ member => isClean_of_mem_pieces member) rfl start
  rw [filterMap_lexeme?_pieces] at lexemes
  rw [SourceText.lex, content, split_text]
  refine ⟨?_, findings⟩
  simp only [Lexer.State.finish, Array.toList_push, List.map_append, lexemes]
  rfl

/-- A layout without a blank that could be left out, with comments that look closed too early. -/
def tight : Layout where
  items :=
    [([.blockComment ['/'] (by decide)], .exportWord),
      ([.blank '\t' (by decide)], .name "exports"),
      ([], .comma),
      ([.lineComment ['é', '*', '/'] (by decide)], .name "_1"),
      ([], .minus),
      ([], .number 2147483648)]
  ending := [.blockComment ['*'] (by decide)]
  lastComment := some ⟨['/', '*'], by decide⟩
  writable := by
    have letters : ∀ d ∈ ['x', 'p', 'o', 'r', 't', 's'], Lexeme.ContinuesName d := by
      simp [Lexeme.ContinuesName, Lexeme.BeginsName]
    have digit : ∀ d ∈ ['1'], Lexeme.ContinuesName d := by
      simp [Lexeme.ContinuesName]
    have exports : Lexeme.IsNameText "exports" := ⟨⟨'e', _, rfl, by decide, letters⟩, by decide⟩
    have underscore : Lexeme.IsNameText "_1" := ⟨⟨'_', _, rfl, by decide, digit⟩, by decide⟩
    simp only [List.forall_mem_cons]
    exact ⟨trivial, exports, trivial, underscore, trivial, Nat.le_refl _, nofun⟩
  apart := by decide

/-- The tight layout is lexed as it was laid out. -/
theorem lex_text_tight :
    String.ofList tight.text = "/*/*/export\texports,//é*/\n_1-2147483648/***////*" ∧
      (SourceText.ofString "tight" (String.ofList tight.text)).lex.tokens.toList.map (·.lexeme) =
        [.exportWord, .name "exports", .comma, .name "_1", .minus, .number 2147483648,
          .endOfFile] :=
  ⟨by decide, (lex_text tight "tight").1⟩

end Layout

end TextureScript
