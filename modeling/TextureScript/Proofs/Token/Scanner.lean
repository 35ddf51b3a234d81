import TextureScript.Proofs.Token.Tiling

/-!
# Scanning token by token

A script can also be lexed by calls for the next token, up to the call that gives the end mark. Such
a call passes blanks and comments, gives the end mark when the error budget is spent or nothing is
ahead, and otherwise takes what stands next. Behind a character that begins nothing it calls itself.
Loops and nested calls are given limits here and fail beyond them, so that the limits that suffice
say how long scanning goes on and how deep its calls nest: a call that gives a token uses characters
up, and a nested call comes after one more problem. Scanning within these limits is lexing.
-/

namespace TextureScript

/-- Blanks and comments, which are passed on the way to a token. -/
def Piece.isTrivia : Piece → Bool
  | .blank _ => true
  | .openComment _ => true
  | _ => false

namespace Lexer

/-- Where scanning stands in a text, what is ahead, and the problems that are recorded so far. -/
structure Scanner where
  /-- The byte offset of what is ahead. -/
  offset : Nat := 0
  /-- The characters ahead. -/
  ahead : List Char
  /-- The problems so far. -/
  findings : Array Finding := #[]

namespace Scanner

/-- The scanner behind some characters. -/
def pass (scanner : Scanner) (text rest : List Char) : Scanner :=
  { scanner with offset := scanner.offset + byteLength text, ahead := rest }

/-- The scanner with one more problem. -/
def record (scanner : Scanner) (finding : Finding) : Scanner :=
  { scanner with findings := scanner.findings.push finding }

/-- The end mark where the scanner stands. -/
def endMark (source : SourceText) (scanner : Scanner) : Token :=
  ⟨.endOfFile, source.span scanner.offset scanner.offset⟩

/-- Pass blanks and comments, in at most the given number of turns. -/
def skip? (source : SourceText) : (turns : Nat) → Scanner → Option Scanner
  | 0, _ => none
  | turns + 1, scanner =>
    match scanner.ahead with
    | [] => some scanner
    | c :: cs =>
      match Piece.first c cs with
      | (.blank text, rest) => skip? source turns (scanner.pass text rest)
      | (.openComment text, rest) =>
        skip? source turns
          ((scanner.pass text rest).record (openCommentFinding source scanner.offset))
      | _ => some scanner

/-- Take the token that stands next behind blanks and comments. Behind a character that begins
nothing it is called for `again`. -/
def take? (source : SourceText) (again : Scanner → Option (Token × Scanner))
    (scanner : Scanner) : Option (Token × Scanner) :=
  if errorBudget ≤ scanner.findings.size then some (scanner.endMark source, scanner)
  else
    match scanner.ahead with
    | [] => some (scanner.endMark source, scanner)
    | c :: cs =>
      let next := scanner.pass (Piece.first c cs).1.text (Piece.first c cs).2
      let span := source.span scanner.offset next.offset
      match (Piece.first c cs).1 with
      | .lexeme lexeme _ => some (⟨lexeme, span⟩, next)
      | .malformedNumber text =>
        some (⟨.number 0, span⟩, next.record (malformedNumberFinding text span))
      | .oversizedNumber text =>
        some (⟨.number 0, span⟩, next.record (oversizedNumberFinding text span))
      | .stray char => again (next.record (strayFinding char span))
      | _ => none

/-- A call for the next token that makes at most the given number of calls of itself, each inside
the one before. -/
def scan? (source : SourceText) (turns : Nat) : (depth : Nat) → Scanner → Option (Token × Scanner)
  | 0, scanner => (scanner.skip? source turns).bind (take? source fun _ => none)
  | depth + 1, scanner =>
    (scanner.skip? source turns).bind (take? source (scan? source turns depth))

/-- Call for tokens up to the end mark, in at most the given number of calls. -/
def scanAll? (source : SourceText) (turns depth : Nat) :
    (calls : Nat) → Scanner → Option (List Token × Scanner)
  | 0, _ => none
  | calls + 1, scanner =>
    match scanner.scan? source turns depth with
    | none => none
    | some (token, next) =>
      if token.lexeme = .endOfFile then some ([token], next)
      else (scanAll? source turns depth calls next).map fun later => (token :: later.1, later.2)

end Scanner

end Lexer

/-- Lex a text by calls for tokens, with at most `turns` turns of each loop and calls of themselves
that nest at most `depth` deep. -/
def SourceText.scan? (source : SourceText) (turns depth : Nat) : Option Lexed :=
  (Lexer.Scanner.scanAll? source turns depth turns { ahead := source.content.toList }).map
    fun scanned => ⟨scanned.1.toArray, scanned.2.findings⟩

namespace Lexer

variable {source : SourceText}

/-! ## One step of the walk -/

namespace State

variable {state state' : State} {piece : Piece} {ahead ahead' : List Char}

/-- The scanner that stands where the walk has come to. -/
def scanner (state : State) (ahead : List Char) : Scanner :=
  ⟨state.offset, ahead, state.findings⟩

theorem size_findings_read (source : SourceText) (state : State) (piece : Piece) :
    state.findings.size ≤ (state.read source piece).findings.size := by
  have taken (stop : Nat) (token : Option Token) (finding : Option Finding) :
      state.findings.size ≤ (state.take stop token finding).findings.size := by
    unfold take
    split
    · exact Nat.le_refl _
    · cases finding with
      | none => exact Nat.le_refl _
      | some finding => exact (Array.size_push finding).symm ▸ Nat.le_succ _
  unfold read
  split
  · exact Nat.le_refl _
  · cases piece with
    | blank => exact Nat.le_refl _
    | openComment => exact (Array.size_push _).symm ▸ Nat.le_succ _
    | lexeme | malformedNumber | oversizedNumber | stray => exact taken _ _ _

/-- A walk whose error budget is spent stops before anything but blanks and comments. -/
theorem read_of_spent (source : SourceText) (going : state.stopped = false)
    (spent : errorBudget ≤ state.findings.size) (solid : piece.isTrivia = false) :
    state.read source piece = { state with stopped := true } := by
  cases piece with
  | blank | openComment => cases solid
  | lexeme | malformedNumber | oversizedNumber | stray =>
    simp only [read, going, Bool.false_eq_true, ↓reduceIte, take, if_pos spent]

/-- The walk from one state and text comes to the same end as from another. -/
structure Continues (source : SourceText) (state : State) (ahead : List Char) (state' : State)
    (ahead' : List Char) : Prop where
  /-- It has not stopped. -/
  going : state'.stopped = false
  /-- The end is the same. -/
  walk : (Piece.split ahead).foldl (read source) state =
    (Piece.split ahead').foldl (read source) state'
  /-- Characters are only used up. -/
  length : ahead'.length ≤ ahead.length
  /-- Problems are only added. -/
  findings : state.findings.size ≤ state'.findings.size

theorem Continues.refl (source : SourceText) (going : state.stopped = false) (ahead : List Char) :
    Continues source state ahead state ahead :=
  ⟨going, rfl, Nat.le_refl _, Nat.le_refl _⟩

theorem Continues.trans {state'' : State} {ahead'' : List Char}
    (first : Continues source state ahead state' ahead')
    (second : Continues source state' ahead' state'' ahead'') :
    Continues source state ahead state'' ahead'' :=
  ⟨second.going, first.walk.trans second.walk, Nat.le_trans second.length first.length,
    Nat.le_trans first.findings second.findings⟩

/-- The walk goes on behind the first piece of a text, with less text ahead. -/
theorem continues_first {c : Char} {cs rest : List Char} (begins : Piece.first c cs = (piece, rest))
    (going : (state.read source piece).stopped = false) :
    Continues source state (c :: cs) (state.read source piece) rest ∧
      rest.length < (c :: cs).length := by
  have shorter : rest.length < (c :: cs).length := by
    have used := Piece.first_rest_length_lt c cs
    rwa [begins] at used
  refine ⟨⟨going, ?_, Nat.le_of_lt shorter, size_findings_read source state piece⟩, shorter⟩
  rw [Piece.split_of_first begins, List.foldl_cons]

end State

/-! ## Calls within their limits -/

namespace Scanner

variable {state : State} {ahead rest cs : List Char} {c : Char} {piece : Piece}

/-- A blank or a comment is passed in one turn. -/
theorem skip?_trivia (source : SourceText) (going : state.stopped = false)
    (begins : Piece.first c cs = (piece, rest)) (trivia : piece.isTrivia = true) (turns : Nat) :
    (state.scanner (c :: cs)).skip? source (turns + 1) =
        ((state.read source piece).scanner rest).skip? source turns ∧
      (state.read source piece).stopped = false ∧
      (state.read source piece).tokens = state.tokens := by
  cases piece with
  | blank text =>
    have step : state.read source (.blank text) =
        { state with offset := state.offset + byteLength text } := by
      simp only [State.read, going, Bool.false_eq_true, ↓reduceIte, Piece.text]
    rw [step]
    exact ⟨by simp only [skip?, State.scanner, begins, pass], going, rfl⟩
  | openComment text =>
    have step : state.read source (.openComment text) =
        { state with
          offset := state.offset + byteLength text
          findings := state.findings.push (openCommentFinding source state.offset) } := by
      simp only [State.read, going, Bool.false_eq_true, ↓reduceIte, Piece.text]
    rw [step]
    exact ⟨by simp only [skip?, State.scanner, begins, pass, record], going, rfl⟩
  | lexeme | malformedNumber | oversizedNumber | stray => cases trivia

/-- Anything else stays ahead. -/
theorem skip?_solid (begins : Piece.first c cs = (piece, rest)) (solid : piece.isTrivia = false)
    (turns : Nat) :
    (state.scanner (c :: cs)).skip? source (turns + 1) = some (state.scanner (c :: cs)) := by
  cases piece with
  | blank | openComment => cases solid
  | lexeme | malformedNumber | oversizedNumber | stray => simp only [skip?, State.scanner, begins]

/-- Passing blanks and comments takes at most one turn more than there are characters. -/
theorem exists_skip? (source : SourceText) {turns : Nat} (going : state.stopped = false)
    (room : ahead.length < turns) :
    ∃ state' ahead', (state.scanner ahead).skip? source turns = some (state'.scanner ahead') ∧
      State.Continues source state ahead state' ahead' ∧ state'.tokens = state.tokens ∧
      ∀ c cs, ahead' = c :: cs → (Piece.first c cs).1.isTrivia = false := by
  induction turns generalizing state ahead with
  | zero => exact absurd room (Nat.not_lt_zero _)
  | succ turns ih =>
    cases ahead with
    | nil => exact ⟨state, [], rfl, .refl source going [], rfl, nofun⟩
    | cons c cs =>
      have begins : Piece.first c cs = ((Piece.first c cs).1, (Piece.first c cs).2) := rfl
      cases kind : (Piece.first c cs).1.isTrivia with
      | true =>
        obtain ⟨turn, passed, silent⟩ := skip?_trivia source going begins kind turns
        obtain ⟨here, shorter⟩ := State.continues_first begins passed
        have fewer : (Piece.first c cs).2.length < turns := by omega
        obtain ⟨state', ahead', found, there, tokens, solid⟩ := ih passed fewer
        exact ⟨state', ahead', turn.trans found, here.trans there, tokens.trans silent, solid⟩
      | false =>
        refine ⟨state, c :: cs, skip?_solid begins kind turns, .refl source going _, rfl, ?_⟩
        rintro _ _ ⟨⟩
        exact kind

/-- What a call for the next token answers, where the walk has come to a state with some text
ahead. -/
inductive Answers (source : SourceText) (state : State) (ahead : List Char) :
    Option (Token × Scanner) → Prop where
  /-- A token, and the walk goes on behind it. -/
  | token {token : Token} {state' : State} {ahead' : List Char}
      (inner : token.lexeme ≠ .endOfFile) (pushed : state'.tokens = state.tokens.push token)
      (goesOn : State.Continues source state ahead state' ahead')
      (shorter : ahead'.length < ahead.length) :
      Answers source state ahead (some (token, state'.scanner ahead'))
  /-- The end mark, and the walk has no more tokens. -/
  | last {final : State} {scanner : Scanner}
      (walk : (Piece.split ahead).foldl (State.read source) state = final)
      (tokens : final.tokens = state.tokens) (offset : scanner.offset = final.offset)
      (findings : scanner.findings = final.findings) :
      Answers source state ahead (some (scanner.endMark source, scanner))

theorem Answers.of_continues {state' : State} {ahead' : List Char}
    {answer : Option (Token × Scanner)}
    (goesOn : State.Continues source state ahead state' ahead')
    (tokens : state'.tokens = state.tokens) (answers : Answers source state' ahead' answer) :
    Answers source state ahead answer := by
  cases answers with
  | token inner pushed later shorter =>
    exact .token inner (tokens ▸ pushed) (goesOn.trans later)
      (Nat.lt_of_lt_of_le shorter goesOn.length)
  | last walk none offset findings =>
    exact .last (goesOn.walk.trans walk) (none.trans tokens) offset findings

/-- The walk ends where nothing but the end mark can be taken. -/
theorem Answers.of_spent (going : state.stopped = false)
    (spent : errorBudget ≤ state.findings.size)
    (solid : ∀ c cs, ahead = c :: cs → (Piece.first c cs).1.isTrivia = false) :
    Answers source state ahead
      (some ((state.scanner ahead).endMark source, state.scanner ahead)) := by
  cases ahead with
  | nil => exact .last (congrArg (List.foldl _ state) Piece.split_nil) rfl rfl rfl
  | cons c cs =>
    have begins : Piece.first c cs = ((Piece.first c cs).1, (Piece.first c cs).2) := rfl
    have stops : state.read source (Piece.first c cs).1 = { state with stopped := true } :=
      State.read_of_spent source going spent (solid c cs rfl)
    have walk : (Piece.split (c :: cs)).foldl (State.read source) state =
        { state with stopped := true } := by
      rw [Piece.split_of_first begins, List.foldl_cons, stops]
      exact State.foldl_stopped source rfl _
    exact .last walk rfl rfl rfl

/-- A piece that makes a token is passed by the walk and taken by a call alike. -/
theorem take?_of_said (source : SourceText) (again : Scanner → Option (Token × Scanner))
    (going : state.stopped = false) (room : ¬errorBudget ≤ state.findings.size)
    (begins : Piece.first c cs = (piece, rest)) {lexeme : Lexeme}
    (said : piece.said? = some lexeme) :
    ∃ token : Token, token.lexeme = lexeme ∧
      (state.scanner (c :: cs)).take? source again =
        some (token, (state.read source piece).scanner rest) ∧
      (state.read source piece).stopped = false ∧
      (state.read source piece).tokens = state.tokens.push token := by
  refine ⟨⟨lexeme, source.span state.offset (state.offset + byteLength piece.text)⟩, rfl, ?_⟩
  cases piece with
  | blank | openComment | stray => cases said
  | lexeme | malformedNumber | oversizedNumber =>
    cases said
    simp only [take?, State.scanner, if_neg room, begins, State.read, going, Bool.false_eq_true,
      ↓reduceIte, State.take, pass, record, and_self]

/-- A character that begins nothing is passed by the walk and before the call for `again` alike. -/
theorem take?_of_stray (source : SourceText) (again : Scanner → Option (Token × Scanner))
    (going : state.stopped = false) (room : ¬errorBudget ≤ state.findings.size) {char : Char}
    (begins : Piece.first c cs = (.stray char, rest)) :
    (state.scanner (c :: cs)).take? source again =
        again ((state.read source (.stray char)).scanner rest) ∧
      (state.read source (.stray char)).stopped = false ∧
      (state.read source (.stray char)).tokens = state.tokens ∧
      (state.read source (.stray char)).findings.size = state.findings.size + 1 := by
  simp only [take?, State.scanner, if_neg room, begins, State.read, going, Bool.false_eq_true,
    ↓reduceIte, State.take, pass, record, Array.size_push, and_self]

/-- A call answers, if the call of itself that it may make behind one more problem does. -/
theorem answers_take? {again : Scanner → Option (Token × Scanner)} (going : state.stopped = false)
    (solid : ∀ c cs, ahead = c :: cs → (Piece.first c cs).1.isTrivia = false)
    (inside : ∀ state' ahead', state'.stopped = false → ahead'.length < ahead.length →
      state.findings.size < errorBudget → state'.findings.size = state.findings.size + 1 →
        Answers source state' ahead' (again (state'.scanner ahead'))) :
    Answers source state ahead ((state.scanner ahead).take? source again) := by
  by_cases spent : errorBudget ≤ state.findings.size
  · have ends : (state.scanner ahead).take? source again =
        some ((state.scanner ahead).endMark source, state.scanner ahead) := if_pos spent
    rw [ends]
    exact .of_spent going spent solid
  · cases ahead with
    | nil =>
      have ends : (state.scanner []).take? source again =
          some ((state.scanner []).endMark source, state.scanner []) := if_neg spent
      rw [ends]
      exact .last (congrArg (List.foldl _ state) Piece.split_nil) rfl rfl rfl
    | cons c cs =>
      have nonTrivia := solid c cs rfl
      have fits := Piece.fits_first c cs
      rcases begins : Piece.first c cs with ⟨piece, rest⟩
      rw [begins] at nonTrivia fits
      cases said : piece.said? with
      | some lexeme =>
        obtain ⟨token, same, taken, passed, pushed⟩ :=
          take?_of_said source again going spent begins said
        obtain ⟨goesOn, shorter⟩ := State.continues_first begins passed
        have inner : token.lexeme ≠ .endOfFile := by
          rw [same]
          cases fits with
          | blank | lineComment | blockComment | openComment | stray => cases said
          | malformedNumber | oversizedNumber =>
            cases said
            exact nofun
          | lexeme denoted =>
            cases said
            exact denoted.ne_endOfFile
        rw [taken]
        exact .token inner pushed goesOn shorter
      | none =>
        cases piece with
        | blank | openComment => cases nonTrivia
        | lexeme | malformedNumber | oversizedNumber => cases said
        | stray char =>
          obtain ⟨taken, passed, silent, more⟩ :=
            take?_of_stray source again going spent begins
          obtain ⟨goesOn, shorter⟩ := State.continues_first begins passed
          rw [taken]
          exact (inside _ rest passed shorter (Nat.lt_of_not_le spent) more).of_continues goesOn
            silent

/-- A call for the next token answers when it may call itself once for each problem that is still
allowed. -/
theorem answers_scan? (source : SourceText) {turns depth : Nat} (going : state.stopped = false)
    (room : ahead.length < turns) (enough : errorBudget ≤ state.findings.size + depth) :
    Answers source state ahead ((state.scanner ahead).scan? source turns depth) := by
  induction depth generalizing state ahead with
  | zero =>
    obtain ⟨state', ahead', skipped, goesOn, tokens, solid⟩ := exists_skip? source going room
    have grown := goesOn.findings
    rw [scan?, skipped, Option.bind_some]
    refine (answers_take? goesOn.going solid ?_).of_continues goesOn tokens
    intro _ _ _ _ affordable
    omega
  | succ depth ih =>
    obtain ⟨state', ahead', skipped, goesOn, tokens, solid⟩ := exists_skip? source going room
    have grown := goesOn.findings
    have used := goesOn.length
    rw [scan?, skipped, Option.bind_some]
    refine (answers_take? goesOn.going solid ?_).of_continues goesOn tokens
    intro state'' ahead'' stillGoing shorter affordable more
    exact ih stillGoing (by omega) (by omega)

/-- Calling for tokens gives those that the walk still makes, and then the end mark. -/
theorem exists_scanAll? (source : SourceText) {turns depth calls : Nat}
    (going : state.stopped = false) (room : ahead.length < turns)
    (enough : errorBudget ≤ state.findings.size + depth) (often : ahead.length < calls) :
    ∃ tokens last, (state.scanner ahead).scanAll? source turns depth calls = some (tokens, last) ∧
      state.tokens.toList ++ tokens =
        (((Piece.split ahead).foldl (State.read source) state).finish source).tokens.toList ∧
      last.findings = ((Piece.split ahead).foldl (State.read source) state).findings := by
  induction calls generalizing state ahead with
  | zero => exact absurd often (Nat.not_lt_zero _)
  | succ calls ih =>
    have answers := answers_scan? source going room enough
    rw [scanAll?]
    generalize (state.scanner ahead).scan? source turns depth = answer at answers
    cases answers with
    | @token token state' ahead' inner pushed goesOn shorter =>
      have grown := goesOn.findings
      have fewer : ahead'.length < turns := by omega
      have seldom : ahead'.length < calls := by omega
      obtain ⟨tokens, last, found, all, findings⟩ := ih goesOn.going fewer (by omega) seldom
      refine ⟨token :: tokens, last, ?_, ?_, ?_⟩
      · refine (if_neg inner).trans ?_
        rw [found, Option.map_some]
      · rw [goesOn.walk, ← all, pushed, Array.toList_push, List.append_assoc]
        rfl
      · rw [goesOn.walk, findings]
    | @last final scanner walk tokens offset findings =>
      refine ⟨[scanner.endMark source], scanner, ?_, ?_, ?_⟩
      · exact if_pos rfl
      · rw [walk, State.finish, Array.toList_push, tokens, endMark, offset]
      · rw [walk, findings]

end Scanner

end Lexer

/-- Scanning token by token is lexing, when each loop may take one turn more than there are
characters and the calls for a token may nest as deep as there may be problems. -/
theorem SourceText.scan?_eq_lex (source : SourceText) :
    source.scan? (source.content.length + 1) errorBudget = some source.lex := by
  have room : source.content.toList.length < source.content.length + 1 := by
    rw [String.length_toList]
    exact Nat.lt_succ_self _
  have enough : errorBudget ≤ ({} : Lexer.State).findings.size + errorBudget := Nat.le_add_left _ _
  obtain ⟨tokens, last, found, all, findings⟩ :=
    Lexer.Scanner.exists_scanAll? source rfl room enough room
  have same : (⟨tokens.toArray, last.findings⟩ : Lexed) = source.lex := by
    rw [SourceText.lex, findings]
    exact congrArg (fun tokens => Lexed.mk tokens _) (congrArg List.toArray all)
  rw [scan?]
  exact (congrArg (Option.map _) found).trans (congrArg some same)

end TextureScript
