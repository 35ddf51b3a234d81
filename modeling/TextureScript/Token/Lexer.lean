import TextureScript.Diagnostic.Report
import TextureScript.Token.Piece

/-!
# Lexing

The lexer walks over the pieces of a script with a running byte offset. Lexemes become tokens,
malformed and oversized numbers become a token for zero and an error, stray characters become
errors. Once the error budget is spent the token stream ends before the next piece that is not
blank, so an unclosed comment is the only thing that can still be reported then.
-/

namespace TextureScript

/-- The number of errors after which lexing and parsing give up. -/
def errorBudget : Nat := Report.capacity

/-- A token stream and the problems found while making it. -/
structure Lexed where
  /-- The tokens, the last of which marks the end. -/
  tokens : Array Token
  /-- The problems, in script order. -/
  findings : Array Finding
deriving Repr, Inhabited

namespace Lexer

/-- How far lexing has come. -/
structure State where
  /-- The byte offset of the next piece. -/
  offset : Nat := 0
  /-- The tokens so far. -/
  tokens : Array Token := #[]
  /-- The problems so far. -/
  findings : Array Finding := #[]
  /-- Whether lexing has given up. -/
  stopped : Bool := false
deriving Repr, Inhabited

/-- The problem of a comment that is never closed, at its two opening characters. -/
def openCommentFinding (source : SourceText) (offset : Nat) : Finding where
  code := .unterminatedComment
  message := "Unterminated block comment"
  span := source.span offset (offset + 2)
  suggestion := some "Close the comment with */"

/-- The problem of a number that runs on into letters or points. -/
def malformedNumberFinding (text : List Char) (span : Span) : Finding where
  code := .invalidNumber
  message :=
    s!"Invalid number literal '{String.ofList text}': only whole numbers are supported"
  span := span

/-- The problem of a number that is too large. -/
def oversizedNumberFinding (text : List Char) (span : Span) : Finding where
  code := .invalidNumber
  message := s!"Number literal '{String.ofList text}' does not fit in a 32-bit integer"
  span := span

/-- The problem of a character that begins nothing. -/
def strayFinding (char : Char) (span : Span) : Finding where
  code := .unexpectedToken
  message := s!"Unexpected character '{char}'"
  span := span

/-- Pass a piece that is not blank, which ends at `stop` and leaves a token, a problem or both. Once
the error budget is spent the walk ends before it instead. -/
def State.take (state : State) (stop : Nat) (token : Option Token) (finding : Option Finding) :
    State :=
  if errorBudget ≤ state.findings.size then { state with stopped := true }
  else
    { state with
      offset := stop
      tokens := match token with
        | some token => state.tokens.push token
        | none => state.tokens
      findings := match finding with
        | some finding => state.findings.push finding
        | none => state.findings }

/-- Pass the next piece. -/
def State.read (source : SourceText) (state : State) (piece : Piece) : State :=
  if state.stopped then state
  else
    let stop := state.offset + byteLength piece.text
    let span := source.span state.offset stop
    match piece with
    | .blank _ => { state with offset := stop }
    | .openComment _ =>
      { state with
        offset := stop
        findings := state.findings.push (openCommentFinding source state.offset) }
    | .lexeme lexeme _ => state.take stop (some ⟨lexeme, span⟩) none
    | .malformedNumber text =>
      state.take stop (some ⟨.number 0, span⟩) (some (malformedNumberFinding text span))
    | .oversizedNumber text =>
      state.take stop (some ⟨.number 0, span⟩) (some (oversizedNumberFinding text span))
    | .stray char => state.take stop none (some (strayFinding char span))

/-- The tokens and problems of a finished walk; the stream ends where the walk did. -/
def State.finish (source : SourceText) (state : State) : Lexed where
  tokens := state.tokens.push ⟨.endOfFile, source.span state.offset state.offset⟩
  findings := state.findings

end Lexer

/-- The tokens of a script. -/
def SourceText.lex (source : SourceText) : Lexed :=
  ((Piece.split source.content.toList).foldl (Lexer.State.read source) {}).finish source

end TextureScript
