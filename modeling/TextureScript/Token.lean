import TextureScript.Source.Span

/-!
# Tokens

A lexeme is what a token says, without where it stands. The language has one reserved word, six
punctuation marks, whole numbers and names; a token stream ends with a lexeme of its own.
-/

namespace TextureScript

/-- The words and marks of the language. -/
inductive Lexeme where
  /-- A whole number, at most two to the thirty-first. -/
  | number (value : UInt32)
  /-- The name of a binding, an input, an operation, a material or a channel. -/
  | name (text : String)
  /-- The reserved word that starts an export statement. -/
  | exportWord
  | leftParen
  | rightParen
  | comma
  | semicolon
  | equals
  | minus
  /-- The end of the script. -/
  | endOfFile
deriving DecidableEq, Repr, Inhabited

namespace Lexeme

/-- How a lexeme is written, or described where nothing is written. -/
def render : Lexeme → String
  | number value => toString value
  | name text => text
  | exportWord => "export"
  | leftParen => "("
  | rightParen => ")"
  | comma => ","
  | semicolon => ";"
  | equals => "="
  | minus => "-"
  | endOfFile => "end of file"

/-- The reserved word that a text spells. -/
def keyword? (text : String) : Option Lexeme :=
  if text = "export" then some exportWord else none

/-- Whether a lexeme is a reserved word. -/
def isKeyword : Lexeme → Bool
  | exportWord => true
  | _ => false

/-- The lexeme of a word: a reserved word or a name. -/
def ofWord (text : String) : Lexeme :=
  (keyword? text).getD (name text)

/-- The lexeme of a punctuation mark. -/
def punctuation? : Char → Option Lexeme
  | '(' => some leftParen
  | ')' => some rightParen
  | ',' => some comma
  | ';' => some semicolon
  | '=' => some equals
  | '-' => some minus
  | _ => none

end Lexeme

/-- A lexeme and where it stands. -/
structure Token where
  /-- What the token says. -/
  lexeme : Lexeme
  /-- Where it stands. -/
  span : Span
deriving DecidableEq, Repr, Inhabited

end TextureScript
