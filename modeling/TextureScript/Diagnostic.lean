import TextureScript.Source.Text

/-!
# Diagnostics

A finding is a problem at a place of a script: its code, its severity, a message and sometimes a
piece of advice. Lexing, parsing and resolving produce findings without looking at the text around
them. A diagnostic is a finding with the name of the script and the line it quotes.
-/

namespace TextureScript

/-- How serious a problem is: an error keeps a script from being compiled, a warning does not. -/
inductive Severity where
  | error
  | warning
deriving DecidableEq, Repr, Inhabited

/-- The area of the language that a problem belongs to. -/
inductive Category where
  /-- Characters, comments, literals and statements. -/
  | form
  /-- Operations and their arguments. -/
  | call
  /-- Names and their bindings. -/
  | scope
  /-- Materials, channels and outputs. -/
  | material
  /-- Limits on the script as a whole. -/
  | structural
deriving DecidableEq, Repr, Inhabited

/-- The name of a category in a report. -/
def Category.name : Category → String
  | .form => "syntax"
  | .call => "call"
  | .scope => "scope"
  | .material => "material"
  | .structural => "structure"

/-- The number that identifies a kind of problem. -/
structure Code where
  /-- The number itself; its hundreds give the category. -/
  number : UInt16
deriving DecidableEq, Repr, Inhabited

namespace Code

/-- A character or token stands where it cannot. -/
def unexpectedToken : Code := ⟨100⟩

/-- A block comment is never closed. -/
def unterminatedComment : Code := ⟨101⟩

/-- A number is malformed or too large. -/
def invalidNumber : Code := ⟨102⟩

/-- A call names no known operation. -/
def unknownFunction : Code := ⟨200⟩

/-- A call has the wrong number of arguments. -/
def arityMismatch : Code := ⟨201⟩

/-- An argument is of the wrong kind. -/
def argumentKindMismatch : Code := ⟨202⟩

/-- A name is neither bound nor an input. -/
def unresolvedIdentifier : Code := ⟨300⟩

/-- A name is bound although it already has a meaning. -/
def duplicateBinding : Code := ⟨301⟩

/-- A channel names no known material type. -/
def unknownMaterialType : Code := ⟨400⟩

/-- A material type does not list a channel. -/
def unknownChannel : Code := ⟨401⟩

/-- An output is declared twice. -/
def duplicateChannel : Code := ⟨402⟩

/-- A number is routed to an output. -/
def notAnImage : Code := ⟨403⟩

/-- A script goes beyond a fixed limit. -/
def limitExceeded : Code := ⟨500⟩

/-- The category of a code is given by its hundreds; everything outside 100 to 499 is structural. -/
def category (c : Code) : Category :=
  match c.number.toNat / 100 with
  | 1 => .form
  | 2 => .call
  | 3 => .scope
  | 4 => .material
  | _ => .structural

/-- The name of a kind of problem; a number that stands for nothing else reads as a limit. -/
def name (c : Code) : String :=
  match c.number.toNat with
  | 100 | 101 | 102 => "SyntaxError"
  | 200 => "UnknownFunction"
  | 201 => "ArityMismatch"
  | 202 => "ArgumentKindMismatch"
  | 300 => "UnresolvedIdentifier"
  | 301 => "DuplicateBinding"
  | 400 => "UnknownMaterialType"
  | 401 => "UnknownChannel"
  | 402 => "DuplicateChannel"
  | 403 => "NotAnImage"
  | _ => "LimitExceeded"

/-- A code is shown as its number after an E. -/
def render (c : Code) : String :=
  s!"E{c.number}"

end Code

/-- A problem at a place of a script. -/
structure Finding where
  /-- The kind of problem. -/
  code : Code
  /-- Whether it keeps the script from being compiled. -/
  severity : Severity := .error
  /-- What is wrong. -/
  message : String
  /-- Where it is. -/
  span : Span
  /-- What to do about it. -/
  suggestion : Option String := none
deriving DecidableEq, Repr, Inhabited

/-- A problem as it is reported, with the script's name and the line on which it begins. -/
structure Diagnostic where
  /-- The name of the script. -/
  file : String
  /-- The kind of problem. -/
  code : Code
  /-- Whether it keeps the script from being compiled. -/
  severity : Severity
  /-- The area of the language. -/
  category : Category
  /-- What is wrong. -/
  message : String
  /-- Where it is. -/
  span : Span
  /-- The line on which the problem begins. -/
  sourceLine : String
  /-- What to do about it. -/
  suggestion : Option String
deriving DecidableEq, Repr, Inhabited

/-- A finding reported under a script's name, beside the given line. -/
def Finding.inFile (f : Finding) (file sourceLine : String) : Diagnostic where
  file := file
  code := f.code
  severity := f.severity
  category := f.code.category
  message := f.message
  span := f.span
  sourceLine := sourceLine
  suggestion := f.suggestion

/-- A finding reported for a script, quoting the line on which it begins. -/
def Finding.quoted (f : Finding) (source : SourceText) : Diagnostic :=
  f.inFile source.name (source.quote f.span.start.line)

namespace Diagnostic

/-- The one-line form of a diagnostic. -/
def render (d : Diagnostic) : String :=
  s!"{d.span.render}: {d.code.render} {d.code.name} [{d.category.name}] {d.message}"

end Diagnostic

end TextureScript
