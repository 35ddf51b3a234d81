import TextureScript.Script
import TextureScript.Token.Lexer

/-!
# Parsing

A reader walks over the tokens ahead of it and comes back with a value or a problem, and with the
tokens that it left. These are a suffix of what it was given in either case, which is why the
readers terminate. Past the end of a stream its last token is seen again and again.

A statement that cannot be read is one problem, reported where the reader stopped. Parsing then
skips to the next semicolon and goes on behind it, until the stream ends or the error budget is
spent.
-/

namespace TextureScript

namespace Parser

/-- The most levels of calls within calls that a value may have, counting the value itself. -/
def maxDepth : Nat := 16

/-- What came of reading: a value or a problem, and the tokens left over. -/
structure Reading (α : Type) (given : List Token) where
  /-- What was found. -/
  result : Except Finding α
  /-- The tokens left over. -/
  rest : List Token
  /-- Tokens are used from the front. -/
  suffix : rest <:+ given

/-- A way to read a part of a script. It is told what stands past the end of the stream, and is
given the tokens ahead. -/
def Reader (α : Type) : Type :=
  (stop : Token) → (ts : List Token) → Reading α ts

namespace Reader

variable {α β : Type}

/-- Find a value without using a token. -/
protected def pure (value : α) : Reader α := fun _ ts =>
  ⟨.ok value, ts, List.suffix_refl ts⟩

/-- Go on with what a reader found, unless that is a problem. -/
protected def bind (first : Reader α) (next : α → Reader β) : Reader β := fun stop ts =>
  let found := first stop ts
  match found.result with
  | .error problem => ⟨.error problem, found.rest, found.suffix⟩
  | .ok value =>
    let more := next value stop found.rest
    ⟨more.result, more.rest, more.suffix.trans found.suffix⟩

instance : Monad Reader where
  pure := Reader.pure
  bind := Reader.bind

/-- Find a problem. -/
def fail (problem : Finding) : Reader α := fun _ ts =>
  ⟨.error problem, ts, List.suffix_refl ts⟩

/-- A reader makes progress when it finds no value without using a token. -/
def Progresses (reader : Reader α) : Prop :=
  ∀ stop ts value, (reader stop ts).result = .ok value → (reader stop ts).rest.length < ts.length

theorem Progresses.bind {first : Reader α} (progress : first.Progresses) (next : α → Reader β) :
    (first >>= next).Progresses := by
  intro stop ts value ok
  change (Reader.bind first next stop ts).result = _ at ok
  change (Reader.bind first next stop ts).rest.length < _
  simp only [Reader.bind] at ok ⊢
  split at ok
  · cases ok
  · rename_i value found
    exact Nat.lt_of_le_of_lt (next value stop _).suffix.length_le (progress stop ts value found)

end Reader

/-- The token that stands next, which past the last one is the last one again. -/
def current (stop : Token) (ts : List Token) : Token :=
  ts.headD stop

/-- The lexeme after the one that stands next. -/
def following (ts : List Token) : Lexeme :=
  (ts[1]?.map (·.lexeme)).getD .endOfFile

/-- Choose how to read by the lexeme that stands next and the one after it. -/
def choose {α : Type} (form : Lexeme → Lexeme → Reader α) : Reader α := fun stop ts =>
  form (current stop ts).lexeme (following ts) stop ts

/-- The problem that something else was expected next. -/
def unexpectedFinding (stop : Token) (ts : List Token) (expected : String) : Finding where
  code := .unexpectedToken
  message := s!"expected {expected}, got '{(current stop ts).lexeme.render}'"
  span := (current stop ts).span

/-- Find that something else was expected next. -/
def unexpected {α : Type} (expected : String) : Reader α := fun stop ts =>
  Reader.fail (unexpectedFinding stop ts expected) stop ts

/-- Read one token that has a meaning. -/
def single {α : Type} (expected : String) (meaning : Token → Option α) : Reader α := fun stop ts =>
  match ts with
  | [] => unexpected expected stop []
  | t :: ts =>
    match meaning t with
    | some value => ⟨.ok value, ts, List.suffix_cons t ts⟩
    | none => unexpected expected stop (t :: ts)

/-- Where a token stands that is a given lexeme. -/
def spanOf? (lexeme : Lexeme) (t : Token) : Option Span :=
  if t.lexeme = lexeme then some t.span else none

/-- The name that a token is. -/
def name? : Token → Option Name
  | ⟨.name text, span⟩ => some ⟨text, span⟩
  | _ => none

/-- The number that a token is, and where it stands. -/
def number? : Token → Option (UInt32 × Span)
  | ⟨.number value, span⟩ => some (value, span)
  | _ => none

/-- Read one given lexeme. -/
def expect (lexeme : Lexeme) : Reader Span :=
  single s!"'{lexeme.render}'" (spanOf? lexeme)

/-- Read a name. -/
def expectName : Reader Name :=
  single "identifier" name?

/-- Read the number after a sign, or a number without one. -/
def magnitude : Reader (UInt32 × Span) :=
  single "number after '-'" number?

/-- Read items that are separated by commas, after those already read. -/
def separatedFrom {α : Type} (item : Reader α) (stop : Token) (given : List Token)
    (done : Array α) (ts : List Token) (within : ts <:+ given) : Reading (Array α) given :=
  let found := item stop ts
  match found.result with
  | .error problem => ⟨.error problem, found.rest, found.suffix.trans within⟩
  | .ok value =>
    match ahead : found.rest with
    | ⟨.comma, span⟩ :: rest =>
      have used : (⟨.comma, span⟩ :: rest) <:+ ts := ahead ▸ found.suffix
      separatedFrom item stop given (done.push value) rest
        (((List.suffix_cons _ rest).trans used).trans within)
    | _ => ⟨.ok (done.push value), found.rest, found.suffix.trans within⟩
termination_by ts.length
decreasing_by exact used.length_le

/-- Read one or more items that are separated by commas. -/
def separated {α : Type} (item : Reader α) : Reader (Array α) := fun stop ts =>
  separatedFrom item stop ts #[] ts (List.suffix_refl ts)

/-- How to read the arguments of a call that go on with the given lexeme. -/
def argumentsForm (argument : Reader Expr) : (next after : Lexeme) → Reader (List Expr)
  | .rightParen, _ => pure []
  | _, _ => do
    let args ← separated argument
    return args.toList

/-- The arguments of a call, up to its closing parenthesis. -/
def arguments (argument : Reader Expr) : Reader (List Expr) :=
  choose (argumentsForm argument)

/-- Read a call, given how to read its arguments. -/
def call (argument : Reader Expr) : Reader Expr := do
  let callee ← expectName
  let _ ← expect .leftParen
  let args ← arguments argument
  let close ← expect .rightParen
  return .call callee args (callee.span.merge close)

/-- Read a name that stands for a value. -/
def reference : Reader Expr := do
  let name ← expectName
  return .name name.text name.span

/-- The value of a number with its sign, if it is a signed 32-bit number. -/
def literal (signed : Int) (span : Span) : Reader Expr :=
  if Int32.minValue.toInt ≤ signed ∧ signed ≤ Int32.maxValue.toInt then
    pure (.number (Int32.ofInt signed) span)
  else
    Reader.fail
      { code := .invalidNumber
        message := s!"number literal {signed} does not fit in a 32-bit integer"
        span }

/-- Read a number without a sign. -/
def unsigned : Reader Expr := do
  let (value, span) ← magnitude
  literal value.toNat span

/-- Read a number with a minus sign. -/
def negated : Reader Expr := do
  let start ← expect .minus
  let (value, span) ← magnitude
  literal (-value.toNat) (start.merge span)

/-- How to read a value that begins with the given lexemes, given how to read an argument. -/
def valueForm (argument : Reader Expr) (next after : Lexeme) : Reader Expr :=
  match next with
  | .name _ =>
    match after with
    | .leftParen => call argument
    | _ => reference
  | .number _ => unsigned
  | .minus => negated
  | _ => unexpected "expression"

/-- The problem of a value with too many levels. -/
def tooDeepFinding (stop : Token) (ts : List Token) : Finding where
  code := .limitExceeded
  message := s!"maximum expression nesting depth is {maxDepth}"
  span := (current stop ts).span

/-- Read a value of at most the given number of levels. -/
def expression : (depth : Nat) → Reader Expr
  | 0 => fun stop ts => Reader.fail (tooDeepFinding stop ts) stop ts
  | depth + 1 => choose (valueForm (expression depth))

/-- Read a binding, given how to read its value. -/
def binding (value : Reader Expr) : Reader Statement := do
  let target ← expectName
  let _ ← expect .equals
  let value ← value
  let last ← expect .semicolon
  return .bind target value (target.span.merge last)

/-- Read a channel declaration, given how to read its value. -/
def channel (value : Reader Expr) : Reader Statement := do
  let start ← expect .leftParen
  let material ← expectName
  let _ ← expect .comma
  let channel ← expectName
  let _ ← expect .comma
  let materialType ← expectName
  let _ ← expect .rightParen
  let _ ← expect .equals
  let value ← value
  let last ← expect .semicolon
  return .channel material channel materialType value (start.merge last)

/-- Read an export statement. -/
def exports : Reader Statement := do
  let start ← expect .exportWord
  let names ← separated expectName
  let last ← expect .semicolon
  return .exports names.toList (start.merge last)

/-- How to read a statement that begins with the given lexemes, given how to read a value. -/
def statementForm (value : Reader Expr) : (next after : Lexeme) → Reader Statement
  | .exportWord, _ => exports
  | .leftParen, _ => channel value
  | .name _, .equals => binding value
  | _, _ => unexpected "a binding, a material channel or 'export'"

/-- Read a statement with the semicolon that ends it. -/
def statement : Reader Statement :=
  choose (statementForm (expression maxDepth))

theorem single_progresses {α : Type} (expected : String) (meaning : Token → Option α) :
    (single expected meaning).Progresses := by
  intro stop ts value ok
  cases ts with
  | nil => cases ok
  | cons t ts =>
    cases meant : meaning t with
    | none => simp [single, meant, unexpected, Reader.fail] at ok
    | some value => simp [single, meant]

/-- A statement uses at least one token. -/
theorem statement_progresses : statement.Progresses := by
  have form : ∀ next after, (statementForm (expression maxDepth) next after).Progresses := by
    intro next after
    unfold statementForm
    split
    · exact (single_progresses _ _).bind _
    · exact (single_progresses _ _).bind _
    · exact (single_progresses _ _).bind _
    · intro stop ts value ok
      cases ok
  intro stop ts
  exact form _ _ stop ts

/-- Skip the rest of a statement, with the semicolon that ends it; an end mark is not passed. -/
def recover : List Token → List Token
  | [] => []
  | ⟨.endOfFile, span⟩ :: ts => ⟨.endOfFile, span⟩ :: ts
  | ⟨.semicolon, _⟩ :: ts => ts
  | _ :: ts => recover ts

theorem recover_suffix (ts : List Token) : recover ts <:+ ts := by
  fun_induction recover ts with
  | case1 => exact List.suffix_refl _
  | case2 span ts => exact List.suffix_refl _
  | case3 span ts => exact List.suffix_cons _ ts
  | case4 t ts _ _ ih => exact ih.trans (List.suffix_cons t ts)

/-- How far parsing has come. -/
structure State where
  /-- The statements so far. -/
  statements : Array Statement := #[]
  /-- The problems so far. -/
  findings : Array Finding := #[]
  /-- The tokens ahead. -/
  ahead : List Token
deriving Repr, Inhabited

namespace State

/-- Parsing gives up once the error budget is spent. -/
def spent (state : State) : Bool :=
  errorBudget ≤ state.findings.size

/-- Parsing is done at the end mark, or when it gives up. -/
def done (stop : Token) (state : State) : Bool :=
  (current stop state.ahead).lexeme == .endOfFile || state.spent

/-- Read a statement, or report that there is none and skip to the next one. -/
def step (stop : Token) (state : State) : State :=
  let found := statement stop state.ahead
  match found.result with
  | .ok statement =>
    { state with statements := state.statements.push statement, ahead := found.rest }
  | .error problem =>
    { state with findings := state.findings.push problem, ahead := recover found.rest }

/-- A bound on the steps that are left: a statement uses a token, a problem some of the budget. -/
def measure (state : State) : Nat :=
  state.ahead.length + (errorBudget - state.findings.size)

theorem measure_step_lt {stop : Token} {state : State} (undone : state.done stop = false) :
    (state.step stop).measure < state.measure := by
  have left : state.findings.size < errorBudget := by
    simp only [done, spent, Bool.or_eq_false_iff, decide_eq_false_iff_not] at undone
    omega
  cases found : (statement stop state.ahead).result with
  | ok statement =>
    have fewer := statement_progresses _ _ _ found
    simp only [measure, step, found]
    omega
  | error problem =>
    have kept := ((recover_suffix _).trans (statement stop state.ahead).suffix).length_le
    simp only [measure, step, found, Array.size_push]
    omega

/-- Read statements until parsing is done. -/
def run (stop : Token) (state : State) : State :=
  if _ : state.done stop then state else run stop (state.step stop)
termination_by state.measure
decreasing_by exact measure_step_lt (Bool.eq_false_iff.mpr ‹_›)

end State

/-- The last token that was passed on the way through a stream, or its beginning. -/
def passed (given ahead : List Token) : Span :=
  ((given.take (given.length - ahead.length)).getLast?.map (·.span)).getD (.point 1 1)

end Parser

/-- A script and the problems found while reading it. -/
structure Parsed where
  /-- The statements that could be read. -/
  script : Script
  /-- The problems, in script order. -/
  findings : Array Finding
deriving Repr, Inhabited

open TextureScript.Parser in
/-- Read a script from a token stream. Tokens after the first end mark do not count. A stream
without an end mark goes on with its last token; the empty stream ends at once. -/
def Script.parse (tokens : List Token) : Parsed :=
  let stop := tokens.getLast?.getD ⟨.endOfFile, .point 1 1⟩
  let final := State.run stop { ahead := tokens }
  let span := (current stop tokens).span.merge (passed tokens final.ahead)
  ⟨⟨final.statements.toList, span⟩, final.findings⟩

end TextureScript
