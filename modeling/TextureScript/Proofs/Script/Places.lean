import TextureScript.Proofs.Plan.Variation
import TextureScript.Proofs.Script.Recovery

/-!
# Parsing does not look at places

Readers choose by the lexemes ahead of them, never by where these stand. On two streams with the
same lexemes they therefore come to the same: to values that differ only in places, or to problems
that differ only in places, and they leave streams with the same lexemes. Readers one after the
other do so when each of them does, which carries the fact from single tokens to whole scripts.
-/

namespace TextureScript

/-! ## Layout as a variation -/

/-- Messages that are the same, up to the line number that they end with. -/
def SameButLine (message other : String) : Prop :=
  other = message ∨ ∃ (text : String) (line line' : UInt32),
    message = text ++ toString line ∧ other = text ++ toString line'

/-- Problems that differ only in places. -/
structure Finding.SameButPlace (finding other : Finding) : Prop where
  /-- They are of the same kind. -/
  code : other.code = finding.code
  /-- They are equally serious. -/
  severity : other.severity = finding.severity
  /-- They are described in the same way. -/
  message : SameButLine finding.message other.message
  /-- They come with the same advice. -/
  suggestion : other.suggestion = finding.suggestion

/-- Scripts with the same lexemes differ only in places. -/
def Variation.layout : Variation where
  Occurs _ := True
  rename := id
  Moves _ _ := True
  Rewords := Finding.SameButPlace

theorem Finding.sameButPlace_moved (finding : Finding) (span : Span) :
    finding.SameButPlace { finding with span } :=
  ⟨rfl, rfl, .inl rfl, rfl⟩

theorem Variation.lawful_layout : layout.Lawful where
  apart _ _ _ _ same := same
  moved finding span _ := finding.sameButPlace_moved span
  unresolved scope other name span span' varies _ _ := by
    have names : other.names = scope.names := varies.names (fun _ => trivial) rfl
    refine ⟨rfl, rfl, .inl rfl, ?_⟩
    simp only [Resolution.unresolvedFinding, names]
    rfl
  conflict target target' conflict conflict' named conflicts := by
    obtain ⟨-, text, -⟩ := named
    have text : target'.text = target.text := text
    cases conflicts with
    | input =>
      refine ⟨rfl, rfl, .inl ?_, rfl⟩
      simp only [Resolution.conflictFinding, text]
    | @binding first first' _ =>
      refine ⟨rfl, rfl, .inr ⟨_, first.start.line, first'.start.line, rfl, ?_⟩, rfl⟩
      simp only [Resolution.conflictFinding, text]
  channel _ _ _ _ _ _ _ _ := ⟨rfl, rfl, .inr ⟨_, _, _, rfl, rfl⟩, rfl⟩
  texture name name' first first' named _ := by
    have text : name'.text = name.text := named.text
    refine ⟨rfl, rfl, .inr ⟨_, first.start.line, first'.start.line, rfl, ?_⟩, rfl⟩
    simp only [Resolution.duplicateTextureFinding, text]

namespace Parser

/-! ## Readers in step -/

/-- Streams with the same lexemes. -/
abbrev SameLexemes : List Token → List Token → Prop :=
  List.Forall₂ fun t t' => t'.lexeme = t.lexeme

theorem sameLexemes_iff {ts ts' : List Token} :
    SameLexemes ts ts' ↔ ts'.map (·.lexeme) = ts.map (·.lexeme) := by
  rw [eq_comm, ← List.forall₂_eq_eq_eq, List.forall₂_map_left_iff, List.forall₂_map_right_iff]
  simp only [SameLexemes, eq_comm]

/-- Errors that differ only in places. -/
structure SameError (problem problem' : Finding) : Prop where
  /-- They differ only in places. -/
  same : problem.SameButPlace problem'
  /-- They are errors. -/
  isError : problem.severity = .error

/-- Two outcomes that differ only in places. -/
inductive SameOutcome {α : Type} (Same : α → α → Prop) :
    Except Finding α × List Token → Except Finding α × List Token → Prop where
  /-- Both found a value. -/
  | ok {value value' : α} {rest rest' : List Token} (same : Same value value')
      (left : SameLexemes rest rest') : SameOutcome Same (.ok value, rest) (.ok value', rest')
  /-- Both found a problem. -/
  | error {problem problem' : Finding} {rest rest' : List Token}
      (same : SameError problem problem') (left : SameLexemes rest rest') :
      SameOutcome Same (.error problem, rest) (.error problem', rest')

namespace Reader

variable {α β : Type} {Same : α → α → Prop} {SameNext : β → β → Prop}

/-- Two readers come to the same on streams with the same lexemes. -/
def Matches (Same : α → α → Prop) (reader reader' : Reader α) : Prop :=
  ∀ (stop stop' : Token) (ts ts' : List Token), stop'.lexeme = stop.lexeme → SameLexemes ts ts' →
    SameOutcome Same (reader.outcome stop ts) (reader'.outcome stop' ts')

theorem matches_pure {value value' : α} (same : Same value value') :
    (pure value : Reader α).Matches Same (pure value') :=
  fun _ _ _ _ _ ahead => .ok same ahead

theorem matches_fail {problem problem' : Finding} (same : SameError problem problem') :
    (fail problem : Reader α).Matches Same (fail problem') :=
  fun _ _ _ _ _ ahead => .error same ahead

theorem Matches.bind {first first' : Reader α} {next next' : α → Reader β}
    (found : first.Matches Same first')
    (later : ∀ value value', Same value value' → (next value).Matches SameNext (next' value')) :
    (first >>= next).Matches SameNext (first' >>= next') := by
  intro stop stop' ts ts' ends ahead
  have both := found stop stop' ts ts' ends ahead
  generalize outcome : first.outcome stop ts = result, outcome' : first'.outcome stop' ts' = result'
    at both
  cases both with
  | ok same left =>
    rw [outcome_bind_ok outcome, outcome_bind_ok outcome']
    exact later _ _ same stop stop' _ _ ends left
  | error same left =>
    rw [outcome_bind_error outcome, outcome_bind_error outcome']
    exact .error same left

end Reader

open Reader

variable {α : Type} {Same : α → α → Prop} {stop stop' : Token} {ts ts' : List Token}

theorem current_sameLexemes (ends : stop'.lexeme = stop.lexeme) (ahead : SameLexemes ts ts') :
    (current stop' ts').lexeme = (current stop ts).lexeme := by
  cases ahead with
  | nil => exact ends
  | cons same _ => exact same

theorem following_sameLexemes (ahead : SameLexemes ts ts') : following ts' = following ts := by
  cases ahead with
  | nil => rfl
  | cons _ others =>
    cases others with
    | nil => rfl
    | cons same _ => exact same

theorem sameError_moved (finding : Finding) (isError : finding.severity = .error) (span : Span) :
    SameError finding { finding with span } :=
  ⟨finding.sameButPlace_moved span, isError⟩

theorem sameError_unexpected (expected : String) (ends : stop'.lexeme = stop.lexeme)
    (ahead : SameLexemes ts ts') :
    SameError (unexpectedFinding stop ts expected) (unexpectedFinding stop' ts' expected) := by
  refine ⟨⟨rfl, rfl, .inl ?_, rfl⟩, rfl⟩
  simp only [unexpectedFinding, current_sameLexemes ends ahead]

theorem matches_unexpected (expected : String) :
    (unexpected expected : Reader α).Matches Same (unexpected expected) :=
  fun _ _ _ _ ends ahead => .error (sameError_unexpected expected ends ahead) ahead

theorem matches_choose {form form' : Lexeme → Lexeme → Reader α}
    (forms : ∀ next after, (form next after).Matches Same (form' next after)) :
    (choose form).Matches Same (choose form') := by
  intro stop stop' ts ts' ends ahead
  rw [outcome_choose, outcome_choose, current_sameLexemes ends ahead, following_sameLexemes ahead]
  exact forms _ _ stop stop' ts ts' ends ahead

/-! ## Single tokens -/

/-- A single token is read in step when its lexeme decides what it means. -/
theorem matches_single (expected : String) {meaning : Token → Option α}
    (meant : ∀ t t' : Token, t'.lexeme = t.lexeme → Option.Rel Same (meaning t) (meaning t')) :
    (single expected meaning).Matches Same (single expected meaning) := by
  intro stop stop' ts ts' ends ahead
  cases ahead with
  | nil => exact matches_unexpected expected stop stop' [] [] ends .nil
  | @cons t t' ts ts' same others =>
    have related := meant t t' same
    generalize here : meaning t = value, here' : meaning t' = value' at related
    cases related with
    | none =>
      rw [outcome_single_none (by simpa using here), outcome_single_none (by simpa using here')]
      exact .error (sameError_unexpected expected ends (.cons same others))
        (.cons same others)
    | some values =>
      rw [outcome_single_some here, outcome_single_some here']
      exact .ok values others

theorem matches_expect (lexeme : Lexeme) :
    (expect lexeme).Matches (fun _ _ => True) (expect lexeme) := by
  apply matches_single
  intro t t' same
  unfold spanOf?
  rw [same]
  split
  · exact .some trivial
  · exact .none

/-- Names with the same text. -/
abbrev SameText (name name' : Name) : Prop :=
  name'.text = name.text

theorem matches_expectName : expectName.Matches SameText expectName := by
  apply matches_single
  rintro ⟨lexeme, span⟩ ⟨lexeme', span'⟩ same
  obtain rfl : lexeme' = lexeme := same
  cases lexeme' <;> constructor
  rfl

theorem matches_magnitude :
    magnitude.Matches (fun number number' => number'.1 = number.1) magnitude := by
  apply matches_single
  rintro ⟨lexeme, span⟩ ⟨lexeme', span'⟩ same
  obtain rfl : lexeme' = lexeme := same
  cases lexeme' <;> constructor
  rfl

/-! ## Lists of items -/

/-- Items are read in step after others, until one of them is not followed by a comma. -/
theorem matches_separatedFrom {item : Reader α} (found : item.Matches Same item)
    {given given' : List Token} {done done' : Array α} (ends : stop'.lexeme = stop.lexeme)
    (before : List.Forall₂ Same done.toList done'.toList) (within : ts <:+ given)
    (within' : ts' <:+ given') (ahead : SameLexemes ts ts') :
    SameOutcome (fun items items' => List.Forall₂ Same items.toList items'.toList)
      (separatedFrom item stop given done ts within).outcome
      (separatedFrom item stop' given' done' ts' within').outcome := by
  -- by induction on the number of tokens, as every comma uses one
  induction counted : ts.length using Nat.strongRecOn generalizing ts ts' done done' with
  | ind size ih =>
    have both := found stop stop' ts ts' ends ahead
    have shorter := (item stop ts).suffix.length_le
    generalize outcome : item.outcome stop ts = result, outcome' : item.outcome stop' ts' = result'
      at both
    cases both with
    | error same left =>
      rw [outcome_separatedFrom_error within outcome, outcome_separatedFrom_error within' outcome']
      exact .error same left
    | @ok value value' rest rest' same left =>
      have more : List.Forall₂ Same (done.push value).toList (done'.push value').toList := by
        rw [Array.toList_push, Array.toList_push]
        exact List.rel_append before (.cons same .nil)
      by_cases comma : ∃ span middle, rest = ⟨.comma, span⟩ :: middle
      · obtain ⟨span, middle, rfl⟩ := comma
        obtain ⟨⟨lexeme', span'⟩, middle', isComma, others, rfl⟩ :=
          List.forall₂_cons_left_iff.mp left
        obtain rfl : lexeme' = .comma := isComma
        have fewer : middle.length < size := by
          rw [show (item stop ts).rest = ⟨.comma, span⟩ :: middle from
            congrArg Prod.snd outcome] at shorter
          rw [List.length_cons] at shorter
          omega
        obtain ⟨later, step⟩ := outcome_separatedFrom_more done within outcome
        obtain ⟨later', step'⟩ := outcome_separatedFrom_more done' within' outcome'
        rw [step, step']
        exact ih middle.length fewer more later later' others rfl
      · have last : ∀ t ∈ rest.head?, t.lexeme ≠ .comma := by
          intro t next isComma
          obtain ⟨others, rfl⟩ := List.head?_eq_some_iff.mp next
          exact comma ⟨t.span, others, by rw [← isComma]⟩
        have last' : ∀ t ∈ rest'.head?, t.lexeme ≠ .comma := by
          intro t next isComma
          obtain ⟨others, rfl⟩ := List.head?_eq_some_iff.mp next
          obtain ⟨first, rest, lexemes, -, rfl⟩ := List.forall₂_cons_right_iff.mp left
          exact last first rfl (lexemes.symm.trans isComma)
        rw [outcome_separatedFrom_last within outcome last,
          outcome_separatedFrom_last within' outcome' last']
        exact .ok more left

theorem matches_separated {item : Reader α} (found : item.Matches Same item) :
    (separated item).Matches (fun items items' => List.Forall₂ Same items.toList items'.toList)
      (separated item) :=
  fun _ _ _ _ ends ahead => matches_separatedFrom found ends .nil _ _ ahead

/-! ## Values -/

/-- Values that differ only in places. -/
abbrev SameValue : Expr → Expr → Prop :=
  Expr.Varies .layout

theorem matches_arguments {argument : Reader Expr} (found : argument.Matches SameValue argument) :
    (arguments argument).Matches (List.Forall₂ SameValue) (arguments argument) := by
  apply matches_choose
  intro next after
  unfold argumentsForm
  split
  · exact matches_pure .nil
  · exact (matches_separated found).bind fun _ _ same => matches_pure same

theorem matches_call {argument : Reader Expr} (found : argument.Matches SameValue argument) :
    (call argument).Matches SameValue (call argument) :=
  matches_expectName.bind fun _ _ named =>
  (matches_expect _).bind fun _ _ _ =>
  (matches_arguments found).bind fun _ _ each =>
  (matches_expect _).bind fun _ _ _ =>
  matches_pure (.call ⟨named, trivial⟩ each trivial)

theorem matches_literal (signed : Int) (span span' : Span) :
    (literal signed span).Matches SameValue (literal signed span') := by
  unfold literal
  split
  · exact matches_pure (.number trivial)
  · exact matches_fail (sameError_moved _ rfl span')

theorem matches_unsigned : unsigned.Matches SameValue unsigned := by
  refine matches_magnitude.bind ?_
  rintro ⟨value, span⟩ ⟨value', span'⟩ rfl
  exact matches_literal _ _ _

theorem matches_negated : negated.Matches SameValue negated := by
  refine (matches_expect _).bind fun start start' _ => matches_magnitude.bind ?_
  rintro ⟨value, span⟩ ⟨value', span'⟩ rfl
  exact matches_literal _ _ _

/-- A value is read in step, however deep it is. -/
theorem matches_expression (depth : Nat) :
    (expression depth).Matches SameValue (expression depth) := by
  induction depth with
  | zero =>
    intro stop stop' ts ts' _ ahead
    exact .error (sameError_moved (tooDeepFinding stop ts) rfl _) ahead
  | succ depth ih =>
    apply matches_choose
    intro next after
    cases next with
    | name text =>
      by_cases isCall : after = .leftParen
      · rw [isCall]
        exact matches_call ih
      · rw [valueForm_name isCall]
        refine matches_expectName.bind fun name name' same => ?_
        exact matches_pure (same ▸ .name trivial trivial)
    | number value => exact matches_unsigned
    | minus => exact matches_negated
    | exportWord | leftParen | rightParen | comma | semicolon | equals | endOfFile =>
      exact matches_unexpected _

/-! ## Statements -/

/-- Statements that differ only in places. -/
abbrev SameStatement : Statement → Statement → Prop :=
  Statement.Varies .layout

theorem matches_binding {value : Reader Expr} (found : value.Matches SameValue value) :
    (binding value).Matches SameStatement (binding value) :=
  matches_expectName.bind fun _ _ named =>
  (matches_expect _).bind fun _ _ _ =>
  found.bind fun _ _ same =>
  (matches_expect _).bind fun _ _ _ =>
  matches_pure (.bind ⟨trivial, named, trivial⟩ same trivial)

theorem matches_channel {value : Reader Expr} (found : value.Matches SameValue value) :
    (channel value).Matches SameStatement (channel value) :=
  (matches_expect _).bind fun _ _ _ =>
  matches_expectName.bind fun _ _ ofMaterial =>
  (matches_expect _).bind fun _ _ _ =>
  matches_expectName.bind fun _ _ named =>
  (matches_expect _).bind fun _ _ _ =>
  matches_expectName.bind fun _ _ typed =>
  (matches_expect _).bind fun _ _ _ =>
  (matches_expect _).bind fun _ _ _ =>
  found.bind fun _ _ same =>
  (matches_expect _).bind fun _ _ _ =>
  matches_pure (.channel ⟨ofMaterial, trivial⟩ ⟨named, trivial⟩ ⟨typed, trivial⟩ same trivial)

theorem matches_exports : exports.Matches SameStatement exports :=
  (matches_expect _).bind fun _ _ _ =>
  (matches_separated matches_expectName).bind fun _ _ each =>
  (matches_expect _).bind fun _ _ _ =>
  matches_pure (.exports (each.imp fun _ _ named => ⟨trivial, named, trivial⟩))

theorem matches_statement : statement.Matches SameStatement statement := by
  have value := matches_expression maxDepth
  apply matches_choose
  intro next after
  unfold statementForm
  split
  · exact matches_exports
  · exact matches_channel value
  · exact matches_binding value
  · exact matches_unexpected _

/-! ## Whole streams -/

/-- Parsing has come equally far in two streams with the same lexemes. -/
structure State.Matches (state state' : State) : Prop where
  /-- The same statements were read. -/
  statements : List.Forall₂ SameStatement state.statements.toList state'.statements.toList
  /-- The same problems were found. -/
  findings : List.Forall₂ SameError state.findings.toList state'.findings.toList
  /-- The same lexemes stand ahead. -/
  ahead : SameLexemes state.ahead state'.ahead

theorem recover_sameLexemes (ahead : SameLexemes ts ts') :
    SameLexemes (recover ts) (recover ts') := by
  induction ahead with
  | nil => exact .nil
  | @cons t t' ts ts' same others ih =>
    obtain ⟨lexeme, span⟩ := t
    obtain ⟨lexeme', span'⟩ := t'
    obtain rfl : lexeme' = lexeme := same
    cases lexeme' with
    | endOfFile => exact .cons rfl others
    | semicolon => exact others
    | _ => exact ih

namespace State

variable {state state' : State}

theorem Matches.done (found : state.Matches state') (ends : stop'.lexeme = stop.lexeme) :
    state'.done stop' = state.done stop := by
  have sizes := found.findings.length_eq
  rw [Array.length_toList, Array.length_toList] at sizes
  simp only [State.done, State.spent, current_sameLexemes ends found.ahead, sizes]

theorem Matches.step (found : state.Matches state') (ends : stop'.lexeme = stop.lexeme) :
    (state.step stop).Matches (state'.step stop') := by
  have both := matches_statement stop stop' _ _ ends found.ahead
  generalize outcome : statement.outcome stop state.ahead = result,
    outcome' : statement.outcome stop' state'.ahead = result' at both
  cases both with
  | ok same left =>
    rw [State.step_of_ok outcome, State.step_of_ok outcome']
    refine ⟨?_, found.findings, left⟩
    simp only [State.record, Array.toList_push]
    exact List.rel_append found.statements (.cons same .nil)
  | error same left =>
    rw [State.step_of_error outcome, State.step_of_error outcome']
    refine ⟨found.statements, ?_, recover_sameLexemes left⟩
    simp only [State.record, Array.toList_push]
    exact List.rel_append found.findings (.cons same .nil)

/-- Parsing goes on in step until both streams are done. -/
theorem Matches.run (found : state.Matches state') (ends : stop'.lexeme = stop.lexeme) :
    (state.run stop).Matches (state'.run stop') := by
  fun_induction State.run stop state generalizing state' with
  | case1 state finished =>
    rw [State.run_of_done (found.done ends ▸ finished)]
    exact found
  | case2 state unfinished ih =>
    have unfinished' : ¬state'.done stop' := found.done ends ▸ unfinished
    have next : state'.run stop' = (state'.step stop').run stop' := by
      rw [State.run, dif_neg unfinished']
    rw [next]
    exact ih (found.step ends)

end State

end Parser

/-- Streams with the same lexemes are parsed as scripts that differ only in places, and with errors
that differ only in places. -/
theorem Script.parse_sameLexemes {ts ts' : List Token} (same : Parser.SameLexemes ts ts') :
    List.Forall₂ (Statement.Varies .layout) (Script.parse ts).script.statements
        (Script.parse ts').script.statements ∧
      List.Forall₂ Parser.SameError (Script.parse ts).findings.toList
        (Script.parse ts').findings.toList := by
  have ends : (ts'.getLast?.getD ⟨.endOfFile, .point 1 1⟩).lexeme =
      (ts.getLast?.getD ⟨.endOfFile, .point 1 1⟩).lexeme := by
    have last := congrArg List.getLast? (Parser.sameLexemes_iff.mp same)
    rw [List.getLast?_map, List.getLast?_map] at last
    cases found : ts.getLast? <;> cases found' : ts'.getLast? <;>
      simp_all
  have start : Parser.State.Matches { ahead := ts } { ahead := ts' } := ⟨.nil, .nil, same⟩
  have final := start.run ends
  exact ⟨final.statements, final.findings⟩

/-- Parsing finds errors, never warnings. -/
theorem Script.severity_parse {ts : List Token} :
    ∀ finding ∈ (Script.parse ts).findings.toList, finding.severity = .error := by
  -- a stream has the same lexemes as itself
  have same : Parser.SameLexemes ts ts := List.forall₂_same.mpr fun _ _ => rfl
  intro finding member
  exact (List.forall₂_same.mp ((Script.parse_sameLexemes same).2) finding member).isError

end TextureScript
