import TextureScript.Proofs.Script.Reading

/-!
# Parsing goes statement by statement

A semicolon or an end mark ends a statement. No reader of a part of a statement passes such a token,
whether it finds a value or a problem, and none looks behind it. So a reader comes to the same on
the tokens before the end, whatever follows. The reader of a whole statement passes the semicolon
when it finds a statement; when it finds a problem, skipping to the next semicolon leads to the same
place. A stream that is cut behind its semicolons is therefore parsed part by part.
-/

namespace TextureScript

/-- A lexeme ends a statement when it is a semicolon or the end of the script. -/
def Lexeme.Ends (lexeme : Lexeme) : Prop :=
  lexeme = .semicolon ∨ lexeme = .endOfFile

namespace Parser

/-- Tokens are inner tokens of a statement when none of them ends it. -/
def Inner (ts : List Token) : Prop :=
  ∀ t ∈ ts, ¬t.lexeme.Ends

theorem Inner.of_suffix {ts rest : List Token} (inner : Inner ts) (suffix : rest <:+ ts) :
    Inner rest :=
  fun t member => inner t (suffix.subset member)

/-- The token that stands next before the end of a statement does not depend on what follows. -/
theorem current_append (stop last : Token) (ts more : List Token) :
    current stop (ts ++ last :: more) = current last ts := by
  cases ts with
  | nil => rfl
  | cons t ts => rfl

/-- The token after it does not either, unless it stands behind the end. -/
theorem following_cons_append (last t : Token) (ts more : List Token) :
    following (t :: ts ++ last :: more) = (current last ts).lexeme := by
  cases ts with
  | nil => rfl
  | cons u ts => rfl

/-! ## Readers of a part of a statement -/

namespace Reader

variable {α β : Type} {first : Reader α} {next : α → Reader β}

/-- A reader stays within a statement when it comes to a result that depends only on the tokens
before the end, and leaves the end. -/
def StaysWithin (reader : Reader α) : Prop :=
  ∀ (ts : List Token) (last : Token), Inner ts → last.lexeme.Ends →
    ∃ result ahead, ahead <:+ ts ∧ ∀ stop more,
      reader.outcome stop (ts ++ last :: more) = (result, ahead ++ last :: more)

theorem staysWithin_pure (value : α) : (pure value : Reader α).StaysWithin :=
  fun ts _ _ _ => ⟨.ok value, ts, List.suffix_refl ts, fun _ _ => rfl⟩

theorem staysWithin_fail (problem : Finding) : (fail problem : Reader α).StaysWithin :=
  fun ts _ _ _ => ⟨.error problem, ts, List.suffix_refl ts, fun _ _ => rfl⟩

theorem StaysWithin.bind (within : first.StaysWithin) (later : ∀ value, (next value).StaysWithin) :
    (first >>= next).StaysWithin := by
  intro ts last inner ends
  obtain ⟨result, ahead, suffix, outcome⟩ := within ts last inner ends
  cases result with
  | error problem =>
    exact ⟨.error problem, ahead, suffix, fun stop more => outcome_bind_error (outcome stop more)⟩
  | ok value =>
    obtain ⟨result, ahead', suffix', outcome'⟩ :=
      later value ahead last (inner.of_suffix suffix) ends
    refine ⟨result, ahead', suffix'.trans suffix, ?_⟩
    intro stop more
    rw [outcome_bind_ok (outcome stop more), outcome']

end Reader

open Reader

theorem outcome_unexpected_append {α : Type} (expected : String) (stop last : Token)
    (ts more : List Token) :
    (unexpected expected : Reader α).outcome stop (ts ++ last :: more) =
      (.error (unexpectedFinding last ts expected), ts ++ last :: more) := by
  simp only [outcome_unexpected, unexpectedFinding, current_append]

theorem staysWithin_unexpected {α : Type} (expected : String) :
    (unexpected expected : Reader α).StaysWithin := by
  intro ts last _ _
  exact ⟨_, ts, List.suffix_refl ts, fun stop more =>
    outcome_unexpected_append expected stop last ts more⟩

/-- A reader of a single token stays within a statement when the end of one means nothing to it. -/
theorem staysWithin_single {α : Type} (expected : String) {meaning : Token → Option α}
    (meaningless : ∀ t : Token, t.lexeme.Ends → meaning t = none) :
    (single expected meaning).StaysWithin := by
  intro ts last inner ends
  by_cases meant : ∀ t ∈ (ts ++ [last]).head?, meaning t = none
  · refine ⟨.error (unexpectedFinding last ts expected), ts, List.suffix_refl ts, ?_⟩
    intro stop more
    rw [outcome_single_none (by cases ts <;> exact meant), unexpectedFinding, current_append]
    rfl
  · cases ts with
    | nil => exact absurd (by simpa using meaningless last ends) meant
    | cons t ts =>
      obtain ⟨value, meant⟩ :=
        Option.ne_none_iff_exists'.mp fun none => meant (by simpa using none)
      exact ⟨.ok value, ts, List.suffix_cons t ts, fun _ _ => outcome_single_some meant⟩

theorem staysWithin_expect {lexeme : Lexeme} (inner : ¬lexeme.Ends) :
    (expect lexeme).StaysWithin := by
  apply staysWithin_single
  intro t ends
  have other : t.lexeme ≠ lexeme := fun same => inner (same ▸ ends)
  simp [spanOf?, other]

theorem staysWithin_expectName : expectName.StaysWithin := by
  apply staysWithin_single
  rintro ⟨lexeme, span⟩ (rfl | rfl) <;> rfl

theorem staysWithin_magnitude : magnitude.StaysWithin := by
  apply staysWithin_single
  rintro ⟨lexeme, span⟩ (rfl | rfl) <;> rfl

/-- The form that is chosen before the end of a statement does not depend on what follows, if the
second lexeme does not matter where the first one is the end. -/
theorem choose_agrees {α : Type} {form : Lexeme → Lexeme → Reader α}
    (atEnd : ∀ next after, next.Ends → form next after = form next .endOfFile)
    (ts : List Token) {last : Token} (ends : last.lexeme.Ends) :
    ∃ next after, ∀ stop more, (choose form).outcome stop (ts ++ last :: more) =
      (form next after).outcome stop (ts ++ last :: more) := by
  cases ts with
  | nil =>
    refine ⟨last.lexeme, .endOfFile, ?_⟩
    intro stop more
    rw [outcome_choose, current_append]
    exact congrArg (fun reader => Reader.outcome reader stop _) (atEnd last.lexeme _ ends)
  | cons t ts =>
    refine ⟨t.lexeme, (current last ts).lexeme, ?_⟩
    intro stop more
    rw [outcome_choose, current_append, following_cons_append]
    rfl

theorem staysWithin_choose {α : Type} {form : Lexeme → Lexeme → Reader α}
    (forms : ∀ next after, (form next after).StaysWithin)
    (atEnd : ∀ next after, next.Ends → form next after = form next .endOfFile) :
    (choose form).StaysWithin := by
  intro ts last inner ends
  obtain ⟨next, after, agrees⟩ := choose_agrees atEnd ts ends
  simp only [agrees]
  exact forms next after ts last inner ends

/-- Neither the items that are already read nor the tokens that were given at first matter. -/
theorem staysWithin_separatedFrom {α : Type} {item : Reader α} (within : item.StaysWithin)
    (ts : List Token) (last : Token) (done : Array α) (inner : Inner ts)
    (ends : last.lexeme.Ends) :
    ∃ result ahead, ahead <:+ ts ∧ ∀ stop more given (inside : ts ++ last :: more <:+ given),
      (separatedFrom item stop given done (ts ++ last :: more) inside).outcome =
        (result, ahead ++ last :: more) := by
  -- by induction on the number of tokens, as every comma uses one
  induction counted : ts.length using Nat.strongRecOn generalizing ts done with
  | ind size ih =>
    obtain ⟨result, ahead, suffix, outcome⟩ := within ts last inner ends
    cases result with
    | error problem =>
      exact ⟨.error problem, ahead, suffix, fun stop more given inside =>
        outcome_separatedFrom_error inside (outcome stop more)⟩
    | ok value =>
      by_cases comma : ∃ span middle, ahead = ⟨.comma, span⟩ :: middle
      · obtain ⟨span, middle, rfl⟩ := comma
        have shorter : middle.length < size := by
          have used := suffix.length_le
          rw [List.length_cons] at used
          omega
        have later : middle <:+ ts := (List.suffix_cons _ middle).trans suffix
        obtain ⟨result, ahead, suffix', outcome'⟩ :=
          ih middle.length shorter middle (done.push value) (inner.of_suffix later) rfl
        refine ⟨result, ahead, suffix'.trans later, ?_⟩
        intro stop more given inside
        obtain ⟨inside', step⟩ := outcome_separatedFrom_more done inside (outcome stop more)
        rw [step]
        exact outcome' stop more given inside'
      · refine ⟨.ok (done.push value), ahead, suffix, ?_⟩
        intro stop more given inside
        apply outcome_separatedFrom_last inside (outcome stop more)
        intro t next isComma
        cases ahead with
        | nil =>
          cases next
          rw [isComma] at ends
          rcases ends with other | other <;> cases other
        | cons u ahead =>
          cases next
          exact comma ⟨t.span, ahead, by rw [← isComma]⟩

theorem staysWithin_separated {α : Type} {item : Reader α} (within : item.StaysWithin) :
    (separated item).StaysWithin := by
  intro ts last inner ends
  obtain ⟨result, ahead, suffix, outcome⟩ :=
    staysWithin_separatedFrom within ts last #[] inner ends
  exact ⟨result, ahead, suffix, fun stop more => outcome stop more _ _⟩

theorem staysWithin_literal (signed : Int) (span : Span) : (literal signed span).StaysWithin := by
  unfold literal
  split
  · exact staysWithin_pure _
  · exact staysWithin_fail _

theorem staysWithin_arguments {argument : Reader Expr} (within : argument.StaysWithin) :
    (arguments argument).StaysWithin := by
  apply staysWithin_choose
  · intro next after
    unfold argumentsForm
    split
    · exact staysWithin_pure []
    · exact (staysWithin_separated within).bind fun args => staysWithin_pure args.toList
  · rintro next after (rfl | rfl) <;> rfl

theorem staysWithin_call {argument : Reader Expr} (within : argument.StaysWithin) :
    (call argument).StaysWithin :=
  staysWithin_expectName.bind fun _ =>
  (staysWithin_expect (by simp [Lexeme.Ends])).bind fun _ =>
  (staysWithin_arguments within).bind fun _ =>
  (staysWithin_expect (by simp [Lexeme.Ends])).bind fun _ =>
  staysWithin_pure _

theorem staysWithin_unsigned : unsigned.StaysWithin :=
  staysWithin_magnitude.bind fun _ => staysWithin_literal _ _

theorem staysWithin_negated : negated.StaysWithin :=
  (staysWithin_expect (by simp [Lexeme.Ends])).bind fun _ =>
  staysWithin_magnitude.bind fun _ =>
  staysWithin_literal _ _

/-- A value is read within its statement, however deep it is. -/
theorem staysWithin_expression (depth : Nat) : (expression depth).StaysWithin := by
  induction depth with
  | zero =>
    intro ts last _ _
    refine ⟨.error (tooDeepFinding last ts), ts, List.suffix_refl ts, ?_⟩
    intro stop more
    simp only [expression, outcome, Reading.outcome, fail, tooDeepFinding, current_append]
  | succ depth ih =>
    apply staysWithin_choose
    · intro next after
      cases next with
      | name text =>
        by_cases isCall : after = .leftParen
        · rw [isCall]
          exact staysWithin_call ih
        · rw [valueForm_name isCall]
          exact staysWithin_expectName.bind fun _ => staysWithin_pure _
      | number value => exact staysWithin_unsigned
      | minus => exact staysWithin_negated
      | exportWord | leftParen | rightParen | comma | semicolon | equals | endOfFile =>
        exact staysWithin_unexpected _
    · rintro next after (rfl | rfl) <;> rfl

/-! ## Readers of a whole statement -/

/-- A reader closes a statement when what it comes to depends only on the tokens up to the end, and
it finds a value only at a semicolon, which it passes. A problem is found before the end. -/
def Reader.Closes {α : Type} (reader : Reader α) : Prop :=
  ∀ (ts : List Token) (last : Token), Inner ts → last.lexeme.Ends →
    (last.lexeme = .semicolon ∧ ∃ value, ∀ stop more,
      reader.outcome stop (ts ++ last :: more) = (.ok value, more)) ∨
    (∃ problem ahead, ahead <:+ ts ∧ ∀ stop more,
      reader.outcome stop (ts ++ last :: more) = (.error problem, ahead ++ last :: more))

/-- A statement ends with its semicolon. -/
theorem closes_semicolon {α : Type} (result : Span → α) :
    (do
      let last ← expect .semicolon
      return result last : Reader α).Closes := by
  intro ts last inner ends
  by_cases here : ts = [] ∧ last.lexeme = .semicolon
  · obtain ⟨rfl, isSemicolon⟩ := here
    refine .inl ⟨isSemicolon, result last.span, ?_⟩
    intro stop more
    have found : (expect .semicolon).outcome stop (last :: more) = (.ok last.span, more) := by
      rw [outcome_expect_eq_ok, ← isSemicolon]
    exact outcome_bind_ok found
  · refine .inr ⟨unexpectedFinding last ts s!"'{Lexeme.semicolon.render}'", ts,
      List.suffix_refl ts, ?_⟩
    intro stop more
    have other : ∀ t ∈ (ts ++ last :: more).head?, spanOf? .semicolon t = none := by
      intro t next
      have differs : t.lexeme ≠ .semicolon := by
        cases ts with
        | nil =>
          cases next
          exact fun same => here ⟨rfl, same⟩
        | cons u ts =>
          cases next
          exact fun same => inner t List.mem_cons_self (.inl same)
      simp [spanOf?, differs]
    have failed : (expect .semicolon).outcome stop (ts ++ last :: more) =
        (.error (unexpectedFinding last ts s!"'{Lexeme.semicolon.render}'"),
          ts ++ last :: more) := by
      rw [expect, outcome_single_none other, unexpectedFinding, current_append]
      rfl
    exact outcome_bind_error failed

/-- What stays within a statement can stand before what closes it. -/
theorem Reader.StaysWithin.closes {α β : Type} {first : Reader α} {next : α → Reader β}
    (within : first.StaysWithin) (later : ∀ value, (next value).Closes) :
    (first >>= next).Closes := by
  intro ts last inner ends
  obtain ⟨result, ahead, suffix, outcome⟩ := within ts last inner ends
  cases result with
  | error problem =>
    exact .inr ⟨problem, ahead, suffix, fun stop more => outcome_bind_error (outcome stop more)⟩
  | ok value =>
    rcases later value ahead last (inner.of_suffix suffix) ends with
      ⟨isSemicolon, result, found⟩ | ⟨problem, ahead', suffix', failed⟩
    · refine .inl ⟨isSemicolon, result, ?_⟩
      intro stop more
      rw [outcome_bind_ok (outcome stop more), found]
    · refine .inr ⟨problem, ahead', suffix'.trans suffix, ?_⟩
      intro stop more
      rw [outcome_bind_ok (outcome stop more), failed]

theorem closes_binding {value : Reader Expr} (within : value.StaysWithin) :
    (binding value).Closes :=
  staysWithin_expectName.closes fun _ =>
  (staysWithin_expect (by simp [Lexeme.Ends])).closes fun _ =>
  within.closes fun _ =>
  closes_semicolon _

theorem closes_channel {value : Reader Expr} (within : value.StaysWithin) :
    (channel value).Closes :=
  (staysWithin_expect (by simp [Lexeme.Ends])).closes fun _ =>
  staysWithin_expectName.closes fun _ =>
  (staysWithin_expect (by simp [Lexeme.Ends])).closes fun _ =>
  staysWithin_expectName.closes fun _ =>
  (staysWithin_expect (by simp [Lexeme.Ends])).closes fun _ =>
  staysWithin_expectName.closes fun _ =>
  (staysWithin_expect (by simp [Lexeme.Ends])).closes fun _ =>
  (staysWithin_expect (by simp [Lexeme.Ends])).closes fun _ =>
  within.closes fun _ =>
  closes_semicolon _

theorem closes_exports : exports.Closes :=
  (staysWithin_expect (by simp [Lexeme.Ends])).closes fun _ =>
  (staysWithin_separated staysWithin_expectName).closes fun _ =>
  closes_semicolon _

/-- A statement is read up to its end, and a problem with it is found before that. -/
theorem closes_statement : statement.Closes := by
  intro ts last inner ends
  have within := staysWithin_expression maxDepth
  have atEnd : ∀ next after, next.Ends → statementForm (expression maxDepth) next after =
      statementForm (expression maxDepth) next .endOfFile := by
    rintro next after (rfl | rfl) <;> rfl
  obtain ⟨next, after, agrees⟩ := choose_agrees atEnd ts ends
  simp only [statement, agrees]
  unfold statementForm
  split
  · exact closes_exports ts last inner ends
  · exact closes_channel within ts last inner ends
  · exact closes_binding within ts last inner ends
  · exact .inr ⟨_, ts, List.suffix_refl ts, fun stop more =>
      outcome_unexpected_append _ stop last ts more⟩

/-! ## One step -/

/-- Record what a part of a stream comes to, and go on with the tokens behind it. -/
def State.record (state : State) (found : Except Finding Statement) (ahead : List Token) : State :=
  match found with
  | .ok statement => { state with statements := state.statements.push statement, ahead }
  | .error problem => { state with findings := state.findings.push problem, ahead }

/-- Skipping stops at the end of the statement, and passes it if it is a semicolon. -/
theorem recover_append {ts more : List Token} {last : Token} (inner : Inner ts) :
    (last.lexeme = .semicolon → recover (ts ++ last :: more) = more) ∧
      (last.lexeme = .endOfFile → recover (ts ++ last :: more) = last :: more) := by
  induction ts with
  | nil =>
    obtain ⟨lexeme, span⟩ := last
    constructor
    · rintro rfl
      rfl
    · rintro rfl
      rfl
  | cons t ts ih =>
    have skipped : recover (t :: ts ++ last :: more) = recover (ts ++ last :: more) := by
      obtain ⟨lexeme, span⟩ := t
      have inside : ¬lexeme.Ends := inner _ List.mem_cons_self
      cases lexeme <;> first | rfl | simp [Lexeme.Ends] at inside
    rw [skipped]
    exact ih (inner.of_suffix (List.suffix_cons t ts))

theorem State.step_of_ok {state : State} {stop : Token} {found : Statement} {rest : List Token}
    (outcome : statement.outcome stop state.ahead = (.ok found, rest)) :
    state.step stop = state.record (.ok found) rest := by
  obtain ⟨ok, rfl⟩ := Prod.mk.inj outcome
  simp only [step, ok]
  rfl

theorem State.step_of_error {state : State} {stop : Token} {problem : Finding} {rest : List Token}
    (outcome : statement.outcome stop state.ahead = (.error problem, rest)) :
    state.step stop = state.record (.error problem) (recover rest) := by
  obtain ⟨failed, rfl⟩ := Prod.mk.inj outcome
  simp only [step, failed]
  rfl

/-- A step over tokens that end with a semicolon leads behind it, whatever stands there. -/
theorem step_semicolon {ts : List Token} {last : Token} (inner : Inner ts)
    (isSemicolon : last.lexeme = .semicolon) :
    ∃ found, ∀ stop more (state : State), state.ahead = ts ++ last :: more →
      state.step stop = state.record found more := by
  rcases closes_statement ts last inner (.inl isSemicolon) with
    ⟨-, found, outcome⟩ | ⟨problem, ahead, suffix, outcome⟩
  · refine ⟨.ok found, ?_⟩
    intro stop more state isAhead
    exact State.step_of_ok (isAhead ▸ outcome stop more)
  · refine ⟨.error problem, ?_⟩
    intro stop more state isAhead
    rw [State.step_of_error (isAhead ▸ outcome stop more),
      (recover_append (inner.of_suffix suffix)).1 isSemicolon]

/-- A step over tokens without a semicolon leads to the end mark, and is a problem. -/
theorem step_endOfFile {ts : List Token} {last : Token} (inner : Inner ts)
    (isEnd : last.lexeme = .endOfFile) :
    ∃ problem, ∀ stop more (state : State), state.ahead = ts ++ last :: more →
      state.step stop = state.record (.error problem) (last :: more) := by
  rcases closes_statement ts last inner (.inr isEnd) with
    ⟨isSemicolon, -⟩ | ⟨problem, ahead, suffix, outcome⟩
  · rw [isEnd] at isSemicolon
    cases isSemicolon
  · refine ⟨problem, ?_⟩
    intro stop more state isAhead
    rw [State.step_of_error (isAhead ▸ outcome stop more),
      (recover_append (inner.of_suffix suffix)).2 isEnd]

/-! ## Parts of a stream -/

/-- Cut a stream behind each of its semicolons: into the segments that end with a semicolon, and the
tokens after the last one. -/
def cut : List Token → List (List Token) × List Token
  | [] => ([], [])
  | t :: ts =>
    if t.lexeme = .semicolon then ([t] :: (cut ts).1, (cut ts).2)
    else
      match (cut ts).1 with
      | [] => ([], t :: (cut ts).2)
      | segment :: segments => ((t :: segment) :: segments, (cut ts).2)

/-- A stream consists of segments that end with their only semicolon, and a remainder without
one. -/
structure IsCut (ts : List Token) (segments : List (List Token)) (remainder : List Token) :
    Prop where
  /-- Nothing is lost. -/
  whole : segments.flatten ++ remainder = ts
  /-- A segment has one semicolon, its last token. -/
  segments : ∀ segment ∈ segments, ∃ body last, segment = body ++ [last] ∧
    last.lexeme = .semicolon ∧ ∀ t ∈ body, t.lexeme ≠ .semicolon
  /-- The remainder has no semicolon. -/
  remainder : ∀ t ∈ remainder, t.lexeme ≠ .semicolon

theorem isCut_cut (ts : List Token) : IsCut ts (cut ts).1 (cut ts).2 := by
  induction ts with
  | nil => exact ⟨rfl, by simp [cut], by simp [cut]⟩
  | cons t ts ih =>
    by_cases isSemicolon : t.lexeme = .semicolon
    · simp only [cut, if_pos isSemicolon]
      refine ⟨by simp [ih.whole], ?_, ih.remainder⟩
      intro segment member
      rcases List.mem_cons.mp member with rfl | later
      · exact ⟨[], t, rfl, isSemicolon, by simp⟩
      · exact ih.segments segment later
    · simp only [cut, if_neg isSemicolon]
      split
      · rename_i none
        have whole := ih.whole
        rw [none, List.flatten_nil, List.nil_append] at whole
        refine ⟨by simp [whole], by simp, ?_⟩
        intro u member
        rcases List.mem_cons.mp member with rfl | later
        · exact isSemicolon
        · exact ih.remainder u later
      · rename_i segment segments first
        have whole := ih.whole
        rw [first, List.flatten_cons] at whole
        refine ⟨congrArg (t :: ·) whole, ?_, ih.remainder⟩
        intro other member
        rcases List.mem_cons.mp member with rfl | later
        · obtain ⟨body, last, rfl, ends, inner⟩ := ih.segments segment (first ▸ List.mem_cons_self)
          refine ⟨t :: body, last, rfl, ends, ?_⟩
          intro u inside
          rcases List.mem_cons.mp inside with rfl | inside
          · exact isSemicolon
          · exact inner u inside
        · exact ih.segments other (first ▸ List.mem_cons_of_mem _ later)

/-- The statement that a part of a stream comes to, if it comes to one. -/
def statementsOf : Except Finding Statement → List Statement
  | .ok statement => [statement]
  | .error _ => []

/-- The problem that a part of a stream comes to, if it comes to one. -/
def problemsOf : Except Finding Statement → List Finding
  | .ok _ => []
  | .error problem => [problem]

theorem State.statements_record (state : State) (found : Except Finding Statement)
    (ahead : List Token) :
    (state.record found ahead).statements.toList =
      state.statements.toList ++ statementsOf found := by
  cases found <;> simp [record, statementsOf]

theorem State.findings_record (state : State) (found : Except Finding Statement)
    (ahead : List Token) :
    (state.record found ahead).findings.toList = state.findings.toList ++ problemsOf found := by
  cases found <;> simp [record, problemsOf]

theorem State.ahead_record (state : State) (found : Except Finding Statement)
    (ahead : List Token) : (state.record found ahead).ahead = ahead := by
  cases found <;> rfl

/-- A part of a stream comes to a statement or a problem in one step, before given tokens. -/
structure ComesTo (stop : Token) (part more : List Token) (found : Except Finding Statement) :
    Prop where
  /-- The part does not begin with an end mark. -/
  begins : (current stop (part ++ more)).lexeme ≠ .endOfFile
  /-- One step leads behind the part. -/
  step : ∀ state : State, state.ahead = part ++ more → state.step stop = state.record found more

theorem State.run_of_done {state : State} {stop : Token} (isDone : state.done stop) :
    state.run stop = state := by
  rw [run, dif_pos isDone]

theorem ComesTo.run {stop : Token} {part more : List Token} {found : Except Finding Statement}
    (comes : ComesTo stop part more found) {state : State} (isAhead : state.ahead = part ++ more)
    (left : state.spent = false) : state.run stop = (state.record found more).run stop := by
  have undone : ¬state.done stop := by
    simp [State.done, isAhead, comes.begins, left]
  rw [State.run, dif_neg undone, comes.step state isAhead]

/-- The parts of a stream that are read one by one, each as if it stood alone. -/
inductive Readable (stop : Token) : List (List Token) → Prop where
  /-- Nothing is left to read. -/
  | nil : Readable stop []
  /-- A part comes to the same before the others as alone. -/
  | cons {part : List Token} {parts : List (List Token)} {found : Except Finding Statement}
      (before : ComesTo stop part (parts.flatten ++ [stop]) found)
      (alone : ComesTo stop part [stop] found) (later : Readable stop parts) :
      Readable stop (part :: parts)

end Parser

open TextureScript.Parser

/-- A part of a stream alone, before the end mark. -/
def Script.parseAlone (stop : Token) (part : List Token) : Parsed :=
  Script.parse (part ++ [stop])

/-- The segments of a stream, and its remainder if there is one. -/
def Parser.parts (ts : List Token) : List (List Token) :=
  (cut ts).1 ++ if (cut ts).2.isEmpty then [] else [(cut ts).2]

namespace Parsed

/-- There is one statement and no problem. -/
def IsStatement (parsed : Parsed) : Prop :=
  parsed.script.statements.length = 1 ∧ parsed.findings.toList = []

/-- There is one problem and no statement. -/
def IsProblem (parsed : Parsed) : Prop :=
  parsed.script.statements = [] ∧ parsed.findings.toList.length = 1

/-- A whole is gathered from the first of some parts: as many as there are, or as many as it takes
to spend the error budget. -/
structure Gathers (whole : Parsed) (parts : List Parsed) (count : Nat) : Prop where
  /-- The statements are those of the parts that were read. -/
  statements : whole.script.statements = (parts.take count).flatMap (·.script.statements)
  /-- The problems are those of the parts that were read. -/
  findings : whole.findings.toList = (parts.take count).flatMap (·.findings.toList)
  /-- A part is read only if the budget is not spent before it. -/
  affordable : ∀ fewer < count,
    ((parts.take fewer).flatMap (·.findings.toList)).length < errorBudget
  /-- Parts are left out only when the budget is spent. -/
  complete : parts.length ≤ count ∨ errorBudget ≤ whole.findings.size

end Parsed

theorem Script.parse_concat (ts : List Token) (stop : Token) :
    (Script.parse (ts ++ [stop])).script.statements =
        (State.run stop { ahead := ts ++ [stop] }).statements.toList ∧
      (Script.parse (ts ++ [stop])).findings =
        (State.run stop { ahead := ts ++ [stop] }).findings := by
  simp [Script.parse]

namespace Parser

variable {stop : Token}

/-- What a part comes to alone is what it comes to in one step. -/
theorem ComesTo.parseAlone {part : List Token} {found : Except Finding Statement}
    (isEnd : stop.lexeme = .endOfFile) (comes : ComesTo stop part [stop] found) :
    (Script.parseAlone stop part).script.statements = statementsOf found ∧
      (Script.parseAlone stop part).findings.toList = problemsOf found := by
  have ran : State.run stop { ahead := part ++ [stop] } = _ := comes.run rfl rfl
  have finished : (State.record { ahead := part ++ [stop] } found [stop]).done stop := by
    simp [State.done, State.ahead_record, current, isEnd]
  rw [State.run_of_done finished] at ran
  obtain ⟨statements, findings⟩ := Script.parse_concat part stop
  rw [Script.parseAlone, statements, findings, ran, State.statements_record, State.findings_record]
  exact ⟨rfl, rfl⟩

/-- From any state, the parts that are read add what they come to alone. -/
theorem Readable.run {parts : List (List Token)} (readable : Readable stop parts)
    (isEnd : stop.lexeme = .endOfFile) (state : State)
    (isAhead : state.ahead = parts.flatten ++ [stop]) :
    ∃ count,
      (state.run stop).statements.toList = state.statements.toList ++
        (parts.take count).flatMap (fun part => (Script.parseAlone stop part).script.statements) ∧
      (state.run stop).findings.toList = state.findings.toList ++
        (parts.take count).flatMap (fun part => (Script.parseAlone stop part).findings.toList) ∧
      (∀ fewer < count, state.findings.size + ((parts.take fewer).flatMap
        fun part => (Script.parseAlone stop part).findings.toList).length < errorBudget) ∧
      (parts.length ≤ count ∨ errorBudget ≤ (state.run stop).findings.size) := by
  induction readable generalizing state with
  | nil =>
    have finished : state.done stop := by
      simp [State.done, isAhead, current, isEnd]
    rw [State.run_of_done finished]
    exact ⟨0, by simp, by simp, by simp, .inl (Nat.le_refl _)⟩
  | @cons part parts found before alone later ih =>
    rw [List.flatten_cons, List.append_assoc] at isAhead
    obtain ⟨statements, findings⟩ := alone.parseAlone isEnd
    cases spent : state.spent with
    | true =>
      have finished : state.done stop := by
        simp [State.done, spent]
      rw [State.run_of_done finished]
      exact ⟨0, by simp, by simp, by simp, .inr (by simpa [State.spent] using spent)⟩
    | false =>
      have left : state.findings.size < errorBudget := by
        simpa [State.spent] using spent
      have recorded : (state.record found (parts.flatten ++ [stop])).findings.size =
          state.findings.size + (problemsOf found).length := by
        rw [← Array.length_toList, State.findings_record, List.length_append, Array.length_toList]
      obtain ⟨count, allStatements, allFindings, affordable, complete⟩ :=
        ih (state.record found (parts.flatten ++ [stop])) (State.ahead_record _ _ _)
      rw [before.run isAhead spent]
      refine ⟨count + 1, ?_, ?_, ?_, ?_⟩
      · rw [allStatements, State.statements_record, List.take_succ_cons, List.flatMap_cons,
          statements, List.append_assoc]
      · rw [allFindings, State.findings_record, List.take_succ_cons, List.flatMap_cons,
          findings, List.append_assoc]
      · intro fewer less
        cases fewer with
        | zero => simpa using left
        | succ fewer =>
          have here := affordable fewer (Nat.lt_of_succ_lt_succ less)
          rw [List.take_succ_cons, List.flatMap_cons, findings, List.length_append]
          omega
      · rcases complete with all | spent
        · exact .inl (Nat.succ_le_succ all)
        · exact .inr spent

/-- Tokens that do not begin with an end mark, and how they go on. -/
theorem begins_of_noEnd {part more : List Token} (nonempty : part ≠ [])
    (noEnd : ∀ t ∈ part, t.lexeme ≠ .endOfFile) :
    (current stop (part ++ more)).lexeme ≠ .endOfFile := by
  cases part with
  | nil => exact absurd rfl nonempty
  | cons t part => exact noEnd t List.mem_cons_self

theorem inner_of_ne {ts : List Token} (noSemicolon : ∀ t ∈ ts, t.lexeme ≠ .semicolon)
    (noEnd : ∀ t ∈ ts, t.lexeme ≠ .endOfFile) : Inner ts :=
  fun t member ends => ends.elim (noSemicolon t member) (noEnd t member)

/-- A segment comes to the same, whatever follows. -/
theorem comesTo_segment {body : List Token} {last : Token} (isSemicolon : last.lexeme = .semicolon)
    (noSemicolon : ∀ t ∈ body, t.lexeme ≠ .semicolon)
    (noEnd : ∀ t ∈ body ++ [last], t.lexeme ≠ .endOfFile) :
    ∃ found, ∀ stop more, ComesTo stop (body ++ [last]) more found := by
  have inner : Inner body :=
    inner_of_ne noSemicolon fun t member => noEnd t (List.mem_append_left _ member)
  obtain ⟨found, step⟩ := step_semicolon inner isSemicolon
  refine ⟨found, fun stop more => ⟨begins_of_noEnd (by simp) noEnd, ?_⟩⟩
  intro state isAhead
  exact step stop more state (by simpa using isAhead)

/-- A remainder comes to a problem. -/
theorem comesTo_remainder {remainder : List Token} (nonempty : remainder ≠ [])
    (noSemicolon : ∀ t ∈ remainder, t.lexeme ≠ .semicolon)
    (noEnd : ∀ t ∈ remainder, t.lexeme ≠ .endOfFile) (isEnd : stop.lexeme = .endOfFile) :
    ∃ problem, ComesTo stop remainder [stop] (.error problem) := by
  obtain ⟨problem, step⟩ := step_endOfFile (inner_of_ne noSemicolon noEnd) isEnd
  exact ⟨problem, begins_of_noEnd nonempty noEnd, step stop []⟩

/-- The parts of a stream are read one by one. -/
theorem readable_of_segments {segments : List (List Token)} {remainder : List Token}
    (closed : ∀ segment ∈ segments, ∃ body last, segment = body ++ [last] ∧
      last.lexeme = .semicolon ∧ ∀ t ∈ body, t.lexeme ≠ .semicolon)
    (noSemicolon : ∀ t ∈ remainder, t.lexeme ≠ .semicolon)
    (noEnd : ∀ t ∈ segments.flatten ++ remainder, t.lexeme ≠ .endOfFile)
    (isEnd : stop.lexeme = .endOfFile) :
    Readable stop (segments ++ if remainder.isEmpty then [] else [remainder]) := by
  induction segments with
  | nil =>
    cases remainder with
    | nil => exact .nil
    | cons t remainder =>
      obtain ⟨problem, comes⟩ := comesTo_remainder (by simp) noSemicolon noEnd isEnd
      exact .cons comes comes .nil
  | cons segment segments ih =>
    obtain ⟨body, last, rfl, isSemicolon, inner⟩ := closed segment List.mem_cons_self
    rw [List.flatten_cons, List.append_assoc] at noEnd
    obtain ⟨found, comes⟩ := comesTo_segment isSemicolon inner
      fun t member => noEnd t (List.mem_append_left _ member)
    exact .cons (comes stop _) (comes stop _) (ih
      (fun other member => closed other (List.mem_cons_of_mem _ member))
      (fun t member => noEnd t (List.mem_append_right _ member)))

theorem flatten_parts (ts : List Token) : (parts ts).flatten = ts := by
  have whole := (isCut_cut ts).whole
  unfold parts
  cases remainder : (cut ts).2 with
  | nil =>
    rw [remainder] at whole
    simpa using whole
  | cons t rest =>
    rw [remainder] at whole
    simpa using whole

/-- A segment alone is one statement or one problem. -/
theorem parseAlone_segment {ts segment : List Token} (noEnd : ∀ t ∈ ts, t.lexeme ≠ .endOfFile)
    (isEnd : stop.lexeme = .endOfFile) (member : segment ∈ (cut ts).1) :
    (Script.parseAlone stop segment).IsStatement ∨ (Script.parseAlone stop segment).IsProblem := by
  have whole := (isCut_cut ts).whole
  have inside : ∀ t ∈ segment, t ∈ ts := by
    intro t here
    rw [← whole]
    exact List.mem_append_left _ (List.mem_flatten.mpr ⟨segment, member, here⟩)
  obtain ⟨body, last, rfl, isSemicolon, inner⟩ := (isCut_cut ts).segments segment member
  obtain ⟨found, comes⟩ := comesTo_segment isSemicolon inner
    fun t here => noEnd t (inside t here)
  obtain ⟨statements, findings⟩ := (comes stop [stop]).parseAlone isEnd
  cases found with
  | ok statement => exact .inl ⟨by rw [statements]; rfl, by rw [findings]; rfl⟩
  | error problem => exact .inr ⟨by rw [statements]; rfl, by rw [findings]; rfl⟩

/-- A remainder alone is one problem. -/
theorem parseAlone_remainder {ts : List Token} (noEnd : ∀ t ∈ ts, t.lexeme ≠ .endOfFile)
    (isEnd : stop.lexeme = .endOfFile) (nonempty : (cut ts).2 ≠ []) :
    (Script.parseAlone stop (cut ts).2).IsProblem := by
  have whole := (isCut_cut ts).whole
  have inside : ∀ t ∈ (cut ts).2, t ∈ ts := by
    intro t here
    rw [← whole]
    exact List.mem_append_right _ here
  obtain ⟨problem, comes⟩ := comesTo_remainder nonempty (isCut_cut ts).remainder
    (fun t here => noEnd t (inside t here)) isEnd
  obtain ⟨statements, findings⟩ := comes.parseAlone isEnd
  exact ⟨by rw [statements]; rfl, by rw [findings]; rfl⟩

end Parser

/-- A stream is parsed part by part. It is cut behind its semicolons; every segment is one statement
or one problem, and tokens after the last semicolon are one problem; and what the stream comes to is
gathered from what its parts come to alone, in order, until the error budget is spent. -/
theorem Script.parse_gathers {ts : List Token} {stop : Token}
    (noEnd : ∀ t ∈ ts, t.lexeme ≠ .endOfFile) (isEnd : stop.lexeme = .endOfFile) :
    IsCut ts (cut ts).1 (cut ts).2 ∧
      (∀ segment ∈ (cut ts).1, (Script.parseAlone stop segment).IsStatement ∨
        (Script.parseAlone stop segment).IsProblem) ∧
      ((cut ts).2 ≠ [] → (Script.parseAlone stop (cut ts).2).IsProblem) ∧
      ∃ count, (Script.parse (ts ++ [stop])).Gathers
        ((parts ts).map (Script.parseAlone stop)) count := by
  refine ⟨isCut_cut ts, fun segment => parseAlone_segment noEnd isEnd,
    parseAlone_remainder noEnd isEnd, ?_⟩
  have readable : Readable stop (parts ts) := by
    apply readable_of_segments (isCut_cut ts).segments (isCut_cut ts).remainder _ isEnd
    rw [(isCut_cut ts).whole]
    exact noEnd
  obtain ⟨count, statements, findings, affordable, complete⟩ :=
    readable.run isEnd { ahead := ts ++ [stop] } (by rw [flatten_parts])
  obtain ⟨parsedStatements, parsedFindings⟩ := Script.parse_concat ts stop
  refine ⟨count, ?_, ?_, ?_, ?_⟩
  · rw [parsedStatements, statements, ← List.map_take, List.flatMap_map]
    rfl
  · rw [parsedFindings, findings, ← List.map_take, List.flatMap_map]
    rfl
  · intro fewer less
    have here := affordable fewer less
    rw [← List.map_take, List.flatMap_map]
    simpa using here
  · rw [parsedFindings, List.length_map]
    exact complete

/-- A binding without a value, an export statement, and a name that nothing follows. -/
def Parser.brokenTokens : List Token :=
  [⟨.name "a", .point 1 1⟩, ⟨.equals, .point 1 3⟩, ⟨.semicolon, .point 1 5⟩,
    ⟨.exportWord, .point 2 1⟩, ⟨.name "b", .point 2 8⟩, ⟨.semicolon, .point 2 9⟩,
    ⟨.name "c", .point 3 1⟩]

/-- The export statement is read between two problems. -/
theorem Script.parse_gathers_brokenTokens :
    (parts brokenTokens).length = 3 ∧
      (∃ count, (Script.parse (brokenTokens ++ [⟨.endOfFile, .point 3 2⟩])).Gathers
        ((parts brokenTokens).map (Script.parseAlone ⟨.endOfFile, .point 3 2⟩)) count) ∧
      (Script.parse (brokenTokens ++ [⟨.endOfFile, .point 3 2⟩])).script.statements.length = 1 ∧
      (Script.parse (brokenTokens ++ [⟨.endOfFile, .point 3 2⟩])).findings.size = 2 :=
  ⟨by decide, (Script.parse_gathers (by decide) rfl).2.2.2, by decide +kernel, by decide +kernel⟩

end TextureScript
