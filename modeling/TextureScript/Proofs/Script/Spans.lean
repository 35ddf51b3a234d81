import TextureScript.Proofs.Lists
import TextureScript.Proofs.Script.Reading

/-!
# Parsing stays within its tokens

Every span of a script comes from the spans of its tokens, by taking them over and by joining them,
and so does the span of every problem that parsing finds. So whatever is true of the spans of all
tokens and is kept by joining is true of all spans of the script and of its problems. Each reader
passes this on from the tokens that it is given; readers one after the other do so when each of them
does.
-/

namespace TextureScript

/-- The findings that are warnings. -/
def Code.IsWarning (code : Code) : Prop :=
  code = .unknownMaterialType ∨ code = .unknownChannel

instance (code : Code) : Decidable code.IsWarning :=
  inferInstanceAs (Decidable (_ ∨ _))

/-- A finding at a place that is allowed, and as serious as its code says. -/
structure Finding.Within (Placed : Span → Prop) (finding : Finding) : Prop where
  /-- The place is allowed. -/
  placed : Placed finding.span
  /-- The codes of warnings go with warnings, all others with errors. -/
  sorted : finding.severity = .warning ↔ finding.code.IsWarning

theorem Finding.Within.ofError {Placed : Span → Prop} {finding : Finding}
    (here : Placed finding.span) (serious : finding.severity = .error)
    (code : ¬finding.code.IsWarning) : finding.Within Placed :=
  ⟨here, iff_of_false (by rw [serious]; decide) code⟩

/-- All parts of a value stand at places that are allowed. -/
inductive Expr.Within (Placed : Span → Prop) : Expr → Prop where
  | number {value : Int32} {span : Span} (here : Placed span) : Within Placed (.number value span)
  | name {text : String} {span : Span} (here : Placed span) : Within Placed (.name text span)
  | call {callee : Name} {args : List Expr} {span : Span} (named : Placed callee.span)
      (each : ∀ arg ∈ args, Within Placed arg) (here : Placed span) :
      Within Placed (.call callee args span)

/-- All parts of a statement stand at places that are allowed. -/
inductive Statement.Within (Placed : Span → Prop) : Statement → Prop where
  | bind {target : Name} {value : Expr} {span : Span} (named : Placed target.span)
      (valued : value.Within Placed) (here : Placed span) :
      Within Placed (.bind target value span)
  | channel {material channel materialType : Name} {value : Expr} {span : Span}
      (ofMaterial : Placed material.span) (named : Placed channel.span)
      (typed : Placed materialType.span) (valued : value.Within Placed) (here : Placed span) :
      Within Placed (.channel material channel materialType value span)
  | exports {names : List Name} {span : Span} (each : ∀ name ∈ names, Placed name.span)
      (here : Placed span) : Within Placed (.exports names span)

theorem Expr.Within.span {Placed : Span → Prop} {e : Expr} (within : e.Within Placed) :
    Placed e.span := by
  cases within <;> assumption

namespace Parser

variable {α β : Type} {Placed : Span → Prop}

/-- The tokens stand at places that are allowed. -/
def AllPlaced (Placed : Span → Prop) (ts : List Token) : Prop :=
  ∀ t ∈ ts, Placed t.span

/-- A value of the right sort was found, or a problem at a place that is allowed. -/
inductive Found (Placed : Span → Prop) (Good : α → Prop) : Except Finding α → Prop where
  | ok {value : α} (good : Good value) : Found Placed Good (.ok value)
  | error {problem : Finding} (within : problem.Within Placed) : Found Placed Good (.error problem)

theorem Found.of_ok {Good : α → Prop} {outcome : Except Finding α} {value : α}
    (found : Found Placed Good outcome) (ok : outcome = .ok value) : Good value := by
  cases found with
  | ok good => exact Except.ok.inj ok ▸ good
  | error => cases ok

theorem Found.of_error {Good : α → Prop} {outcome : Except Finding α} {problem : Finding}
    (found : Found Placed Good outcome) (failed : outcome = .error problem) :
    problem.Within Placed := by
  cases found with
  | ok => cases failed
  | error within => exact Except.error.inj failed ▸ within

/-- A reader finds values of the right sort and problems at places that are allowed, wherever the
tokens stand at such places. -/
def Reader.Finds (Placed : Span → Prop) (Good : α → Prop) (reader : Reader α) : Prop :=
  ∀ stop ts, Placed stop.span → AllPlaced Placed ts → Found Placed Good (reader stop ts).result

theorem finds_pure {Good : α → Prop} {value : α} (good : Good value) :
    (pure value : Reader α).Finds Placed Good :=
  fun _ _ _ _ => .ok good

theorem finds_fail {Good : α → Prop} {problem : Finding} (within : problem.Within Placed) :
    (Reader.fail problem : Reader α).Finds Placed Good :=
  fun _ _ _ _ => .error within

theorem Reader.Finds.bind {Good : α → Prop} {Fine : β → Prop} {first : Reader α}
    {next : α → Reader β} (found : first.Finds Placed Good)
    (later : ∀ value, Good value → (next value).Finds Placed Fine) :
    (first >>= next).Finds Placed Fine := by
  intro stop ts last ahead
  have rest : AllPlaced Placed (first stop ts).rest :=
    fun t member => ahead t ((first stop ts).suffix.subset member)
  have result := found stop ts last ahead
  change Found Placed Fine (Reader.bind first next stop ts).result
  unfold Reader.bind
  simp only
  generalize (first stop ts).result = outcome at result ⊢
  cases result with
  | ok good => exact later _ good stop _ last rest
  | error within => exact .error within

theorem placed_current {stop : Token} {ts : List Token} (last : Placed stop.span)
    (ahead : AllPlaced Placed ts) : Placed (current stop ts).span := by
  cases ts with
  | nil => exact last
  | cons t ts => exact ahead t List.mem_cons_self

theorem finds_unexpected {Good : α → Prop} (expected : String) :
    (unexpected expected : Reader α).Finds Placed Good := by
  intro stop ts last ahead
  exact .error (.ofError (placed_current last ahead) rfl
    (show ¬Code.IsWarning .unexpectedToken by decide))

theorem finds_choose {Good : α → Prop} {form : Lexeme → Lexeme → Reader α}
    (forms : ∀ next after, (form next after).Finds Placed Good) :
    (choose form).Finds Placed Good :=
  fun stop ts last ahead => forms _ _ stop ts last ahead

/-- A single token is found to mean what its span allows. -/
theorem finds_single {Good : α → Prop} (expected : String) {meaning : Token → Option α}
    (meant : ∀ t value, Placed t.span → meaning t = some value → Good value) :
    (single expected meaning).Finds Placed Good := by
  intro stop ts last ahead
  cases ts with
  | nil => exact finds_unexpected expected stop [] last ahead
  | cons t ts =>
    unfold single
    simp only
    cases found : meaning t with
    | none => exact finds_unexpected expected stop (t :: ts) last ahead
    | some value => exact .ok (meant t value (ahead t List.mem_cons_self) found)

theorem finds_expect (lexeme : Lexeme) : (expect lexeme).Finds Placed Placed := by
  apply finds_single
  intro t span here found
  unfold spanOf? at found
  split at found
  · cases found
    exact here
  · cases found

theorem finds_expectName : expectName.Finds Placed fun name => Placed name.span := by
  apply finds_single
  intro t name here found
  unfold name? at found
  split at found
  · cases found
    exact here
  · cases found

theorem finds_magnitude : magnitude.Finds Placed fun number => Placed number.2 := by
  apply finds_single
  intro t number here found
  unfold number? at found
  split at found
  · cases found
    exact here
  · cases found

/-- Items are found one after the other, as long as a comma follows. -/
theorem finds_separatedFrom {Good : α → Prop} {item : Reader α} (each : item.Finds Placed Good)
    {stop : Token} {given : List Token} {done : Array α} {ts : List Token} (within : ts <:+ given)
    (last : Placed stop.span) (ahead : AllPlaced Placed ts)
    (before : ∀ value ∈ done.toList, Good value) :
    Found Placed (fun items => ∀ value ∈ items.toList, Good value)
      (separatedFrom item stop given done ts within).result := by
  fun_induction separatedFrom item stop given done ts within with
  | case1 done ts within found problem failed =>
    exact .error ((each stop ts last ahead).of_error failed)
  | case2 done ts within found value ok span rest comma used ih =>
    have rest : AllPlaced Placed rest :=
      fun t member => ahead t (used.subset (List.mem_cons_of_mem _ member))
    exact ih rest (forall_mem_push before ((each stop ts last ahead).of_ok ok))
  | case3 done ts within found value ok noComma =>
    exact .ok (forall_mem_push before ((each stop ts last ahead).of_ok ok))

theorem finds_separated {Good : α → Prop} {item : Reader α} (each : item.Finds Placed Good) :
    (separated item).Finds Placed fun items => ∀ value ∈ items.toList, Good value :=
  fun _ _ last ahead => finds_separatedFrom each _ last ahead nofun

/-! ## Values and statements -/

theorem finds_arguments {argument : Reader Expr}
    (each : argument.Finds Placed (Expr.Within Placed)) :
    (arguments argument).Finds Placed fun args => ∀ arg ∈ args, arg.Within Placed := by
  apply finds_choose
  intro next after
  unfold argumentsForm
  split
  · exact finds_pure nofun
  · exact (finds_separated each).bind fun _ good => finds_pure good

theorem finds_literal {span : Span} (signed : Int) (here : Placed span) :
    (literal signed span).Finds Placed (Expr.Within Placed) := by
  unfold literal
  split
  · exact finds_pure (.number here)
  · exact finds_fail (.ofError here rfl (show ¬Code.IsWarning .invalidNumber by decide))

theorem finds_unsigned : unsigned.Finds Placed (Expr.Within Placed) :=
  finds_magnitude.bind fun _ here => finds_literal _ here

theorem finds_reference : reference.Finds Placed (Expr.Within Placed) :=
  finds_expectName.bind fun _ named => finds_pure (.name named)

section

variable (joined : ∀ first second, Placed first → Placed second → Placed (first.merge second))
include joined

theorem finds_call {argument : Reader Expr} (each : argument.Finds Placed (Expr.Within Placed)) :
    (call argument).Finds Placed (Expr.Within Placed) :=
  finds_expectName.bind fun _ named =>
  (finds_expect _).bind fun _ _ =>
  (finds_arguments each).bind fun _ within =>
  (finds_expect _).bind fun _ close =>
  finds_pure (.call named within (joined _ _ named close))

theorem finds_negated : negated.Finds Placed (Expr.Within Placed) :=
  (finds_expect _).bind fun _ start =>
  finds_magnitude.bind fun _ here => finds_literal _ (joined _ _ start here)

/-- Values, however deep they are. -/
theorem finds_expression (depth : Nat) :
    (expression depth).Finds Placed (Expr.Within Placed) := by
  induction depth with
  | zero =>
    intro stop ts last ahead
    exact .error (.ofError (placed_current last ahead) rfl
      (show ¬Code.IsWarning .limitExceeded by decide))
  | succ depth ih =>
    apply finds_choose
    intro next after
    cases next with
    | name text =>
      by_cases called : after = .leftParen
      · rw [called]
        exact finds_call joined ih
      · rw [valueForm_name called]
        exact finds_reference
    | number value => exact finds_unsigned
    | minus => exact finds_negated joined
    | exportWord | leftParen | rightParen | comma | semicolon | equals | endOfFile =>
      exact finds_unexpected _

theorem finds_binding {value : Reader Expr} (valued : value.Finds Placed (Expr.Within Placed)) :
    (binding value).Finds Placed (Statement.Within Placed) :=
  finds_expectName.bind fun _ named =>
  (finds_expect _).bind fun _ _ =>
  valued.bind fun _ within =>
  (finds_expect _).bind fun _ last =>
  finds_pure (.bind named within (joined _ _ named last))

theorem finds_channel {value : Reader Expr} (valued : value.Finds Placed (Expr.Within Placed)) :
    (channel value).Finds Placed (Statement.Within Placed) :=
  (finds_expect _).bind fun _ start =>
  finds_expectName.bind fun _ ofMaterial =>
  (finds_expect _).bind fun _ _ =>
  finds_expectName.bind fun _ named =>
  (finds_expect _).bind fun _ _ =>
  finds_expectName.bind fun _ typed =>
  (finds_expect _).bind fun _ _ =>
  (finds_expect _).bind fun _ _ =>
  valued.bind fun _ within =>
  (finds_expect _).bind fun _ last =>
  finds_pure (.channel ofMaterial named typed within (joined _ _ start last))

theorem finds_exports : exports.Finds Placed (Statement.Within Placed) :=
  (finds_expect _).bind fun _ start =>
  (finds_separated finds_expectName).bind fun _ each =>
  (finds_expect _).bind fun _ last =>
  finds_pure (.exports each (joined _ _ start last))

theorem finds_statement : statement.Finds Placed (Statement.Within Placed) := by
  have value := finds_expression joined maxDepth
  apply finds_choose
  intro next after
  unfold statementForm
  split
  · exact finds_exports joined
  · exact finds_channel joined value
  · exact finds_binding joined value
  · exact finds_unexpected _

/-! ## Whole streams -/

/-- All that parsing has made of a stream so far, and all that stands ahead, is at places that are
allowed. -/
structure State.Within (Placed : Span → Prop) (state : State) : Prop where
  /-- The statements are. -/
  statements : ∀ statement ∈ state.statements.toList, statement.Within Placed
  /-- The problems are. -/
  findings : ∀ finding ∈ state.findings.toList, finding.Within Placed
  /-- The tokens ahead are. -/
  ahead : AllPlaced Placed state.ahead

theorem State.Within.step {state : State} {stop : Token} (within : state.Within Placed)
    (last : Placed stop.span) : (state.step stop).Within Placed := by
  have found := finds_statement joined stop state.ahead last within.ahead
  have rest : AllPlaced Placed (statement stop state.ahead).rest :=
    fun t member => within.ahead t ((statement stop state.ahead).suffix.subset member)
  unfold State.step
  simp only
  generalize (statement stop state.ahead).result = outcome at found ⊢
  cases found with
  | ok good => exact ⟨forall_mem_push within.statements good, within.findings, rest⟩
  | error problem =>
    refine ⟨within.statements, forall_mem_push within.findings problem, ?_⟩
    exact fun t member => rest t ((recover_suffix _).subset member)

theorem State.Within.run {state : State} {stop : Token} (within : state.Within Placed)
    (last : Placed stop.span) : (state.run stop).Within Placed := by
  fun_induction State.run stop state with
  | case1 state finished => exact within
  | case2 state unfinished ih => exact ih (within.step joined last)

end

end Parser

/-- A script and the problems that parsing finds stand at places that are allowed when the tokens
do. -/
theorem Script.within_parse {Placed : Span → Prop}
    (joined : ∀ first second, Placed first → Placed second → Placed (first.merge second))
    (origin : Placed (.point 1 1)) {tokens : List Token}
    (placed : Parser.AllPlaced Placed tokens) :
    (∀ statement ∈ (Script.parse tokens).script.statements, statement.Within Placed) ∧
      ∀ finding ∈ (Script.parse tokens).findings.toList, finding.Within Placed := by
  have last : Placed (tokens.getLast?.getD ⟨.endOfFile, .point 1 1⟩).span := by
    cases ends : tokens.getLast? with
    | none => exact origin
    | some t => exact placed t (List.mem_of_getLast? ends)
  have start : Parser.State.Within Placed { ahead := tokens } := ⟨nofun, nofun, placed⟩
  have final := start.run joined last
  exact ⟨final.statements, final.findings⟩

end TextureScript
