import TextureScript.Proofs.Script.Recovery

/-!
# Parsing halts

Past the end of a stream its last token is seen again and again. Skipping to the next semicolon
therefore goes on for ever in a stream that neither has an end mark nor ends with a semicolon. It
halts in all others: an end mark is never passed, and a semicolon at the end is found again each
time. Then what stands past the last token does not matter either, as no statement is read across
a semicolon or an end mark.

Every turn of the statement loop adds a statement or a problem. Before an end mark it also uses a
token, so there are no more of both than tokens before the mark, and nothing behind the mark
matters. Without one the loop only ends when the error budget is spent.
-/

namespace TextureScript

open TextureScript.Parser TextureScript.Parser.Reader

namespace Parser

/-! ## Loops that may go on for ever -/

/-- Skip to the next semicolon and behind it, or to the end mark, in at most the given number of
turns. Each turn looks at the token that stands next, which past the last one is the last one
again. -/
def skipFor? (stop : Token) : (turns : Nat) → List Token → Option (List Token)
  | 0, _ => none
  | turns + 1, ts =>
    match (current stop ts).lexeme with
    | .endOfFile => some ts
    | .semicolon => some ts.tail
    | _ => skipFor? stop turns ts.tail

/-- Read statements until parsing is done, in at most the given number of turns, none of which may
skip for more turns than its limit. -/
def State.runFor? (stop : Token) (limit : Nat) : (turns : Nat) → State → Option State
  | 0, _ => none
  | turns + 1, state =>
    if state.done stop then some state
    else
      match statement.outcome stop state.ahead with
      | (.ok statement, rest) => runFor? stop limit turns (state.record (.ok statement) rest)
      | (.error problem, rest) => do
        let ahead ← skipFor? stop limit rest
        runFor? stop limit turns (state.record (.error problem) ahead)

end Parser

/-- The token that stands past the last one of a stream. -/
def Script.pastEnd (tokens : List Token) : Token :=
  tokens.getLast?.getD ⟨.endOfFile, .point 1 1⟩

/-- Parse a stream with loops that may go on for ever. -/
def Script.parseFor? (limit turns : Nat) (tokens : List Token) : Option Parsed := do
  let final ← State.runFor? (pastEnd tokens) limit turns { ahead := tokens }
  let span := (current (pastEnd tokens) tokens).span.merge (passed tokens final.ahead)
  return ⟨⟨final.statements.toList, span⟩, final.findings⟩

namespace Parser

/-- A stream comes to an end when there is an end mark ahead, or what stands past its last token
ends a statement. -/
def Ending (stop : Token) (ts : List Token) : Prop :=
  (∃ t ∈ ts, t.lexeme = .endOfFile) ∨ stop.lexeme.Ends

variable {stop : Token} {ts : List Token}

theorem skipFor?_of_inner {turns : Nat} (inner : ¬(current stop ts).lexeme.Ends) :
    skipFor? stop (turns + 1) ts = skipFor? stop turns ts.tail := by
  rw [skipFor?]
  generalize (current stop ts).lexeme = lexeme at inner
  cases lexeme <;> first | rfl | simp [Lexeme.Ends] at inner

theorem recover_of_inner {t : Token} (inner : ¬t.lexeme.Ends) : recover (t :: ts) = recover ts := by
  obtain ⟨lexeme, span⟩ := t
  cases lexeme <;> first | rfl | simp [Lexeme.Ends] at inner

/-- Skipping halts in a stream that comes to an end. -/
theorem skipFor?_eq_recover (ending : Ending stop ts) {turns : Nat} (enough : ts.length < turns) :
    skipFor? stop turns ts = some (recover ts) := by
  induction turns generalizing ts with
  | zero => exact absurd enough (Nat.not_lt_zero _)
  | succ turns ih =>
    cases ts with
    | nil =>
      rcases ending with ⟨t, member, -⟩ | isSemicolon | isEnd
      · cases member
      · simp [skipFor?, current, isSemicolon, recover]
      · simp [skipFor?, current, isEnd, recover]
    | cons t ts =>
      by_cases ends : t.lexeme.Ends
      · obtain ⟨lexeme, span⟩ := t
        rcases ends with rfl | rfl <;> rfl
      · have later : Ending stop ts := by
          refine ending.imp_left ?_
          rintro ⟨u, member, isEnd⟩
          rcases List.mem_cons.mp member with rfl | later
          · exact absurd (.inr isEnd) ends
          · exact ⟨u, later, isEnd⟩
        have next : ¬(current stop (t :: ts)).lexeme.Ends := ends
        rw [skipFor?_of_inner next, recover_of_inner ends]
        exact ih later (Nat.lt_of_succ_lt_succ enough)

/-- Skipping never halts where nothing ends a statement. -/
theorem skipFor?_eq_none (inner : Inner ts) (last : ¬stop.lexeme.Ends) (turns : Nat) :
    skipFor? stop turns ts = none := by
  induction turns generalizing ts with
  | zero => rfl
  | succ turns ih =>
    have next : ¬(current stop ts).lexeme.Ends := by
      cases ts with
      | nil => exact last
      | cons t ts => exact inner t List.mem_cons_self
    rw [skipFor?_of_inner next]
    exact ih (inner.of_suffix (List.tail_suffix ts))

/-! ## Reading up to the first end -/

/-- A stream that has a lexeme of some kind, up to the first one and behind it. -/
theorem exists_first (Kind : Lexeme → Prop) (found : ∃ t ∈ ts, Kind t.lexeme) :
    ∃ before t after, ts = before ++ t :: after ∧ (∀ u ∈ before, ¬Kind u.lexeme) ∧
      Kind t.lexeme := by
  induction ts with
  | nil =>
    obtain ⟨t, member, -⟩ := found
    cases member
  | cons t ts ih =>
    by_cases here : Kind t.lexeme
    · exact ⟨[], t, ts, rfl, nofun, here⟩
    · obtain ⟨u, member, kind⟩ := found
      have later : u ∈ ts := by
        rcases List.mem_cons.mp member with rfl | later
        · exact absurd kind here
        · exact later
      obtain ⟨before, first, after, rfl, others, kind⟩ := ih ⟨u, later, kind⟩
      exact ⟨t :: before, first, after, rfl, List.forall_mem_cons.mpr ⟨here, others⟩, kind⟩

/-- A statement is read without looking behind its end, and an end mark is left. -/
theorem statement_within {body : List Token} {last : Token} (inner : Inner body)
    (ends : last.lexeme.Ends) :
    ∃ result rest, rest <:+ body ++ [last] ∧ (last.lexeme = .endOfFile → rest ≠ []) ∧
      ∀ stop more, statement.outcome stop (body ++ last :: more) = (result, rest ++ more) := by
  rcases closes_statement body last inner ends with
    ⟨isSemicolon, value, outcome⟩ | ⟨problem, ahead, suffix, outcome⟩
  · refine ⟨.ok value, [], List.nil_suffix, ?_, outcome⟩
    intro isEnd
    rw [isSemicolon] at isEnd
    cases isEnd
  · refine ⟨.error problem, ahead ++ [last], ?_, fun _ => by simp, ?_⟩
    · obtain ⟨used, rfl⟩ := suffix
      exact ⟨used, by simp⟩
    · intro stop more
      rw [outcome, List.append_assoc, List.singleton_append]

section BeforeEnd

variable {before : List Token} {last : Token}

/-- Reading a statement does not pass an end mark. -/
theorem statement_before_end (isEnd : last.lexeme = .endOfFile) (before : List Token) :
    ∃ result left, left <:+ before ∧ ∀ stop more,
      statement.outcome stop (before ++ last :: more) = (result, left ++ last :: more) := by
  have marked : ∃ t ∈ before ++ [last], t.lexeme.Ends := ⟨last, by simp, .inr isEnd⟩
  obtain ⟨body, first, others, cut, inner, ends⟩ := exists_first Lexeme.Ends marked
  obtain ⟨result, rest, suffix, kept, outcome⟩ := statement_within inner ends
  have whole : rest ++ others <:+ before ++ [last] := by
    obtain ⟨used, split⟩ := suffix
    refine ⟨used, ?_⟩
    rw [cut, ← List.append_assoc, split, List.append_assoc, List.singleton_append]
  have nonempty : rest ++ others ≠ [] := by
    cases others with
    | nil =>
      -- then the end mark is the first end
      obtain rfl : last = first := by
        have same := List.append_inj_right' cut rfl
        exact List.singleton_inj.mp same
      simpa using kept isEnd
    | cons t others => simp
  obtain ⟨left, split, suffix⟩ := (List.suffix_concat_iff.mp whole).resolve_left nonempty
  refine ⟨result, left, suffix, ?_⟩
  intro stop more
  have stream : before ++ last :: more = body ++ first :: (others ++ more) := by
    rw [← List.singleton_append, ← List.append_assoc, cut, List.append_assoc, List.cons_append]
  rw [stream, outcome, ← List.append_assoc, split, List.append_assoc, List.singleton_append]

variable (noEnd : ∀ t ∈ before, t.lexeme ≠ .endOfFile) (isEnd : last.lexeme = .endOfFile)
include noEnd isEnd

/-- A step before an end mark uses a token, and comes to a statement or a problem that does not
depend on what is behind the mark. -/
theorem step_before_end (nonempty : before ≠ []) :
    ∃ found rest, rest <:+ before ∧ rest.length < before.length ∧ ∀ stop more (state : State),
      state.ahead = before ++ last :: more →
        state.step stop = state.record found (rest ++ last :: more) := by
  by_cases semicolon : ∃ t ∈ before, t.lexeme = .semicolon
  · obtain ⟨body, middle, rest, rfl, noSemicolon, isSemicolon⟩ :=
      exists_first (· = .semicolon) semicolon
    have inner : Inner body :=
      inner_of_ne noSemicolon fun t member => noEnd t (List.mem_append_left _ member)
    obtain ⟨found, step⟩ := step_semicolon inner isSemicolon
    refine ⟨found, rest, ⟨body ++ [middle], by simp⟩, by simp; omega, ?_⟩
    intro stop more state isAhead
    exact step stop (rest ++ last :: more) state (by simpa using isAhead)
  · have inner : Inner before :=
      inner_of_ne (fun t member isSemicolon => semicolon ⟨t, member, isSemicolon⟩) noEnd
    obtain ⟨problem, step⟩ := step_endOfFile inner isEnd
    exact ⟨.error problem, [], List.nil_suffix, List.length_pos_iff.mpr nonempty, step⟩

/-- A run before an end mark uses a token for each statement and each problem, and what it comes to
does not depend on what is behind the mark. -/
theorem State.run_before_end (statements : Array Statement) (findings : Array Finding) :
    ∃ statements' findings' rest, rest <:+ before ∧
      statements'.size + findings'.size + rest.length ≤
        statements.size + findings.size + before.length ∧
      ∀ stop more, State.run stop ⟨statements, findings, before ++ last :: more⟩ =
        ⟨statements', findings', rest ++ last :: more⟩ := by
  -- by induction on the number of tokens before the mark
  induction counted : before.length using Nat.strongRecOn
    generalizing before statements findings with
  | ind size ih =>
    by_cases finished : before = [] ∨ errorBudget ≤ findings.size
    · refine ⟨statements, findings, before, List.suffix_refl _, by omega, ?_⟩
      intro stop more
      apply State.run_of_done
      rcases finished with rfl | spent
      · simp [State.done, current, isEnd]
      · simp [State.done, State.spent, spent]
    · obtain ⟨nonempty, left⟩ := not_or.mp finished
      obtain ⟨found, rest, suffix, fewer, step⟩ := step_before_end noEnd isEnd nonempty
      have one : ∃ statements' findings',
          statements'.size + findings'.size = statements.size + findings.size + 1 ∧
          ∀ ahead ahead', State.record ⟨statements, findings, ahead⟩ found ahead' =
            ⟨statements', findings', ahead'⟩ := by
        cases found with
        | ok statement =>
          exact ⟨statements.push statement, findings, by rw [Array.size_push]; omega,
            fun _ _ => rfl⟩
        | error problem =>
          exact ⟨statements, findings.push problem, by rw [Array.size_push]; omega,
            fun _ _ => rfl⟩
      obtain ⟨statements', findings', counts, record⟩ := one
      obtain ⟨statements'', findings'', rest', suffix', fewer', run⟩ := ih rest.length
        (by omega) (fun t member => noEnd t (suffix.subset member)) statements' findings' rfl
      refine ⟨statements'', findings'', rest', suffix'.trans suffix, by omega, ?_⟩
      intro stop more
      have undone : ¬State.done stop ⟨statements, findings, before ++ last :: more⟩ := by
        simp [State.done, State.spent, begins_of_noEnd nonempty noEnd, left]
      rw [State.run, dif_neg undone, step stop more _ rfl, record, run]

end BeforeEnd

/-! ## Running -/

namespace State

variable {stop : Token} {state final : State}

/-- A turn of the statement loop adds one statement or one problem. -/
inductive Turn (state next : State) : Prop where
  | statement (found : Statement) (added : next.statements = state.statements.push found)
      (kept : next.findings = state.findings)
  | problem (found : Finding) (kept : next.statements = state.statements)
      (added : next.findings = state.findings.push found)

theorem turn_step (stop : Token) (state : State) : Turn state (state.step stop) := by
  rcases outcome : statement.outcome stop state.ahead with ⟨problem | found, rest⟩
  · rw [step_of_error outcome]
    exact .problem problem rfl rfl
  · rw [step_of_ok outcome]
    exact .statement found rfl rfl

theorem step_suffix (stop : Token) (state : State) : (state.step stop).ahead <:+ state.ahead := by
  have suffix := (statement stop state.ahead).suffix
  rcases outcome : statement.outcome stop state.ahead with ⟨problem | found, rest⟩
  · rw [step_of_error outcome, ahead_record]
    rw [(Prod.mk.inj outcome).2] at suffix
    exact (recover_suffix rest).trans suffix
  · rw [step_of_ok outcome, ahead_record]
    rw [(Prod.mk.inj outcome).2] at suffix
    exact suffix

/-- The states that the statement loop comes to. -/
inductive Reaches (stop : Token) : State → State → Prop where
  /-- No turn. -/
  | refl {state : State} : Reaches stop state state
  /-- A turn before others. -/
  | turn {state final : State} (undone : state.done stop = false)
      (later : Reaches stop (state.step stop) final) : Reaches stop state final

/-- The loop comes to the state that it ends with. -/
theorem reaches_run (stop : Token) (state : State) : Reaches stop state (state.run stop) := by
  fun_induction State.run stop state with
  | case1 => exact .refl
  | case2 state undone ih => exact .turn (Bool.eq_false_iff.mpr undone) ih

theorem Reaches.suffix (reaches : Reaches stop state final) : final.ahead <:+ state.ahead := by
  induction reaches with
  | refl => exact List.suffix_refl _
  | @turn state _ _ _ ih => exact ih.trans (state.step_suffix stop)

/-- The loop does not pass the first end mark. -/
theorem Reaches.before_end (reaches : Reaches stop state final) {before after : List Token}
    {last : Token} (noEnd : ∀ t ∈ before, t.lexeme ≠ .endOfFile)
    (isEnd : last.lexeme = .endOfFile) (isAhead : state.ahead = before ++ last :: after) :
    ∃ rest, rest <:+ before ∧ final.ahead = rest ++ last :: after := by
  induction reaches generalizing before with
  | refl => exact ⟨before, List.suffix_refl _, isAhead⟩
  | @turn state _ undone _ ih =>
    have nonempty : before ≠ [] := by
      rintro rfl
      simp [done, isAhead, current, isEnd] at undone
    obtain ⟨found, rest, suffix, -, step⟩ := step_before_end noEnd isEnd nonempty
    obtain ⟨rest', suffix', ahead⟩ := ih (fun t member => noEnd t (suffix.subset member))
      (by rw [step stop after state isAhead, ahead_record])
    exact ⟨rest', suffix'.trans suffix, ahead⟩

/-- Without an end mark the loop ends when the error budget is spent, and no problem later. -/
theorem findings_run_eq (noEnd : ∀ t ∈ state.ahead, t.lexeme ≠ .endOfFile)
    (last : stop.lexeme ≠ .endOfFile) (left : state.findings.size ≤ errorBudget) :
    (state.run stop).findings.size = errorBudget := by
  fun_induction State.run stop state with
  | case1 state finished =>
    have next : (current stop state.ahead).lexeme ≠ .endOfFile := by
      cases ahead : state.ahead with
      | nil => exact last
      | cons t ts => exact noEnd t (ahead ▸ List.mem_cons_self)
    have spent : errorBudget ≤ state.findings.size := by
      simpa [done, spent, next] using finished
    omega
  | case2 state undone ih =>
    have less : state.findings.size < errorBudget := by
      simp only [done, spent, Bool.or_eq_true, decide_eq_true_eq, not_or] at undone
      omega
    refine ih (fun t member => noEnd t ((state.step_suffix stop).subset member)) ?_
    cases state.turn_step stop with
    | statement _ _ kept => rw [kept]; omega
    | problem _ _ added => rw [added, Array.size_push]; omega

end State

theorem Ending.outcome_statement (ending : Ending stop ts) :
    Ending stop (statement.outcome stop ts).2 := by
  refine ending.imp_left fun marked => ?_
  obtain ⟨before, last, after, rfl, -, isEnd⟩ := exists_first (· = .endOfFile) marked
  obtain ⟨result, left, -, outcome⟩ := statement_before_end isEnd before
  rw [outcome]
  exact ⟨last, by simp, isEnd⟩

theorem Ending.recover (ending : Ending stop ts) : Ending stop (recover ts) := by
  refine ending.imp_left fun marked => ?_
  fun_induction Parser.recover ts with
  | case1 | case2 => exact marked
  | case3 span ts =>
    obtain ⟨t, member, isEnd⟩ := marked
    rcases List.mem_cons.mp member with rfl | later
    · cases isEnd
    · exact ⟨t, later, isEnd⟩
  | case4 t ts notEnd _ ih =>
    obtain ⟨u, member, isEnd⟩ := marked
    rcases List.mem_cons.mp member with rfl | later
    · exact absurd (show u = ⟨.endOfFile, u.span⟩ by rw [← isEnd]) (notEnd u.span)
    · exact ih (ending.imp_left fun _ => ⟨u, later, isEnd⟩) ⟨u, later, isEnd⟩

/-- The statement loop halts on a stream that comes to an end. -/
theorem State.runFor?_eq_run {limit turns : Nat} {state : State} (ending : Ending stop state.ahead)
    (roomy : state.ahead.length < limit) (enough : state.measure < turns) :
    State.runFor? stop limit turns state = some (state.run stop) := by
  induction turns generalizing state with
  | zero => exact absurd enough (Nat.not_lt_zero _)
  | succ turns ih =>
    by_cases finished : state.done stop
    · rw [runFor?, if_pos finished, State.run_of_done finished]
    · have fewer := State.measure_step_lt (Bool.eq_false_iff.mpr finished)
      have shorter := (state.step_suffix stop).length_le
      obtain ⟨result, rest, outcome⟩ : ∃ result rest, statement.outcome stop state.ahead =
        (result, rest) := ⟨_, _, rfl⟩
      have left : Ending stop rest := by
        have after := ending.outcome_statement
        rw [outcome] at after
        exact after
      have used : rest.length ≤ state.ahead.length := by
        rw [← (Prod.mk.inj outcome).2]
        exact (statement stop state.ahead).suffix.length_le
      rw [runFor?, if_neg finished, State.run, dif_neg finished, outcome]
      cases result with
      | error problem =>
        rw [step_of_error outcome] at fewer shorter ⊢
        rw [ahead_record] at shorter
        have skipped : skipFor? stop limit rest = some (recover rest) :=
          skipFor?_eq_recover left (by omega)
        simp only [skipped, Option.bind_eq_bind, Option.bind_some]
        exact ih (by rw [ahead_record]; exact left.recover) (by rw [ahead_record]; omega) (by omega)
      | ok found =>
        rw [step_of_ok outcome] at fewer ⊢
        exact ih (by rw [ahead_record]; exact left) (by rw [ahead_record]; omega) (by omega)

theorem State.Reaches.ending {state final : State} (reaches : Reaches stop state final)
    (ending : Ending stop state.ahead) : Ending stop final.ahead := by
  refine ending.imp_left fun marked => ?_
  obtain ⟨before, last, after, isAhead, noEnd, isEnd⟩ := exists_first (· = .endOfFile) marked
  obtain ⟨rest, -, left⟩ := reaches.before_end noEnd isEnd isAhead
  exact ⟨last, by simp [left], isEnd⟩

/-- Reading a statement from a stream that comes to an end does not depend on what stands past its
last token. -/
theorem Ending.statement_independent {ts given : List Token} (nonempty : ts ≠ [])
    (suffix : ts <:+ given) (ending : Ending (given.getLast?.getD stop) ts) :
    ∃ result rest, rest <:+ ts ∧ ∀ past more,
      statement.outcome past (ts ++ more) = (result, rest ++ more) := by
  have ends : ∃ t ∈ ts, t.lexeme.Ends := by
    rcases ending with ⟨t, member, isEnd⟩ | ends
    · exact ⟨t, member, .inr isEnd⟩
    · -- the last token of the stream is that of the tokens ahead
      obtain ⟨used, rfl⟩ := suffix
      obtain ⟨others, last, rfl⟩ := List.eq_nil_or_concat ts |>.resolve_left nonempty
      rw [List.concat_eq_append, ← List.append_assoc, List.getLast?_concat] at ends
      exact ⟨last, by simp, ends⟩
  obtain ⟨body, last, others, rfl, inner, ends⟩ := exists_first Lexeme.Ends ends
  obtain ⟨result, rest, suffix, -, outcome⟩ := statement_within inner ends
  refine ⟨result, rest ++ others, ?_, ?_⟩
  · obtain ⟨used, split⟩ := suffix
    exact ⟨used, by rw [← List.append_assoc, split]; simp⟩
  · intro past more
    rw [List.append_assoc, List.cons_append, outcome, List.append_assoc]

end Parser

/-! ## Whole streams -/

namespace Script

/-- A stream that is empty, has an end mark or ends with a semicolon. -/
def Halting (tokens : List Token) : Prop :=
  tokens = [] ∨ (∃ t ∈ tokens, t.lexeme = .endOfFile) ∨
    ∃ t ∈ tokens.getLast?, t.lexeme = .semicolon

theorem Halting.ending {tokens : List Token} (halting : Halting tokens) :
    Ending (pastEnd tokens) tokens := by
  rcases halting with rfl | marked | ⟨t, isLast, isSemicolon⟩
  · exact .inr (.inr rfl)
  · exact .inl marked
  · right
    left
    rw [pastEnd, Option.mem_def.mp isLast]
    exact isSemicolon

theorem parseFor?_eq_parse {tokens : List Token} (halting : Halting tokens) :
    parseFor? (tokens.length + 1) (tokens.length + errorBudget + 1) tokens =
      some (parse tokens) := by
  have ran : State.runFor? (pastEnd tokens) (tokens.length + 1) (tokens.length + errorBudget + 1)
      { ahead := tokens } = some (State.run (pastEnd tokens) { ahead := tokens }) :=
    State.runFor?_eq_run halting.ending (Nat.lt_succ_self _) (Nat.lt_succ_self _)
  rw [parseFor?, ran]
  rfl

/-- What is behind the first end mark does not matter, and there are no more statements and problems
than tokens before it. -/
theorem parse_before_end {before : List Token} {last : Token}
    (noEnd : ∀ t ∈ before, t.lexeme ≠ .endOfFile) (isEnd : last.lexeme = .endOfFile)
    (after : List Token) :
    parse (before ++ last :: after) = parse (before ++ [last]) ∧
      (parse (before ++ last :: after)).script.statements.length +
        (parse (before ++ last :: after)).findings.size ≤ before.length := by
  obtain ⟨statements, findings, rest, -, fewer, run⟩ := State.run_before_end noEnd isEnd #[] #[]
  have taken : ∀ more, (before ++ last :: more).take
      ((before ++ last :: more).length - (rest ++ last :: more).length) =
        before.take (before.length - rest.length) := by
    intro more
    simp only [List.length_append, Nat.add_sub_add_right]
    exact List.take_append_of_le_length (Nat.sub_le _ _)
  constructor
  · simp only [parse, run, passed, taken, current_append]
  · simp only [parse, run, Array.length_toList]
    simp only [Array.size_empty] at fewer
    omega

/-- A stream without an end mark is parsed until the error budget is spent. -/
theorem findings_parse_eq {tokens : List Token} (nonempty : tokens ≠ [])
    (noEnd : ∀ t ∈ tokens, t.lexeme ≠ .endOfFile) :
    (parse tokens).findings.size = errorBudget := by
  have last : (pastEnd tokens).lexeme ≠ .endOfFile := by
    obtain ⟨others, last, rfl⟩ := (List.eq_nil_or_concat tokens).resolve_left nonempty
    rw [pastEnd, List.concat_eq_append, List.getLast?_concat]
    exact noEnd last (by simp)
  exact @State.findings_run_eq (pastEnd tokens) { ahead := tokens } noEnd last (Nat.zero_le _)

/-- Parsing halts on every stream that is empty, has an end mark or ends with a semicolon. Each turn
of the statement loop adds one statement or one problem, and what is read in it does not depend on
what stands past the last token. The first end mark is never passed, nothing behind it matters, and
there are at most as many statements and problems as tokens before it. Without an end mark, a stream
that is not empty is parsed until the error budget is spent, and no further. -/
theorem parse_halts {tokens : List Token} (halting : Halting tokens) :
    parseFor? (tokens.length + 1) (tokens.length + errorBudget + 1) tokens =
        some (parse tokens) ∧
      (∀ state, State.Reaches (pastEnd tokens) { ahead := tokens } state →
        state.done (pastEnd tokens) = false →
          state.Turn (state.step (pastEnd tokens)) ∧
          (state.ahead ≠ [] → ∃ result rest, rest <:+ state.ahead ∧ ∀ past more,
            statement.outcome past (state.ahead ++ more) = (result, rest ++ more))) ∧
      (∀ before last after, tokens = before ++ last :: after →
        (∀ t ∈ before, t.lexeme ≠ .endOfFile) → last.lexeme = .endOfFile →
          (∀ state, State.Reaches (pastEnd tokens) { ahead := tokens } state →
            ∃ rest left, rest <:+ before ∧ state.ahead = rest ++ last :: after ∧ left <:+ rest ∧
              (statement.outcome (pastEnd tokens) state.ahead).2 = left ++ last :: after) ∧
          parse tokens = parse (before ++ [last]) ∧
          (parse tokens).script.statements.length + (parse tokens).findings.size ≤
            before.length) ∧
      (tokens ≠ [] → (∀ t ∈ tokens, t.lexeme ≠ .endOfFile) →
        (parse tokens).findings.size = errorBudget) := by
  refine ⟨parseFor?_eq_parse halting, fun state reaches _ => ⟨state.turn_step _, ?_⟩, ?_,
    findings_parse_eq⟩
  · intro nonempty
    exact (reaches.ending halting.ending).statement_independent nonempty reaches.suffix
  · rintro before last after rfl noEnd isEnd
    refine ⟨fun state reaches => ?_, parse_before_end noEnd isEnd after⟩
    obtain ⟨rest, suffix, isAhead⟩ := reaches.before_end noEnd isEnd rfl
    obtain ⟨result, left, suffix', outcome⟩ := statement_before_end isEnd rest
    exact ⟨rest, left, suffix, isAhead, suffix', by rw [isAhead, outcome]⟩

/-- An export statement. -/
def exportTokens : List Token :=
  [⟨.exportWord, .point 1 1⟩, ⟨.name "a", .point 1 8⟩, ⟨.semicolon, .point 1 9⟩]

/-- Without an end mark the semicolon is seen again until the error budget is spent; with one, a
second statement behind it is not seen. -/
theorem parse_halts_exportTokens :
    (parse exportTokens).findings.size = errorBudget ∧
      parse (exportTokens ++ ⟨.endOfFile, .point 2 1⟩ :: exportTokens) =
        parse (exportTokens ++ [⟨.endOfFile, .point 2 1⟩]) ∧
      (parse (exportTokens ++ [⟨.endOfFile, .point 2 1⟩])).script.statements.length = 1 := by
  have unmarked : Halting exportTokens := .inr (.inr ⟨_, rfl, rfl⟩)
  have marked : Halting (exportTokens ++ ⟨.endOfFile, .point 2 1⟩ :: exportTokens) :=
    .inr (.inl ⟨⟨.endOfFile, .point 2 1⟩, by simp, rfl⟩)
  refine ⟨(parse_halts unmarked).2.2.2 (by decide) (by decide), ?_, by decide +kernel⟩
  exact ((parse_halts marked).2.2.1 exportTokens _ exportTokens rfl (by decide) rfl).2.1

end Script

end TextureScript
