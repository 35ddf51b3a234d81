import TextureScript.Proofs.Compiler.Acceptance
import TextureScript.Proofs.Token.Scanner

/-!
# The error budget bounds lexing

Once the error budget is spent, lexing passes nothing but blanks and comments. So no token starts
behind the problem that spent it, and one more problem can only be that of a comment without an end:
such a comment goes up to the end of the text, and nothing is behind it. Together with the limits
within which scanning is lexing this bounds what a broken text can cost: the number of calls for a
token, how deep they nest, and the number of problems.
-/

namespace TextureScript

/-! ## What is passed when the budget is spent -/

namespace Lexer.State

variable {source : SourceText} {state state' : State}

/-- Passing pieces adds one problem for each piece that has one. -/
theorem Passes.size_findings {pieces : List Piece} (passes : Passes source pieces state state') :
    state'.findings.size = state.findings.size + (pieces.filterMap Piece.fault?).length := by
  have sites := congrArg List.length passes.findings
  rw [List.length_append, List.length_map, List.length_map, Array.length_toList,
    Array.length_toList] at sites
  rw [sites, ← Stretch.map_code_along source state.offset, List.length_map]

/-- The walk passes the first of the pieces, and behind as many problems as are allowed only blanks
and comments. -/
theorem foldl_affords (source : SourceText) (going : state.stopped = false) (pieces : List Piece) :
    ∃ passed left, pieces = passed ++ left ∧
      Passes source passed state (pieces.foldl (read source) state) ∧
      ∀ before piece after, passed = before ++ piece :: after →
        errorBudget ≤ state.findings.size + (before.filterMap Piece.fault?).length →
          piece.isTrivia = true := by
  induction pieces generalizing state with
  | nil =>
    refine ⟨[], [], rfl, Passes.refl source state, ?_⟩
    intro before piece after cut
    exact absurd cut.symm (List.append_ne_nil_of_right_ne_nil before (List.cons_ne_nil _ _))
  | cons piece pieces ih =>
    rw [List.foldl_cons]
    cases moves_read source going piece with
    | stops stopped spent unmoved =>
      rw [foldl_stopped source stopped]
      refine ⟨[], piece :: pieces, rfl, unmoved, ?_⟩
      intro before other after cut
      exact absurd cut.symm (List.append_ne_nil_of_right_ne_nil before (List.cons_ne_nil _ _))
    | passes stillGoing here =>
      obtain ⟨passed, left, rfl, there, afforded⟩ := ih stillGoing
      refine ⟨piece :: passed, left, rfl, here.trans there, ?_⟩
      intro before other after cut spent
      cases before with
      | nil =>
        cases cut
        by_contra solid
        have stops := read_of_spent source going spent (Bool.eq_false_iff.mpr solid)
        rw [stops] at stillGoing
        cases stillGoing
      | cons first before =>
        cases cut
        have counted := here.size_findings
        have split : ((piece :: before).filterMap Piece.fault?).length =
            ([piece].filterMap Piece.fault?).length + (before.filterMap Piece.fault?).length := by
          rw [← List.length_append, ← List.filterMap_append, List.singleton_append]
        exact afforded before other after rfl (by omega)

end Lexer.State

/-! ## Stretches behind the last affordable problem -/

namespace Stretch

theorem map_piece_along (offset : Nat) (pieces : List Piece) :
    (along offset pieces).map Stretch.piece = pieces := by
  induction pieces generalizing offset with
  | nil => rfl
  | cons piece pieces ih => rw [along, List.map_cons, ih]

theorem length_problems (source : SourceText) (stretches : List Stretch) :
    (stretches.filterMap (problem? source)).length =
      ((stretches.map Stretch.piece).filterMap Piece.fault?).length := by
  rw [List.filterMap_map, List.length_filterMap_eq_countP, List.length_filterMap_eq_countP]
  apply List.countP_congr
  intro stretch _
  rw [problem?, Option.isSome_map]
  rfl

theorem token?_of_isTrivia {source : SourceText} {stretch : Stretch}
    (trivia : stretch.piece.isTrivia = true) : stretch.token? source = none := by
  obtain ⟨start, piece⟩ := stretch
  cases piece with
  | blank | openComment => rfl
  | lexeme | malformedNumber | oversizedNumber | stray => cases trivia

/-- Where there are enough problems, there is one with any smaller number of problems before it. -/
theorem exists_problem {source : SourceText} {stretches : List Stretch} {count : Nat}
    (enough : count < (stretches.filterMap (problem? source)).length) :
    ∃ before last after, stretches = before ++ last :: after ∧
      (before.filterMap (problem? source)).length = count ∧ (last.problem? source).isSome := by
  have cut := (List.take_append_drop count (stretches.filterMap (problem? source))).symm
  rw [List.drop_eq_getElem_cons enough] at cut
  obtain ⟨front, back, rfl, kept, later⟩ := List.filterMap_eq_append_iff.mp cut
  obtain ⟨silent, last, after, rfl, none, found, -⟩ := List.filterMap_eq_cons_iff.mp later
  refine ⟨front ++ silent, last, after, by simp, ?_, by rw [found]; rfl⟩
  rw [List.filterMap_append, kept, List.filterMap_eq_nil_iff.mpr none, List.append_nil,
    List.length_take]
  omega

end Stretch

/-- Pieces of which nothing is written are none. -/
theorem Piece.FitAll.eq_nil {pieces : List Piece} {rest : List Char} (fit : FitAll pieces rest)
    (empty : pieces.flatMap text = []) : pieces = [] := by
  cases fit with
  | nil => rfl
  | cons fits others =>
    rw [List.flatMap_cons, List.append_eq_nil_iff] at empty
    exact absurd empty.1 fits.text_ne_nil

/-- Nothing is behind a comment without an end. -/
theorem Piece.eq_nil_of_openComment {cs text : List Char} {before after : List Piece}
    (cut : split cs = before ++ .openComment text :: after) : after = [] := by
  have fit := (fitAll_split cs).1
  rw [cut] at fit
  cases fit.append.2 with
  | cons fits others =>
    rw [List.append_nil] at fits
    generalize written : after.flatMap Piece.text = rest at fits
    cases fits with
    | openComment => exact others.eq_nil written

/-! ## The budget -/

namespace Stretch

/-- Where the error budget is spent: a stretch that has a problem, with one problem less before it
than are allowed, and the stretches behind it. -/
structure SpendsBudget (source : SourceText) (stretches before : List Stretch) (last : Stretch)
    (after : List Stretch) : Prop where
  /-- The stretch is one of those that were passed. -/
  cut : stretches = before ++ last :: after
  /-- There are forty-nine problems before it. -/
  earlier : (before.filterMap (problem? source)).length = 49
  /-- Its own problem is the fiftieth. -/
  problem : (last.problem? source).isSome

variable {source : SourceText} {passed left : List Piece} {before after : List Stretch}
  {last : Stretch}

theorem SpendsBudget.length_append {stretches : List Stretch}
    (spent : SpendsBudget source stretches before last after) (others : List Stretch) :
    ((before ++ last :: others).filterMap (problem? source)).length =
      50 + (others.filterMap (problem? source)).length := by
  obtain ⟨site, found⟩ := Option.isSome_iff_exists.mp spent.problem
  rw [List.filterMap_append, List.filterMap_cons, found, List.length_append, List.length_cons,
    spent.earlier]
  omega

/-- The pieces that were passed, cut at a stretch behind the budget. -/
theorem SpendsBudget.passed_eq {front back : List Stretch} {stretch : Stretch}
    (spent : SpendsBudget source (along 0 passed) before last (front ++ stretch :: back)) :
    passed = (before ++ last :: front).map Stretch.piece ++
      stretch.piece :: back.map Stretch.piece := by
  have cut := congrArg (List.map Stretch.piece) spent.cut
  rwa [map_piece_along, ← List.cons_append, ← List.append_assoc, List.map_append,
    List.map_cons] at cut

/-- Behind the budget there is nothing but blanks and comments. -/
theorem SpendsBudget.isTrivia (spent : SpendsBudget source (along 0 passed) before last after)
    (afforded : ∀ front piece back, passed = front ++ piece :: back →
      errorBudget ≤ (front.filterMap Piece.fault?).length → piece.isTrivia = true) :
    ∀ stretch ∈ after, stretch.piece.isTrivia = true := by
  intro stretch member
  obtain ⟨gap, others, rfl⟩ := List.append_of_mem member
  apply afforded _ _ _ spent.passed_eq
  have budget : errorBudget = 50 := rfl
  rw [← length_problems source, spent.length_append]
  omega

/-- Behind the budget there are blanks, and last there may be a comment without an end. -/
theorem SpendsBudget.behind (spent : SpendsBudget source (along 0 passed) before last after)
    (pieces : Piece.split source.content.toList = passed ++ left)
    (trivia : ∀ stretch ∈ after, stretch.piece.isTrivia = true) :
    (∀ stretch ∈ after, ∃ text, stretch.piece = .blank text) ∨
      ∃ gap comment, after = gap ++ [comment] ∧
        (∀ stretch ∈ gap, ∃ text, stretch.piece = .blank text) ∧
        ∃ text, comment.piece = .openComment text := by
  -- a comment without an end is the last of all pieces
  have ends : ∀ front stretch back text, after = front ++ stretch :: back →
      stretch.piece = .openComment text → back = [] := by
    rintro front stretch back text rfl isOpen
    rw [spent.passed_eq, isOpen, List.append_assoc, List.cons_append] at pieces
    exact List.map_eq_nil_iff.mp (List.append_eq_nil_iff.mp (Piece.eq_nil_of_openComment pieces)).1
  have kinds : ∀ stretch ∈ after, (∃ text, stretch.piece = .blank text) ∨
      ∃ text, stretch.piece = .openComment text := by
    intro stretch member
    have isTrivia := trivia stretch member
    cases kind : stretch.piece with
    | blank text => exact .inl ⟨text, rfl⟩
    | openComment text => exact .inr ⟨text, rfl⟩
    | lexeme | malformedNumber | oversizedNumber | stray =>
      rw [kind] at isTrivia
      cases isTrivia
  rcases List.eq_nil_or_concat' after with rfl | ⟨gap, comment, rfl⟩
  · exact .inl nofun
  · have blanks : ∀ stretch ∈ gap, ∃ text, stretch.piece = .blank text := by
      intro stretch member
      apply (kinds stretch (List.mem_append_left _ member)).resolve_right
      rintro ⟨text, isOpen⟩
      obtain ⟨front, back, rfl⟩ := List.append_of_mem member
      have none := ends front stretch (back ++ [comment]) text (by simp) isOpen
      exact absurd none (by simp)
    rcases kinds comment (by simp) with ⟨text, isBlank⟩ | isOpen
    · left
      intro stretch member
      rcases List.mem_append.mp member with inGap | isLast
      · exact blanks stretch inGap
      · rw [List.mem_singleton.mp isLast]
        exact ⟨text, isBlank⟩
    · exact .inr ⟨gap, comment, rfl, blanks, isOpen⟩

theorem problems_eq_nil {stretches : List Stretch}
    (blanks : ∀ stretch ∈ stretches, ∃ text, stretch.piece = .blank text) :
    stretches.filterMap (problem? source) = [] := by
  rw [List.filterMap_eq_nil_iff]
  intro stretch member
  obtain ⟨text, isBlank⟩ := blanks stretch member
  rw [problem?, isBlank]
  rfl

/-- The problems are fifty, or one more for a comment without an end. -/
theorem SpendsBudget.problems_cases (spent : SpendsBudget source (along 0 passed) before last after)
    (pieces : Piece.split source.content.toList = passed ++ left)
    (trivia : ∀ stretch ∈ after, stretch.piece.isTrivia = true) :
    ((along 0 passed).filterMap (problem? source)).length = 50 ∨
      ((along 0 passed).filterMap (problem? source)).length = 51 ∧
        ∃ gap comment, after = gap ++ [comment] ∧
          (∀ stretch ∈ gap, ∃ text, stretch.piece = .blank text) ∧
          ∃ text, comment.piece = .openComment text := by
  have total : ((along 0 passed).filterMap (problem? source)).length =
      50 + (after.filterMap (problem? source)).length := by
    rw [spent.cut, spent.length_append]
  rcases spent.behind pieces trivia with blanks | ⟨gap, comment, rfl, blanks, text, isOpen⟩
  · left
    rw [total, problems_eq_nil blanks, List.length_nil]
  · right
    have one : ([comment].filterMap (problem? source)).length = 1 := by
      rw [length_problems, List.map_singleton, isOpen]
      rfl
    refine ⟨?_, gap, comment, rfl, blanks, text, isOpen⟩
    rw [total, List.filterMap_append, problems_eq_nil blanks, List.nil_append, one]

end Stretch

/-- The stretches that lexing has passed, and how the error budget bounds them. -/
structure Lexed.Budgeted (source : SourceText) (lexed : Lexed) (stretches : List Stretch) :
    Prop where
  /-- The text is cut into the stretches from its beginning on. The tokens and problems are those of
  the stretches, with an end mark behind the tokens. -/
  covers : ∃ passed left, Piece.split source.content.toList = passed ++ left ∧
    stretches = Stretch.along 0 passed ∧ lexed.Covers source passed
  /-- No other token is an end mark. -/
  inner : ∀ token ∈ stretches.filterMap (Stretch.token? source), token.lexeme ≠ .endOfFile
  /-- No token starts where the fiftieth problem was recorded, or behind that. -/
  early : ∀ before last after, Stretch.SpendsBudget source stretches before last after →
    ∀ stretch ∈ stretches, (stretch.token? source).isSome → stretch.start < last.stop
  /-- There are at most fifty-one problems, all of which are counted. -/
  few : (Report.empty.addFindings source lexed.findings).totalErrors = lexed.findings.size ∧
    lexed.findings.size ≤ 51
  /-- The one beyond the fiftieth is that of a comment without an end, with nothing but blanks and
  closed comments between the two. -/
  extra : 50 < lexed.findings.size → ∃ before last gap comment,
    Stretch.SpendsBudget source stretches before last (gap ++ [comment]) ∧
      (∀ stretch ∈ gap, ∃ text, stretch.piece = .blank text) ∧
      (∃ text, comment.piece = .openComment text) ∧
      lexed.findings.toList.getLast?.map (·.code) = some .unterminatedComment

theorem Lexed.Covers.length_problems {source : SourceText} {passed : List Piece} {lexed : Lexed}
    (covers : lexed.Covers source passed) :
    ((Stretch.along 0 passed).filterMap (Stretch.problem? source)).length =
      lexed.findings.size := by
  rw [← covers.findings, List.length_map, Array.length_toList]

theorem Lexed.Covers.totalErrors {source : SourceText} {passed : List Piece} {lexed : Lexed}
    (covers : lexed.Covers source passed) :
    (Report.empty.addFindings source lexed.findings).totalErrors = lexed.findings.size := by
  have all : lexed.findings.toList.countP (·.severity = .error) = lexed.findings.toList.length := by
    rw [List.countP_eq_length]
    intro finding member
    exact decide_eq_true (covers.severity finding member)
  rw [Report.totalErrors_addFindings, all, Array.length_toList]
  exact Nat.zero_add _

/-- A comment without an end that is passed last is reported last. -/
theorem Lexed.Covers.getLast?_code {source : SourceText} {passed : List Piece} {lexed : Lexed}
    (covers : lexed.Covers source passed) {before : List Stretch} {comment : Stretch}
    (cut : Stretch.along 0 passed = before ++ [comment]) {text : List Char}
    (isOpen : comment.piece = .openComment text) :
    lexed.findings.toList.getLast?.map (·.code) = some .unterminatedComment := by
  have pieces := congrArg (List.map Stretch.piece) cut
  rw [Stretch.map_piece_along, List.map_append, List.map_singleton, isOpen] at pieces
  have reported : [Piece.openComment text].filterMap Piece.fault? = [.unterminatedComment] := rfl
  rw [← List.getLast?_map, covers.codes, pieces, List.filterMap_append, reported,
    List.getLast?_concat]

/-- A token starts before the point where the budget is spent. -/
theorem Stretch.SpendsBudget.start_lt {source : SourceText} {passed : List Piece}
    {before after : List Stretch} {last stretch : Stretch}
    (spent : SpendsBudget source (along 0 passed) before last after)
    (nonempty : ∀ stretch ∈ along 0 passed, stretch.start < stretch.stop)
    (trivia : ∀ stretch ∈ after, stretch.piece.isTrivia = true)
    (member : stretch ∈ along 0 passed) (token : (stretch.token? source).isSome) :
    stretch.start < last.stop := by
  have ordered := along_ordered 0 passed
  have lastMember : last ∈ along 0 passed := by
    rw [spent.cut]
    simp
  have positive := nonempty last lastMember
  have here := nonempty stretch member
  rw [spent.cut] at ordered member
  rcases List.mem_append.mp member with earlier | later
  · have apart := (List.pairwise_append.mp ordered).2.2 stretch earlier last List.mem_cons_self
    omega
  · rcases List.mem_cons.mp later with rfl | behind
    · exact positive
    · rw [token?_of_isTrivia (trivia stretch behind)] at token
      cases token

/-- Lexing ends, and the error budget bounds what it does, whatever the text is. Its tokens and
problems are those of calls for the next token that nest at most fifty deep, in loops that take at
most one turn more than there are characters. No token starts behind the point where the fiftieth
problem was recorded. There is at most one more problem, which is that of a comment without an end,
found while blanks and comments behind that point were passed. -/
theorem SourceText.lex_within_budget (source : SourceText) :
    source.scan? (source.content.length + 1) 50 = some source.lex ∧
      ∃ stretches, source.lex.Budgeted source stretches := by
  refine ⟨source.scan?_eq_lex, ?_⟩
  obtain ⟨passed, left, pieces, walk, afforded⟩ :=
    @Lexer.State.foldl_affords {} source rfl (Piece.split source.content.toList)
  have empty : ({} : Lexer.State).findings.size = 0 := rfl
  simp only [empty, Nat.zero_add] at afforded
  have covers := Lexed.Covers.of_passes walk
  have counted := covers.length_problems
  have fits (stretch : Stretch) (member : stretch ∈ Stretch.along 0 passed) :
      ∃ rest, stretch.piece.Fits rest := by
    obtain ⟨-, rest, -, -, fits⟩ := Stretch.exists_context pieces member
    exact ⟨rest, fits⟩
  have nonempty (stretch : Stretch) (member : stretch ∈ Stretch.along 0 passed) :
      stretch.start < stretch.stop := by
    obtain ⟨rest, fits⟩ := fits stretch member
    exact Nat.lt_add_of_pos_right (byteLength_pos fits.text_ne_nil)
  have spends (many : 49 < source.lex.findings.size) : ∃ before last after,
      Stretch.SpendsBudget source (Stretch.along 0 passed) before last after := by
    obtain ⟨before, last, after, cut, earlier, problem⟩ := Stretch.exists_problem (counted ▸ many)
    exact ⟨before, last, after, cut, earlier, problem⟩
  refine ⟨Stretch.along 0 passed, {
    covers := ⟨passed, left, pieces, rfl, covers⟩
    inner := Lexed.Covers.noEnd fits
    early := fun before last after spent stretch member token =>
      spent.start_lt nonempty (spent.isTrivia afforded) member token
    few := ⟨covers.totalErrors, ?_⟩
    extra := fun many => ?_ }⟩
  · by_cases many : 49 < source.lex.findings.size
    · obtain ⟨before, last, after, spent⟩ := spends many
      rcases spent.problems_cases pieces (spent.isTrivia afforded) with fifty | ⟨more, -⟩
      · omega
      · omega
    · omega
  · obtain ⟨before, last, after, spent⟩ := spends (by omega)
    rcases spent.problems_cases pieces (spent.isTrivia afforded) with
      fifty | ⟨-, gap, comment, rfl, blanks, text, isOpen⟩
    · omega
    · have cut : Stretch.along 0 passed = (before ++ last :: gap) ++ [comment] := by
        rw [spent.cut, List.append_assoc, List.cons_append]
      exact ⟨before, last, gap, comment, spent, blanks, ⟨text, isOpen⟩,
        covers.getLast?_code cut isOpen⟩

end TextureScript
