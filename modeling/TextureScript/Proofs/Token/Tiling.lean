import TextureScript.Proofs.Source.Slices
import TextureScript.Proofs.Token.Forms

/-!
# Tokens tile their text

The lexer passes the pieces of a text one after the other and stops before the first one that it can
no longer afford. So the text that was lexed is tiled by stretches, each of which is a piece at its
offset. A token stands for a stretch and is placed by the bytes of the stretch, and so is the
problem that is reported for it. Unless the error budget is spent, no byte of the text lies outside
the stretches.
-/

namespace TextureScript

/-! ## Stretches -/

namespace Piece

/-- The lexeme that the token for a piece says: its own, and zero for a number that is malformed or
too large. -/
def said? : Piece → Option Lexeme
  | .lexeme found _ => some found
  | .malformedNumber _ => some (.number 0)
  | .oversizedNumber _ => some (.number 0)
  | _ => none

/-- The kind of problem that is reported for a piece. -/
def fault? : Piece → Option Code
  | .openComment _ => some .unterminatedComment
  | .malformedNumber _ => some .invalidNumber
  | .oversizedNumber _ => some .invalidNumber
  | .stray _ => some .unexpectedToken
  | _ => none

end Piece

/-- A piece of a text, and the byte offset at which it starts. -/
structure Stretch where
  /-- The offset of its first byte. -/
  start : Nat
  /-- What is taken there as one. -/
  piece : Piece

namespace Stretch

/-- The offset behind the last byte. -/
def stop (stretch : Stretch) : Nat :=
  stretch.start + byteLength stretch.piece.text

/-- The offset behind the bytes that are at fault: all of them, but of an unclosed comment only the
first two. -/
def faultStop (stretch : Stretch) : Nat :=
  match stretch.piece with
  | .openComment _ => stretch.start + 2
  | _ => stretch.stop

/-- The token for a stretch, placed by its bytes. -/
def token? (source : SourceText) (stretch : Stretch) : Option Token :=
  stretch.piece.said?.map fun lexeme => ⟨lexeme, source.span stretch.start stretch.stop⟩

/-- The kind and the place of the error that is reported for a stretch. -/
def problem? (source : SourceText) (stretch : Stretch) : Option (Code × Severity × Span) :=
  stretch.piece.fault?.map fun code => (code, .error, source.span stretch.start stretch.faultStop)

/-- The stretches that pieces take up one behind the other. -/
def along (offset : Nat) : List Piece → List Stretch
  | [] => []
  | piece :: pieces => ⟨offset, piece⟩ :: along (offset + byteLength piece.text) pieces

theorem along_append (offset : Nat) (pieces others : List Piece) :
    along offset (pieces ++ others) =
      along offset pieces ++ along (offset + byteLength (pieces.flatMap Piece.text)) others := by
  induction pieces generalizing offset with
  | nil => rfl
  | cons piece pieces ih =>
    rw [List.cons_append, along, along, ih, List.flatMap_cons, byteLength_append, Nat.add_assoc,
      List.cons_append]

/-- A stretch is one of the pieces, at the offset behind the pieces before it. -/
theorem exists_of_mem_along {offset : Nat} {pieces : List Piece} {stretch : Stretch}
    (member : stretch ∈ along offset pieces) :
    ∃ before after, pieces = before ++ stretch.piece :: after ∧
      stretch.start = offset + byteLength (before.flatMap Piece.text) := by
  induction pieces generalizing offset with
  | nil => cases member
  | cons piece pieces ih =>
    rcases List.mem_cons.mp member with rfl | later
    · exact ⟨[], pieces, rfl, rfl⟩
    · obtain ⟨before, after, rfl, start⟩ := ih later
      refine ⟨piece :: before, after, rfl, ?_⟩
      rw [start, List.flatMap_cons, byteLength_append, Nat.add_assoc]

theorem le_start_of_mem_along {offset : Nat} {pieces : List Piece} {stretch : Stretch}
    (member : stretch ∈ along offset pieces) : offset ≤ stretch.start := by
  obtain ⟨before, -, -, start⟩ := exists_of_mem_along member
  omega

/-- Stretches do not overlap. -/
theorem along_ordered (offset : Nat) (pieces : List Piece) :
    (along offset pieces).Pairwise fun stretch later => stretch.stop ≤ later.start := by
  induction pieces generalizing offset with
  | nil => exact .nil
  | cons piece pieces ih =>
    exact .cons (fun later member => le_start_of_mem_along member) (ih _)

/-- Every byte of the pieces is in a stretch. -/
theorem exists_mem_along {start offset : Nat} {pieces : List Piece} (begun : start ≤ offset)
    (inside : offset < start + byteLength (pieces.flatMap Piece.text)) :
    ∃ stretch ∈ along start pieces, stretch.start ≤ offset ∧ offset < stretch.stop := by
  induction pieces generalizing start with
  | nil => exact absurd inside (Nat.not_lt_of_le begun)
  | cons piece pieces ih =>
    rw [List.flatMap_cons, byteLength_append, ← Nat.add_assoc] at inside
    by_cases here : offset < start + byteLength piece.text
    · exact ⟨_, List.mem_cons_self, begun, here⟩
    · obtain ⟨stretch, member, found⟩ := ih (Nat.le_of_not_lt here) inside
      exact ⟨stretch, List.mem_cons_of_mem _ member, found⟩

/-- Where pieces stand does not matter for what their tokens say. -/
theorem map_lexeme_along (source : SourceText) (offset : Nat) (pieces : List Piece) :
    ((along offset pieces).filterMap (token? source)).map (·.lexeme) =
      pieces.filterMap Piece.said? := by
  induction pieces generalizing offset with
  | nil => rfl
  | cons piece pieces ih =>
    rw [along, List.filterMap_cons, List.filterMap_cons, ← ih (offset + byteLength piece.text),
      token?]
    cases piece.said? <;> rfl

/-- Where pieces stand does not matter for the kinds of their problems. -/
theorem map_code_along (source : SourceText) (offset : Nat) (pieces : List Piece) :
    ((along offset pieces).filterMap (problem? source)).map (·.1) =
      pieces.filterMap Piece.fault? := by
  induction pieces generalizing offset with
  | nil => rfl
  | cons piece pieces ih =>
    rw [along, List.filterMap_cons, List.filterMap_cons, ← ih (offset + byteLength piece.text),
      problem?]
    cases piece.fault? <;> rfl

end Stretch

/-! ## The lexer passes stretches -/

/-- The kind of a problem, how serious it is and where it is. -/
def Finding.site (finding : Finding) : Code × Severity × Span :=
  (finding.code, finding.severity, finding.span)

namespace Lexer.State

variable {source : SourceText} {state state' : State} {pieces : List Piece}

/-- The walk has come from one state to another by passing some pieces. -/
structure Passes (source : SourceText) (pieces : List Piece) (state state' : State) : Prop where
  /-- The tokens are those of the stretches. -/
  tokens : state'.tokens.toList =
    state.tokens.toList ++ (Stretch.along state.offset pieces).filterMap (Stretch.token? source)
  /-- The problems are those of the stretches. -/
  findings : state'.findings.toList.map Finding.site = state.findings.toList.map Finding.site ++
    (Stretch.along state.offset pieces).filterMap (Stretch.problem? source)
  /-- The walk is behind the pieces. -/
  offset : state'.offset = state.offset + byteLength (pieces.flatMap Piece.text)

theorem Passes.refl (source : SourceText) (state : State) : Passes source [] state state :=
  ⟨by simp [Stretch.along], by simp [Stretch.along], rfl⟩

theorem Passes.trans {others : List Piece} {state'' : State}
    (first : Passes source pieces state state') (second : Passes source others state' state'') :
    Passes source (pieces ++ others) state state'' where
  tokens := by
    rw [second.tokens, first.tokens, first.offset, Stretch.along_append, List.filterMap_append,
      List.append_assoc]
  findings := by
    rw [second.findings, first.findings, first.offset, Stretch.along_append, List.filterMap_append,
      List.append_assoc]
  offset := by
    rw [second.offset, first.offset, List.flatMap_append, byteLength_append, Nat.add_assoc]

/-- What the walk can do at a piece: stop before it, when the error budget is spent, or pass it. -/
inductive Moves (source : SourceText) (piece : Piece) (state state' : State) : Prop where
  /-- The walk stops. -/
  | stops (stopped : state'.stopped = true) (spent : errorBudget ≤ state'.findings.size)
      (unmoved : Passes source [] state state')
  /-- The walk goes on behind the piece. -/
  | passes (going : state'.stopped = false) (passed : Passes source [piece] state state')

theorem moves_take (going : state.stopped = false) {token : Option Token} {finding : Option Finding}
    {piece : Piece} (made : Stretch.token? source ⟨state.offset, piece⟩ = token)
    (found : Stretch.problem? source ⟨state.offset, piece⟩ = finding.map Finding.site) :
    Moves source piece state
      (state.take (state.offset + byteLength piece.text) token finding) := by
  unfold take
  split
  · rename_i spent
    have still := Passes.refl source state
    exact .stops rfl spent ⟨still.tokens, still.findings, still.offset⟩
  · refine .passes going ⟨?_, ?_, by simp⟩
    · simp only [Stretch.along, List.filterMap_cons, made]
      cases token <;> simp
    · simp only [Stretch.along, List.filterMap_cons, found]
      cases finding <;> simp

theorem moves_read (source : SourceText) (going : state.stopped = false) (piece : Piece) :
    Moves source piece state (state.read source piece) := by
  unfold read
  rw [if_neg (Bool.eq_false_iff.mp going)]
  cases piece with
  | blank text =>
    exact .passes going ⟨by simp [Stretch.along, Stretch.token?, Piece.said?],
      by simp [Stretch.along, Stretch.problem?, Piece.fault?], by simp⟩
  | openComment text =>
    refine .passes going ⟨by simp [Stretch.along, Stretch.token?, Piece.said?], ?_, by simp⟩
    simp [Stretch.along, Stretch.problem?, Stretch.faultStop, Piece.fault?, Finding.site,
      openCommentFinding]
  | lexeme lexeme text => exact moves_take going rfl rfl
  | malformedNumber text => exact moves_take going rfl rfl
  | oversizedNumber text => exact moves_take going rfl rfl
  | stray char => exact moves_take going rfl rfl

theorem foldl_stopped (source : SourceText) (stopped : state.stopped = true)
    (pieces : List Piece) : pieces.foldl (read source) state = state := by
  induction pieces with
  | nil => rfl
  | cons piece pieces ih =>
    have unread : state.read source piece = state := by
      rw [read, if_pos stopped]
    rw [List.foldl_cons, unread, ih]

/-- The walk passes the first of the pieces, and all of them unless the error budget is spent. -/
theorem foldl_passes (source : SourceText) (going : state.stopped = false) (pieces : List Piece) :
    ∃ passed left, pieces = passed ++ left ∧
      Passes source passed state (pieces.foldl (read source) state) ∧
      (left = [] ∨ errorBudget ≤ (pieces.foldl (read source) state).findings.size) := by
  induction pieces generalizing state with
  | nil => exact ⟨[], [], rfl, Passes.refl source state, .inl rfl⟩
  | cons piece pieces ih =>
    rw [List.foldl_cons]
    cases moves_read source going piece with
    | stops stopped spent unmoved =>
      rw [foldl_stopped source stopped]
      exact ⟨[], piece :: pieces, rfl, unmoved, .inr spent⟩
    | passes stillGoing here =>
      obtain ⟨passed, left, rfl, there, complete⟩ := ih stillGoing
      exact ⟨piece :: passed, left, rfl, here.trans there, complete⟩

end Lexer.State

/-- What lexing has made of the first pieces of a text. -/
structure Lexed.Covers (source : SourceText) (passed : List Piece) (lexed : Lexed) : Prop where
  /-- The tokens are those of the stretches, with one end mark behind them. -/
  tokens : lexed.tokens.toList = (Stretch.along 0 passed).filterMap (Stretch.token? source) ++
    [⟨.endOfFile, source.span (byteLength (passed.flatMap Piece.text))
      (byteLength (passed.flatMap Piece.text))⟩]
  /-- The problems are those of the stretches. -/
  findings : lexed.findings.toList.map Finding.site =
    (Stretch.along 0 passed).filterMap (Stretch.problem? source)

/-- Lexing covers the pieces that the walk passes. -/
theorem Lexed.Covers.of_passes {source : SourceText} {passed : List Piece}
    (walk : Lexer.State.Passes source passed {}
      ((Piece.split source.content.toList).foldl (Lexer.State.read source) {})) :
    source.lex.Covers source passed := by
  refine ⟨?_, ?_⟩
  · have tokens := walk.tokens
    have offset := walk.offset
    rw [SourceText.lex, Lexer.State.finish, Array.toList_push, offset, tokens]
    simp
  · have findings := walk.findings
    simpa [SourceText.lex, Lexer.State.finish] using findings

/-- Lexing covers the first pieces of a text, and all of them unless the error budget is spent. -/
theorem SourceText.lex_covers (source : SourceText) :
    ∃ passed left, Piece.split source.content.toList = passed ++ left ∧
      source.lex.Covers source passed ∧ (left = [] ∨ errorBudget ≤ source.lex.findings.size) := by
  obtain ⟨passed, left, pieces, walk, complete⟩ := @Lexer.State.foldl_passes {} source rfl
    (Piece.split source.content.toList)
  exact ⟨passed, left, pieces, .of_passes walk, complete⟩

section

variable {source : SourceText} {pieces : List Piece}

theorem Lexed.Covers.lexemes {lexed : Lexed} (covers : lexed.Covers source pieces) :
    lexed.tokens.toList.map (·.lexeme) = pieces.filterMap Piece.said? ++ [.endOfFile] := by
  rw [covers.tokens, List.map_append, Stretch.map_lexeme_along]
  rfl

theorem Lexed.Covers.codes {lexed : Lexed} (covers : lexed.Covers source pieces) :
    lexed.findings.toList.map (·.code) = pieces.filterMap Piece.fault? := by
  have sites := congrArg (List.map Prod.fst) covers.findings
  rw [List.map_map, Stretch.map_code_along] at sites
  exact sites

theorem Lexed.Covers.size_findings {lexed : Lexed} (covers : lexed.Covers source pieces) :
    lexed.findings.size = (pieces.filterMap Piece.fault?).length := by
  rw [← covers.codes, List.length_map, Array.length_toList]

theorem Lexed.Covers.severity {lexed : Lexed} (covers : lexed.Covers source pieces) :
    ∀ finding ∈ lexed.findings.toList, finding.severity = .error := by
  intro finding member
  have site := List.mem_map_of_mem (f := Finding.site) member
  rw [covers.findings] at site
  obtain ⟨stretch, -, reported⟩ := List.mem_filterMap.mp site
  obtain ⟨code, -, same⟩ := Option.map_eq_some_iff.mp reported
  exact congrArg (fun site => site.2.1) same.symm

/-- A text whose pieces have few problems is lexed to its end. -/
theorem SourceText.covers_of_few (cut : Piece.split source.content.toList = pieces)
    (few : (pieces.filterMap Piece.fault?).length < errorBudget) :
    source.lex.Covers source pieces := by
  obtain ⟨passed, left, pieces', covers, complete⟩ := source.lex_covers
  have found := covers.size_findings
  rw [cut] at pieces'
  rw [pieces', List.filterMap_append, List.length_append] at few
  obtain rfl : left = [] := complete.resolve_right (by omega)
  rwa [pieces', List.append_nil]

end

/-! ## The tiling -/

/-- A text is tiled by stretches, as far as it was lexed. -/
structure Lexed.Tiling (source : SourceText) (lexed : Lexed) (stretches : List Stretch) : Prop where
  /-- The stretches come one behind the other and do not overlap. -/
  ordered : stretches.Pairwise fun stretch later => stretch.stop ≤ later.start
  /-- No stretch is empty. -/
  nonempty : ∀ stretch ∈ stretches, stretch.start < stretch.stop
  /-- Stretches begin and end between characters. -/
  bounded : ∀ stretch ∈ stretches,
    source.IsBoundary stretch.start ∧ source.IsBoundary stretch.stop
  /-- The bytes of a stretch spell the piece that it is. -/
  spelled : ∀ stretch ∈ stretches,
    source.slice? stretch.start stretch.stop = some (String.ofList stretch.piece.text)
  /-- The piece has one of the forms before the text behind the stretch: blank, a comment, a lexeme
  that its text denotes, a number that is malformed or too large, a comment that only the end of the
  text ends, or a single character that begins nothing. -/
  formed : ∀ stretch ∈ stretches, ∃ rest,
    source.slice? stretch.stop source.content.utf8ByteSize = some (String.ofList rest) ∧
      stretch.piece.Fits rest
  /-- The tokens are those of the stretches, in order, and one end mark. -/
  tokens : ∃ last, lexed.tokens.toList = stretches.filterMap (Stretch.token? source) ++ [last] ∧
    last.lexeme = .endOfFile ∧
      ∀ t ∈ stretches.filterMap (Stretch.token? source), t.lexeme ≠ .endOfFile
  /-- The problems are those of the stretches, in order, one for each that has one. -/
  findings : lexed.findings.toList.map Finding.site =
    stretches.filterMap (Stretch.problem? source)
  /-- Unless the error budget is spent, every byte of the text is in a stretch. -/
  complete : lexed.findings.size < errorBudget → ∀ offset < source.content.utf8ByteSize,
    ∃ stretch ∈ stretches, stretch.start ≤ offset ∧ offset < stretch.stop

theorem Lexed.Covers.noEnd {source : SourceText} {stretches : List Stretch}
    (formed : ∀ stretch ∈ stretches, ∃ rest, stretch.piece.Fits rest) :
    ∀ t ∈ stretches.filterMap (Stretch.token? source), t.lexeme ≠ .endOfFile := by
  intro t member
  obtain ⟨⟨start, piece⟩, inside, made⟩ := List.mem_filterMap.mp member
  obtain ⟨rest, fits⟩ := formed _ inside
  cases fits with
  | blank | lineComment | blockComment | openComment | stray => cases made
  | malformedNumber | oversizedNumber =>
    cases made
    exact nofun
  | lexeme denoted =>
    cases made
    exact denoted.ne_endOfFile

/-- A stretch is some characters of the text, in one of the forms before those behind it. -/
theorem Stretch.exists_context {source : SourceText} {passed left : List Piece}
    (pieces : Piece.split source.content.toList = passed ++ left) {stretch : Stretch}
    (member : stretch ∈ along 0 passed) :
    ∃ before rest, source.content.toList = before ++ stretch.piece.text ++ rest ∧
      stretch.start = byteLength before ∧ stretch.piece.Fits rest := by
  obtain ⟨before, after, rfl, start⟩ := exists_of_mem_along member
  obtain ⟨fit, whole⟩ := Piece.fitAll_split source.content.toList
  rw [pieces, List.append_assoc, List.cons_append] at fit whole
  refine ⟨before.flatMap Piece.text, (after ++ left).flatMap Piece.text, ?_, ?_, ?_⟩
  · rw [← whole, List.flatMap_append, List.flatMap_cons, List.append_assoc]
  · rw [start, Nat.zero_add]
  · cases fit.append.2 with
    | cons fits _ => rwa [List.append_nil] at fits

/-- The tokens of a text tile it. There is one token for each stretch of the text that is a word, a
number or a mark, placed by the bytes of the stretch and saying what the stretch denotes, unless it
is a number that cannot be and is reported; and one end mark. All that is between these stretches is
blank, a comment, or a single character that is reported. -/
theorem SourceText.lex_tiles (source : SourceText) :
    ∃ stretches, source.lex.Tiling source stretches := by
  obtain ⟨passed, left, pieces, covers, complete⟩ := source.lex_covers
  have whole := (Piece.fitAll_split source.content.toList).2
  have context := fun stretch (member : stretch ∈ Stretch.along 0 passed) =>
    Stretch.exists_context pieces member
  refine ⟨Stretch.along 0 passed, {
    ordered := Stretch.along_ordered 0 passed
    nonempty := fun stretch member => ?_
    bounded := fun stretch member => ?_
    spelled := fun stretch member => ?_
    formed := fun stretch member => ?_
    tokens := ⟨_, covers.tokens, rfl, Lexed.Covers.noEnd fun stretch member => ?_⟩
    findings := covers.findings
    complete := fun few offset inside => ?_ }⟩
  · obtain ⟨before, rest, -, -, fits⟩ := context stretch member
    exact Nat.lt_add_of_pos_right (byteLength_pos fits.text_ne_nil)
  · obtain ⟨before, rest, content, start, -⟩ := context stretch member
    have stop : stretch.stop = byteLength (before ++ stretch.piece.text) := by
      rw [byteLength_append, ← start]
      rfl
    rw [start, stop]
    exact ⟨isBoundary_of_append (by rw [content, List.append_assoc]), isBoundary_of_append content⟩
  · obtain ⟨before, rest, content, start, -⟩ := context stretch member
    rw [Stretch.stop, start]
    exact slice?_of_append content
  · obtain ⟨before, rest, content, start, fits⟩ := context stretch member
    have behind : source.content.utf8ByteSize = stretch.stop + byteLength rest := by
      rw [← byteLength_content, content, byteLength_append, byteLength_append, ← start]
      rfl
    have stop : stretch.stop = byteLength (before ++ stretch.piece.text) := by
      rw [byteLength_append, ← start]
      rfl
    refine ⟨rest, ?_, fits⟩
    rw [behind, stop]
    exact slice?_of_append (by rw [content, List.append_nil])
  · obtain ⟨before, rest, -, -, fits⟩ := context stretch member
    exact ⟨rest, fits⟩
  · obtain rfl : left = [] := complete.resolve_right (Nat.not_le_of_lt few)
    rw [List.append_nil] at pieces
    apply Stretch.exists_mem_along (Nat.zero_le _)
    rwa [Nat.zero_add, ← pieces, whole, byteLength_content]

end TextureScript
