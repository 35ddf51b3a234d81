import TextureScript.Proofs.Script.Nesting
import TextureScript.Proofs.Script.Places
import TextureScript.Proofs.Token.Tiling

/-!
# Statements are where their spans say

The tokens of a text stand one behind the other, so the spans of its statements do not touch, and
the parts of a statement lie within it. The text from the beginning of a statement to its end is the
text of some of the pieces that the whole text is cut into. Nothing goes on behind the semicolon of
the statement, so by itself this text is cut into the same pieces. It is therefore the statement and
nothing else, up to places, whatever stands before or behind it in the whole text.
-/

namespace TextureScript

open TextureScript.Parser

/-! ## Tokens stand one behind the other -/

section

variable {source : SourceText} {passed left : List Piece}

/-- A range of bytes ends before a later one begins. -/
theorem SourceText.precedes_span (short : source.content.utf8ByteSize < 4294967295)
    {start stop start' : Nat} (nonempty : start < stop) (ordered : stop ≤ start')
    (inside : start' ≤ source.content.utf8ByteSize) (stop' : Nat) :
    (source.span start stop).Precedes (source.span start' stop') := by
  have last : max stop (start + 1) - 1 < start' := by omega
  exact ⟨position_mono short (Nat.le_of_lt last), position_ne short last inside⟩

theorem Stretch.token?_eq_some {stretch : Stretch} {t : Token} :
    stretch.token? source = some t ↔ stretch.piece.said? = some t.lexeme ∧
      t.span = source.span stretch.start stretch.stop := by
  obtain ⟨lexeme, span⟩ := t
  simp only [token?, Option.map_eq_some_iff, Token.mk.injEq]
  constructor
  · rintro ⟨said, found, rfl, rfl⟩
    exact ⟨found, rfl⟩
  · rintro ⟨found, rfl⟩
    exact ⟨lexeme, found, rfl, rfl⟩

/-- A stretch is not empty, and lies within the text. -/
theorem Stretch.bounds (pieces : Piece.split source.content.toList = passed ++ left)
    {stretch : Stretch} (member : stretch ∈ along 0 passed) :
    stretch.start < stretch.stop ∧
      stretch.stop ≤ byteLength (passed.flatMap Piece.text) := by
  obtain ⟨before, rest, -, -, fits⟩ := exists_context pieces member
  obtain ⟨before, after, rfl, start⟩ := exists_of_mem_along member
  refine ⟨Nat.lt_add_of_pos_right (byteLength_pos fits.text_ne_nil), ?_⟩
  simp only [List.flatMap_append, List.flatMap_cons, byteLength_append, stop, start]
  omega

/-- The tokens of a text stand one behind the other. -/
theorem SourceText.ordered_lex (short : source.content.utf8ByteSize < 4294967295) :
    Token.Ordered source.lex.tokens.toList := by
  obtain ⟨passed, left, pieces, covers, -⟩ := source.lex_covers
  have inside : byteLength (passed.flatMap Piece.text) ≤ source.content.utf8ByteSize := by
    rw [← byteLength_content, ← (Piece.fitAll_split source.content.toList).2, pieces,
      List.flatMap_append, byteLength_append]
    omega
  rw [covers.tokens]
  constructor
  · intro t member
    rcases List.mem_append.mp member with listed | last
    · obtain ⟨stretch, -, token⟩ := List.mem_filterMap.mp listed
      rw [(Stretch.token?_eq_some.mp token).2]
      exact (Places.ofRange short _ _).ordered
    · rw [List.mem_singleton.mp last]
      exact (Places.ofRange short _ _).ordered
  · refine List.pairwise_append.mpr ⟨?_, List.pairwise_singleton _ _, ?_⟩
    · refine List.pairwise_filterMap.mpr ((Stretch.along_ordered 0 passed).imp_of_mem ?_)
      intro stretch later member member' ordered t token t' token'
      have here := Stretch.bounds pieces member
      have there := Stretch.bounds pieces member'
      rw [(Stretch.token?_eq_some.mp token).2, (Stretch.token?_eq_some.mp token').2]
      exact precedes_span short here.1 ordered (by omega) _
    · intro t listed last isLast
      obtain ⟨stretch, member, token⟩ := List.mem_filterMap.mp listed
      have here := Stretch.bounds pieces member
      rw [(Stretch.token?_eq_some.mp token).2, List.mem_singleton.mp isLast]
      exact precedes_span short here.1 here.2 inside _

end

/-! ## The pieces of a block -/

namespace Stretch

variable {source : SourceText} {offset : Nat} {pieces : List Piece}

/-- Stretches that are cut in two are those of pieces that are cut in two. -/
theorem along_eq_append {before after : List Stretch}
    (cut : along offset pieces = before ++ after) :
    ∃ left right, pieces = left ++ right ∧ before = along offset left ∧
      after = along (offset + byteLength (left.flatMap Piece.text)) right := by
  induction before generalizing offset pieces with
  | nil => exact ⟨[], pieces, rfl, rfl, cut.symm⟩
  | cons stretch before ih =>
    cases pieces with
    | nil => cases cut
    | cons piece pieces =>
      obtain ⟨rfl, later⟩ := List.cons.inj cut
      obtain ⟨left, right, rfl, rfl, rfl⟩ := ih later
      refine ⟨piece :: left, right, rfl, rfl, ?_⟩
      rw [List.flatMap_cons, byteLength_append, Nat.add_assoc]

/-- Tokens that are cut in two are those of pieces that are cut in two. -/
theorem tokens_eq_append {ts us : List Token}
    (cut : (along offset pieces).filterMap (token? source) = ts ++ us) :
    ∃ left right, pieces = left ++ right ∧
      (along offset left).filterMap (token? source) = ts ∧
      (along (offset + byteLength (left.flatMap Piece.text)) right).filterMap (token? source) =
        us := by
  obtain ⟨before, after, split, here, there⟩ := List.filterMap_eq_append_iff.mp cut
  obtain ⟨left, right, rfl, rfl, rfl⟩ := along_eq_append split
  exact ⟨left, right, rfl, here, there⟩

/-- The first token is that of a piece behind some that say nothing. -/
theorem tokens_eq_cons {t : Token} {ts : List Token}
    (cut : (along offset pieces).filterMap (token? source) = t :: ts) :
    ∃ silent piece others, pieces = silent ++ piece :: others ∧
      silent.filterMap Piece.said? = [] ∧
      token? source ⟨offset + byteLength (silent.flatMap Piece.text), piece⟩ = some t ∧
      (along (offset + byteLength ((silent ++ [piece]).flatMap Piece.text)) others).filterMap
        (token? source) = ts := by
  obtain ⟨before, stretch, after, split, nothing, token, later⟩ :=
    List.filterMap_eq_cons_iff.mp cut
  obtain ⟨silent, right, rfl, rfl, shape⟩ := along_eq_append split
  cases right with
  | nil => cases shape
  | cons piece others =>
    obtain ⟨rfl, rfl⟩ := List.cons.inj shape
    refine ⟨silent, piece, others, rfl, ?_, token, ?_⟩
    · rw [← map_lexeme_along source offset, List.filterMap_eq_nil_iff.mpr nothing]
      rfl
    · rw [List.flatMap_append, byteLength_append, ← Nat.add_assoc, List.flatMap_singleton]
      exact later

/-- A block of tokens is that of a block of pieces, from the piece of the first token to the piece
of the last. -/
theorem exists_block {before middle after : List Token} {first last : Token}
    (cut : (along 0 pieces).filterMap (token? source) =
      before ++ (first :: middle ++ [last]) ++ after) :
    ∃ left head inner tail right, pieces = left ++ (head :: inner ++ [tail]) ++ right ∧
      (head :: inner ++ [tail]).filterMap Piece.said? =
        (first :: middle ++ [last]).map (·.lexeme) ∧
      token? source ⟨byteLength (left.flatMap Piece.text), head⟩ = some first ∧
      token? source ⟨byteLength ((left ++ head :: inner).flatMap Piece.text), tail⟩ =
        some last := by
  simp only [List.append_assoc, List.cons_append, List.nil_append] at cut
  obtain ⟨left, right, rfl, -, begun⟩ := tokens_eq_append cut
  obtain ⟨silent, head, right, rfl, -, isFirst, rest⟩ := tokens_eq_cons begun
  obtain ⟨inner, right, rfl, here, ended⟩ := tokens_eq_append rest
  obtain ⟨quiet, tail, right, rfl, nothing, isLast, -⟩ := tokens_eq_cons ended
  have saidFirst := (token?_eq_some.mp isFirst).1
  have saidLast := (token?_eq_some.mp isLast).1
  have said : inner.filterMap Piece.said? = middle.map (·.lexeme) := by
    rw [← here, map_lexeme_along]
  refine ⟨left ++ silent, head, inner ++ quiet, tail, right, by simp, ?_, ?_, ?_⟩
  · simp [saidFirst, saidLast, said, nothing]
  · simpa [byteLength_append] using isFirst
  · simpa [byteLength_append, Nat.add_assoc] using isLast

end Stretch

/-! ## A block alone -/

/-- A semicolon goes on with nothing. -/
theorem Piece.Fits.of_semicolon {piece : Piece} {rest : List Char} (fits : piece.Fits rest)
    (isSemicolon : piece.said? = some .semicolon) : piece.Fits [] := by
  cases fits with
  | lexeme denoted => exact .lexeme denoted nofun
  | blank | lineComment | blockComment | openComment | malformedNumber | oversizedNumber | stray =>
    cases isSemicolon

theorem Name.unplaced_eq {name other : Name} (same : other.text = name.text) :
    other.unplaced = name.unplaced := by
  simp only [Name.unplaced, same]

mutual

/-- Values that differ only in places are the same without them. -/
theorem Expr.Varies.unplaced {value other : Expr} (varies : value.Varies .layout other) :
    other.unplaced = value.unplaced := by
  cases value with
  | number => cases varies with | number => rfl
  | name => cases varies with | name => rfl
  | call callee args span =>
    cases varies with
    | call named each =>
      simp only [Expr.unplaced, Name.unplaced_eq named.text, Expr.unplacedAll_of_varies each]

theorem Expr.unplacedAll_of_varies {values others : List Expr}
    (each : List.Forall₂ (Expr.Varies .layout) values others) :
    Expr.unplacedAll others = Expr.unplacedAll values := by
  cases values with
  | nil => cases each with | nil => rfl
  | cons value values =>
    cases each with
    | cons here there =>
      simp only [Expr.unplacedAll, here.unplaced, Expr.unplacedAll_of_varies there]

end

theorem Statement.Varies.unplaced {statement other : Statement}
    (varies : statement.Varies .layout other) : other.unplaced = statement.unplaced := by
  cases varies with
  | bind named varies =>
    simp only [Statement.unplaced, Name.unplaced_eq named.text, varies.unplaced]
  | channel ofMaterial named typed varies =>
    simp only [Statement.unplaced, Name.unplaced_eq ofMaterial.text, Name.unplaced_eq named.text,
      Name.unplaced_eq typed.text, varies.unplaced]
  | @exports names others _ _ each =>
    have same : others.map Name.unplaced = names.map Name.unplaced := by
      induction each with
      | nil => rfl
      | cons here _ ih => rw [List.map_cons, List.map_cons, Name.unplaced_eq here.text, ih]
    simp only [Statement.unplaced, same]

/-- Tokens with the lexemes of a statement are read as the statement, up to places. -/
theorem Statement.Derives.parse_of_lexemes {block ts : List Token} {statement : Statement}
    (derived : statement.Derives block) (shallow : statement.depth ≤ maxDepth)
    (same : ts.map (·.lexeme) = block.map (·.lexeme) ++ [.endOfFile]) :
    (Script.parse ts).findings = #[] ∧
      (Script.parse ts).script.unplaced = ⟨[statement.unplaced], default⟩ := by
  let stop : Token := ⟨.endOfFile, default⟩
  have all : Statement.DeriveAll block [statement] := by
    simpa using Statement.DeriveAll.cons derived .nil
  have isDerived : Script.Derives stop block ⟨[statement], Script.spanOf stop block⟩ := ⟨all, rfl⟩
  have parsed := isDerived.parse (by simpa [Script.Within] using shallow) rfl
  have matched : SameLexemes (block ++ [stop]) ts := by
    rw [sameLexemes_iff, same, List.map_append]
    rfl
  obtain ⟨statements, findings⟩ := Script.parse_sameLexemes matched
  rw [parsed] at statements findings
  refine ⟨Array.toList_eq_nil_iff.mp (List.forall₂_nil_left_iff.mp findings), ?_⟩
  obtain ⟨found, others, varies, nothing, all⟩ := List.forall₂_cons_left_iff.mp statements
  rw [List.forall₂_nil_left_iff.mp nothing] at all
  rw [Script.unplaced, all, List.map_singleton, varies.unplaced]

section

variable {source : SourceText} {pieces left middle right : List Piece} {last : Piece}

/-- Pieces of a text that end with a semicolon fit together alone. -/
theorem Piece.fitAll_block (cut : Piece.split source.content.toList = pieces)
    (block : pieces = left ++ (middle ++ [last]) ++ right)
    (isSemicolon : last.said? = some .semicolon) : Piece.FitAll (middle ++ [last]) [] := by
  have fit := (Piece.fitAll_split source.content.toList).1
  rw [cut, block] at fit
  have here := fit.append.1.append.2
  cases here.append.2 with
  | cons fits _ => exact here.alone (fits.of_semicolon isSemicolon)

/-- The text of such pieces is lexed to its end, as it has no more problems than the whole text. -/
theorem Lexed.Covers.alone (covers : source.lex.Covers source pieces)
    (few : source.lex.findings.size < errorBudget)
    (block : pieces = left ++ (middle ++ [last]) ++ right)
    (fit : Piece.FitAll (middle ++ [last]) []) (name : String) :
    (SourceText.ofString name (.ofList ((middle ++ [last]).flatMap Piece.text))).lex.Covers
      (.ofString name (.ofList ((middle ++ [last]).flatMap Piece.text))) (middle ++ [last]) := by
  have fewer : ((middle ++ [last]).filterMap Piece.fault?).length < errorBudget := by
    rw [covers.size_findings, block, List.filterMap_append, List.filterMap_append, List.length_append,
      List.length_append] at few
    omega
  exact SourceText.covers_of_few
    ((congrArg Piece.split String.toList_ofList).trans fit.split_flatMap) fewer

/-- The span from the token of one piece to the token of a later one leads back to the text between
them. -/
theorem SourceText.extent?_block (short : source.content.utf8ByteSize < 4294967295)
    (cut : Piece.split source.content.toList = pieces) {head tail : Piece} {inner : List Piece}
    (block : pieces = left ++ (head :: inner ++ [tail]) ++ right) {first final : Token}
    (isFirst : Stretch.token? source ⟨byteLength (left.flatMap Piece.text), head⟩ = some first)
    (isLast : Stretch.token? source
      ⟨byteLength ((left ++ head :: inner).flatMap Piece.text), tail⟩ = some final)
    (nonempty : tail.text ≠ []) {span : Span} (start : span.start = first.span.start)
    (stop : span.stop = final.span.stop) :
    source.extent? span =
      some (String.ofList ((head :: inner ++ [tail]).flatMap Piece.text)) := by
  have whole := (Piece.fitAll_split source.content.toList).2
  rw [cut, block, List.flatMap_append, List.flatMap_append] at whole
  refine extent?_of_append short whole.symm (by simp [nonempty]) ?_ ?_
  · rw [start, (Stretch.token?_eq_some.mp isFirst).2]
    rfl
  · have positive := byteLength_pos nonempty
    rw [stop, (Stretch.token?_eq_some.mp isLast).2]
    refine congrArg source.position ?_
    simp only [Stretch.stop, List.flatMap_append, List.flatMap_cons, List.flatMap_nil,
      List.append_nil, byteLength_append]
    omega

end

/-! ## Statements in their text -/

/-- The end mark is behind every block that is derived. -/
theorem Statement.Derives.behind {statement : Statement} {ts before block after : List Token}
    {stop : Token} (derived : statement.Derives block) (isEnd : stop.lexeme = .endOfFile)
    (whole : ts ++ [stop] = before ++ block ++ after) :
    ∃ others, ts = before ++ block ++ others := by
  rcases List.eq_nil_or_concat after with rfl | ⟨others, final, rfl⟩
  · obtain ⟨body, last, rfl⟩ := derived.ends
    rw [List.append_nil, ← List.append_assoc] at whole
    cases List.append_inj_right' whole rfl
    cases isEnd
  · rw [List.concat_eq_append, ← List.append_assoc] at whole
    exact ⟨others, List.append_inj_left' whole rfl⟩

/-- The tokens of a statement, from its first to its semicolon. -/
theorem Statement.Derives.shape {statement : Statement} {block : List Token}
    (derived : statement.Derives block) :
    ∃ first middle last, block = first :: middle ++ [⟨.semicolon, last⟩] := by
  cases derived with
  | bind | channel | exports => exact ⟨_, _, _, rfl⟩

/-- The text from the beginning of a statement to its end is the statement. -/
theorem SourceText.extent_of_statement {source : SourceText}
    (short : source.content.utf8ByteSize < 4294967295)
    (few : source.lex.findings.size < errorBudget) {statement : Statement}
    (member : statement ∈ (Script.parse source.lex.tokens.toList).script.statements) :
    ∃ text, source.extent? statement.span = some text ∧ ∀ name,
      (Script.parse (SourceText.ofString name text).lex.tokens.toList).findings = #[] ∧
      (Script.parse (SourceText.ofString name text).lex.tokens.toList).script.unplaced =
        ⟨[statement.unplaced], default⟩ := by
  obtain ⟨pieces, left, cut, covers, complete⟩ := source.lex_covers
  obtain rfl : left = [] := complete.resolve_right (Nat.not_le_of_lt few)
  rw [List.append_nil] at cut
  obtain ⟨before, block, after, whole, derived, shallow⟩ :=
    (Script.blocks_parse source.lex.tokens.toList).exists_of_mem member
  have hull : statement.span.Hull block := by
    have ordered := source.ordered_lex short
    rw [whole] at ordered
    exact derived.hull (ordered.of_sublist (List.infix_append before block after).sublist)
  obtain ⟨others, tokens⟩ := derived.behind rfl (covers.tokens.symm.trans whole)
  obtain ⟨first, middle, last, rfl⟩ := derived.shape
  obtain ⟨left, head, inner, tail, right, split, said, isFirst, isLast⟩ :=
    Stretch.exists_block tokens
  have isSemicolon : tail.said? = some .semicolon := (Stretch.token?_eq_some.mp isLast).1
  have fit := Piece.fitAll_block cut split isSemicolon
  refine ⟨.ofList ((head :: inner ++ [tail]).flatMap Piece.text), ?_, fun name => ?_⟩
  · obtain ⟨⟨t, isHead, start⟩, ⟨u, isFinal, stop⟩⟩ := hull
    obtain rfl : first = t := Option.some.inj isHead
    rw [List.getLast?_concat] at isFinal
    obtain rfl := Option.some.inj isFinal
    have nonempty : tail.text ≠ [] := by
      cases fit.append.2 with
      | cons fits _ => exact fits.text_ne_nil
    exact extent?_block short cut split isFirst isLast nonempty start stop
  · apply derived.parse_of_lexemes shallow
    rw [(covers.alone few split fit name).lexemes, said]

/-- Statements are where their spans say. Unless the error budget of lexing is spent, the text from
the beginning of a statement to its end is that statement alone; no two statements overlap, and they
are in order; and the names and values in a statement lie within what they are part of. -/
theorem SourceText.statements_faithful {source : SourceText}
    (short : source.content.utf8ByteSize < 4294967295)
    (few : source.lex.findings.size < errorBudget) :
    (∀ statement ∈ (Script.parse source.lex.tokens.toList).script.statements,
      (∃ text, source.extent? statement.span = some text ∧ ∀ name,
        (Script.parse (SourceText.ofString name text).lex.tokens.toList).findings = #[] ∧
        (Script.parse (SourceText.ofString name text).lex.tokens.toList).script.unplaced =
          ⟨[statement.unplaced], default⟩) ∧
      statement.Nested) ∧
    (Script.parse source.lex.tokens.toList).script.statements.Pairwise
      fun statement later => statement.span.Precedes later.span := by
  have ordered := source.ordered_lex short
  have blocks := Script.blocks_parse source.lex.tokens.toList
  refine ⟨fun statement member => ⟨extent_of_statement short few member, ?_⟩,
    blocks.pairwise ordered⟩
  obtain ⟨before, block, after, whole, derived, -⟩ := blocks.exists_of_mem member
  rw [whole] at ordered
  exact derived.nested (ordered.of_sublist (List.infix_append before block after).sublist)

/-- A call over two lines, a stray character, a binding without a value, and an export statement
around a comment. -/
def SourceText.crowded : SourceText :=
  .ofString "script" "a = f(1,\n  -2); @b = ; /* ; */ export a, // é\nb;"

/-- The call and the export statement are found where they stand, between two problems. -/
theorem SourceText.statements_faithful_crowded :
    crowded.lex.findings.size = 1 ∧
      (Script.parse crowded.lex.tokens.toList).findings.size = 1 ∧
      (Script.parse crowded.lex.tokens.toList).script.statements.map
        (fun statement => crowded.extent? statement.span) =
          [some "a = f(1,\n  -2);", some "export a, // é\nb;"] ∧
      (∀ statement ∈ (Script.parse crowded.lex.tokens.toList).script.statements,
        (∃ text, crowded.extent? statement.span = some text ∧ ∀ name,
          (Script.parse (SourceText.ofString name text).lex.tokens.toList).findings = #[] ∧
          (Script.parse (SourceText.ofString name text).lex.tokens.toList).script.unplaced =
            ⟨[statement.unplaced], default⟩) ∧
        statement.Nested) ∧
      (Script.parse crowded.lex.tokens.toList).script.statements.Pairwise
        fun statement later => statement.span.Precedes later.span := by
  have found : crowded.lex.findings.size = 1 := by decide +kernel
  exact ⟨found, by decide +kernel, by decide +kernel,
    @statements_faithful crowded (by decide +kernel) (by rw [found]; decide)⟩

end TextureScript
