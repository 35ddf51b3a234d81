import TextureScript.Proofs.Compiler.Acceptance
import TextureScript.Proofs.Script.Names
import TextureScript.Proofs.Script.Places
import TextureScript.Proofs.Script.Recognition
import TextureScript.Proofs.Token.Layout

/-!
# Scripts can be written again

What lexing finds can be written: its names have the characters of names, and its numbers are not
too large. A script that was read without a problem is therefore written with such lexemes, also
when its names are replaced by other names, and laid out with a blank before each of them it is read
back, up to places.
-/

namespace TextureScript

/-- All of some lexemes can be written. -/
abbrev Writable (lexemes : List Lexeme) : Prop :=
  ∀ lexeme ∈ lexemes, lexeme.IsWritable

/-! ## What lexing finds -/

namespace Piece

theorem writable_number (c : Char) (cs : List Char) :
    ∀ lexeme ∈ (number c cs).1.lexeme?, lexeme.IsWritable := by
  have small : ∀ n ≤ largestNumber, (Lexeme.number (UInt32.ofNat n)).IsWritable := by
    intro n small
    have fits : (UInt32.ofNat n).toNat = n :=
      UInt32.toNat_ofNat_of_lt' (Nat.lt_of_le_of_lt small (by decide))
    exact Nat.le_trans (Nat.le_of_eq fits) small
  rw [number]
  by_cases malformed : (cs.dropWhile Char.isDigit).head?.any runsOn
  · simp [malformed, lexeme?]
  rw [if_neg malformed]
  by_cases inRange : decimalValue (c :: cs.takeWhile Char.isDigit) ≤ largestNumber
  · rw [if_pos inRange]
    simp only [lexeme?, Option.mem_some_iff]
    rintro _ rfl
    exact small _ inRange
  · simp [inRange, lexeme?]

theorem writable_word {c : Char} (letter : isLetter c) (cs : List Char) :
    ∀ lexeme ∈ (word c cs).1.lexeme?, lexeme.IsWritable := by
  simp only [word, lexeme?, Option.mem_some_iff, Lexeme.ofWord, Lexeme.keyword?]
  rintro _ rfl
  split
  · trivial
  · rename_i notReserved
    refine ⟨⟨c, cs.takeWhile isWordChar, by simp, isLetter_iff.mp letter, ?_⟩, notReserved⟩
    intro d member
    have wordChar : isWordChar d := List.all_eq_true.mp List.all_takeWhile d member
    simp only [isWordChar, Bool.or_eq_true] at wordChar
    exact wordChar.imp isLetter_iff.mp isDigit_iff.mp

theorem writable_first (c : Char) (cs : List Char) :
    ∀ lexeme ∈ (first c cs).1.lexeme?, lexeme.IsWritable := by
  unfold first
  split
  · simp [lexeme?]
  split
  · unfold slash
    split
    · simp [lexeme?]
    · split <;> simp [lexeme?]
    · simp [lexeme?]
  split
  · exact writable_number c cs
  split
  · rename_i letter
    exact writable_word letter cs
  split
  · rename_i mark isMark
    simp only [lexeme?, Option.mem_some_iff]
    rintro _ rfl
    unfold Lexeme.punctuation? at isMark
    split at isMark <;> cases isMark <;> trivial
  · simp [lexeme?]

/-- The lexemes of a script can be written. -/
theorem writable_split : (cs : List Char) →
    ∀ piece ∈ split cs, ∀ lexeme ∈ piece.lexeme?, lexeme.IsWritable
  | [] => by simp [split_nil]
  | c :: cs => by
    rw [split_of_first rfl, List.forall_mem_cons]
    exact ⟨writable_first c cs, writable_split (first c cs).2⟩
termination_by cs => cs.length
decreasing_by exact first_rest_length_lt c cs

end Piece

namespace Lexer.State

/-- The tokens so far can be written. -/
def TokensWritable (state : State) : Prop :=
  ∀ t ∈ state.tokens.toList, t.lexeme.IsWritable

variable {state : State}

theorem TokensWritable.take (writable : state.TokensWritable) (stop : Nat) {token : Option Token}
    (added : ∀ t ∈ token, t.lexeme.IsWritable) (finding : Option Finding) :
    (state.take stop token finding).TokensWritable := by
  unfold State.take
  split
  · exact writable
  · cases token with
    | none => exact writable
    | some t =>
      simp only [TokensWritable, Array.toList_push, List.forall_mem_append,
        List.forall_mem_singleton]
      exact ⟨writable, added t rfl⟩

theorem TokensWritable.read (writable : state.TokensWritable) (source : SourceText) {piece : Piece}
    (added : ∀ lexeme ∈ piece.lexeme?, lexeme.IsWritable) :
    (state.read source piece).TokensWritable := by
  have zero : (Lexeme.number 0).IsWritable := Nat.zero_le _
  unfold State.read
  split
  · exact writable
  cases piece with
  | blank | openComment => exact writable
  | lexeme => exact writable.take _ (by simpa [Piece.lexeme?] using added) _
  | malformedNumber | oversizedNumber => exact writable.take _ (by simpa using zero) _
  | stray => exact writable.take _ (by simp) _

theorem TokensWritable.foldl (source : SourceText) {pieces : List Piece}
    (added : ∀ piece ∈ pieces, ∀ lexeme ∈ piece.lexeme?, lexeme.IsWritable)
    (writable : state.TokensWritable) :
    (pieces.foldl (State.read source) state).TokensWritable := by
  induction pieces generalizing state with
  | nil => exact writable
  | cons piece pieces ih =>
    obtain ⟨here, later⟩ := List.forall_mem_cons.mp added
    exact ih later (writable.read source here)

end Lexer.State

/-- A token stream ends with an end mark, and the tokens before it can be written. -/
theorem SourceText.lex_writable (source : SourceText) :
    ∃ ts stop, source.lex.tokens.toList = ts ++ [stop] ∧ stop.lexeme = .endOfFile ∧
      ∀ t ∈ ts, t.lexeme.IsWritable := by
  have start : Lexer.State.TokensWritable {} := nofun
  have writable := start.foldl source (Piece.writable_split source.content.toList)
  exact ⟨_, _, Array.toList_push, rfl, writable⟩

/-- A text whose pieces have no problems is lexed to their lexemes. -/
theorem SourceText.lex_of_clean {source : SourceText}
    (clean : ∀ piece ∈ Piece.split source.content.toList, piece.IsClean) :
    source.lex.findings = #[] ∧ source.lex.tokens.toList.map (·.lexeme) =
      (Piece.split source.content.toList).filterMap Piece.lexeme? ++ [.endOfFile] := by
  have start : ({} : Lexer.State).findings = #[] := rfl
  obtain ⟨findings, lexemes⟩ := Lexer.State.foldl_read_clean source clean rfl start
  refine ⟨findings, ?_⟩
  simp only [SourceText.lex, Lexer.State.finish, Array.toList_push, List.map_append, lexemes]
  rfl

/-! ## What scripts are written with -/

theorem writable_commaSeparated {items : List (List Lexeme)}
    (each : ∀ item ∈ items, Writable item) : Writable (commaSeparated items) := by
  induction items with
  | nil => exact nofun
  | cons item items ih =>
    obtain ⟨here, later⟩ := List.forall_mem_cons.mp each
    cases items with
    | nil => exact here
    | cons next items =>
      simp only [commaSeparated, Writable, List.forall_mem_append, List.forall_mem_cons]
      exact ⟨here, trivial, ih later⟩

theorem Statement.DeriveAll.exists_of_mem {ts : List Token} {statements : List Statement}
    (derived : Statement.DeriveAll ts statements) :
    ∀ statement ∈ statements, ∃ part, part ⊆ ts ∧ statement.Derives part := by
  induction derived with
  | nil => exact nofun
  | cons first _ ih =>
    rw [List.forall_mem_cons]
    refine ⟨⟨_, List.subset_append_left _ _, first⟩, ?_⟩
    intro statement member
    obtain ⟨part, inside, derived⟩ := ih statement member
    exact ⟨part, fun t among => List.mem_append_right _ (inside among), derived⟩

section

variable {rename : String → String} {ts : List Token}

theorem Expr.renameAll_eq_map (values : List Expr) :
    renameAll rename values = values.map (Expr.rename rename) := by
  induction values with
  | nil => rfl
  | cons value values ih => simp [renameAll, ih]

/-- A signed 32-bit number is written with a magnitude that can be written. -/
theorem Expr.writable_number (value : Int32) (span : Span) :
    Writable (Expr.number value span).lexemes := by
  have least := value.le_toInt
  have most := value.toInt_lt
  have fits : (UInt32.ofNat value.toInt.natAbs).toNat = value.toInt.natAbs :=
    UInt32.toNat_ofNat_of_lt' (by simp [UInt32.size]; omega)
  have inRange : value.toInt.natAbs ≤ 2147483648 := by omega
  have small : (Lexeme.number (.ofNat value.toInt.natAbs)).IsWritable :=
    Nat.le_trans (Nat.le_of_eq fits) inRange
  unfold lexemes
  split
  · exact List.forall_mem_cons.mpr ⟨trivial, List.forall_mem_singleton.mpr small⟩
  · exact List.forall_mem_singleton.mpr small

mutual

/-- A value that is derived from writable tokens can be written, and so it can after a renaming that
gives names for names. -/
theorem Expr.writable_rename
    (named : ∀ text, Lexeme.IsNameText text → Lexeme.IsNameText (rename text)) (e : Expr)
    {ts : List Token} (derived : e.Derives ts) (writable : ∀ t ∈ ts, t.lexeme.IsWritable) :
    Writable (e.rename rename).lexemes := by
  cases e with
  | number value span => exact Expr.writable_number value span
  | name text span =>
    cases derived with
    | name =>
      have old : Lexeme.IsNameText text := writable _ List.mem_cons_self
      exact List.forall_mem_singleton.mpr (named text old)
  | call callee args span =>
    simp only [Expr.rename, lexemes, lexemesOfAll_eq_map, renameAll_eq_map, List.cons_append,
      Writable, List.forall_mem_cons, List.forall_mem_append]
    cases derived with
    | plain =>
      exact ⟨(List.forall_mem_cons.mp writable).1, trivial, nofun, trivial, nofun⟩
    | call arguments =>
      obtain ⟨here, -, inner⟩ := by
        simpa only [List.cons_append, List.forall_mem_cons] using writable
      have within := (List.forall_mem_append.mp inner).1
      refine ⟨here, trivial, writable_commaSeparated ?_, trivial, nofun⟩
      simp only [List.forall_mem_map]
      intro arg member
      obtain ⟨part, inside, derived⟩ := arguments.exists_of_mem arg member
      exact Expr.writable_renameAll named args arg member derived
        fun t among => within t (inside.subset among)

theorem Expr.writable_renameAll
    (named : ∀ text, Lexeme.IsNameText text → Lexeme.IsNameText (rename text)) (args : List Expr) :
    ∀ arg ∈ args, ∀ {ts : List Token}, arg.Derives ts → (∀ t ∈ ts, t.lexeme.IsWritable) →
      Writable (arg.rename rename).lexemes := by
  cases args with
  | nil => exact nofun
  | cons arg args =>
    rw [List.forall_mem_cons]
    exact ⟨Expr.writable_rename named arg, Expr.writable_renameAll named args⟩

end

theorem Statement.writable_rename
    (named : ∀ text, Lexeme.IsNameText text → Lexeme.IsNameText (rename text))
    {statement : Statement} (derived : statement.Derives ts)
    (writable : ∀ t ∈ ts, t.lexeme.IsWritable) :
    Writable (statement.rename rename).lexemes := by
  cases derived with
  | @bind target equals last inner value derived =>
    simp only [List.cons_append, List.forall_mem_cons, List.forall_mem_append] at writable
    obtain ⟨target, -, inner, -⟩ := writable
    simp only [Statement.rename, lexemes, List.cons_append, Writable, List.forall_mem_cons,
      List.forall_mem_append]
    exact ⟨named _ target, trivial, value.writable_rename named derived inner, trivial, nofun⟩
  | @channel material channel materialType _ _ _ _ _ _ inner value derived =>
    simp only [List.cons_append, List.forall_mem_cons, List.forall_mem_append] at writable
    obtain ⟨-, material, -, channel, -, materialType, -, -, inner, -⟩ := writable
    simp only [Statement.rename, lexemes, List.cons_append, Writable, List.forall_mem_cons,
      List.forall_mem_append]
    exact ⟨trivial, material, trivial, channel, trivial, materialType, trivial, trivial,
      value.writable_rename named derived inner, trivial, nofun⟩
  | @exports word last inner names derived =>
    simp only [List.cons_append, List.forall_mem_cons, List.forall_mem_append] at writable
    obtain ⟨-, inner, -⟩ := writable
    simp only [Statement.rename, lexemes, List.cons_append, Writable, List.forall_mem_cons,
      List.forall_mem_append]
    refine ⟨trivial, writable_commaSeparated ?_, trivial, nofun⟩
    simp only [List.forall_mem_map]
    intro name member
    obtain ⟨part, inside, rfl⟩ := derived.exists_of_mem name member
    have old : Lexeme.IsNameText name.text := inner _ (inside.subset List.mem_cons_self)
    exact List.forall_mem_singleton.mpr (named _ old)

/-! ## Renaming keeps the shape -/

mutual

theorem Expr.depth_rename (e : Expr) : (e.rename rename).depth = e.depth := by
  cases e with
  | number | name => rfl
  | call callee args span => exact congrArg (· + 1) (Expr.depths_renameAll args)

theorem Expr.depths_renameAll (args : List Expr) :
    depths (renameAll rename args) = depths args := by
  cases args with
  | nil => rfl
  | cons arg args =>
    simp only [renameAll, depths, Expr.depth_rename arg, Expr.depths_renameAll args]

end

theorem Statement.depth_rename (statement : Statement) :
    (statement.rename rename).depth = statement.depth := by
  cases statement with
  | bind _ value _ | channel _ _ _ value _ => exact value.depth_rename
  | exports => rfl

theorem Statement.namesExports_rename {statement : Statement} :
    (statement.rename rename).NamesExports ↔ statement.NamesExports := by
  cases statement with
  | bind | channel => exact Iff.rfl
  | exports names => simp [Statement.rename, NamesExports]

end

/-! ## Texts of scripts -/

/-- A text is read as a script without a problem, up to places. -/
structure SourceText.Reads (source : SourceText) (script : Script) : Prop where
  /-- Lexing finds no problem. -/
  lexed : source.lex.findings = #[]
  /-- Parsing finds no problem. -/
  parsed : (Script.parse source.lex.tokens.toList).findings = #[]
  /-- What is found is the script. -/
  script : source.script.unplaced = script.unplaced

/-- Lexemes with a blank before each of them. -/
def Layout.spaced (lexemes : List Lexeme) (writable : Writable lexemes) : Layout where
  items := lexemes.map fun lexeme => ([.blank ' ' (by decide)], lexeme)
  ending := []
  lastComment := none
  writable := by
    simpa only [List.forall_mem_map] using writable
  apart := by
    rw [List.isChain_map]
    exact (List.pairwise_of_forall fun _ _ _ _ => List.cons_ne_nil _ _).isChain

theorem Layout.lexemes_spaced {lexemes : List Lexeme} (writable : Writable lexemes) :
    (spaced lexemes writable).lexemes = lexemes := by
  rw [Layout.lexemes, spaced, List.map_map]
  exact List.map_id _

/-- What is laid out with blanks is lexed back. -/
theorem Layout.lex_spaced {lexemes : List Lexeme} (writable : Writable lexemes) (name : String) :
    let source := SourceText.ofString name (String.ofList (spaced lexemes writable).text)
    source.lex.findings = #[] ∧
      source.lex.tokens.toList.map (·.lexeme) = lexemes ++ [.endOfFile] := by
  intro source
  have pieces : Piece.split source.content.toList = (spaced lexemes writable).pieces := by
    rw [← split_text]
    exact congrArg Piece.split String.toList_ofList
  have lexed := SourceText.lex_of_clean fun piece member =>
    isClean_of_mem_pieces (pieces ▸ member : piece ∈ (spaced lexemes writable).pieces)
  rwa [pieces, filterMap_lexeme?_pieces, lexemes_spaced] at lexed

/-- A script that can be written and read back. -/
structure Script.Legible (script : Script) : Prop where
  /-- Its values are not too deep. -/
  shallow : script.Within Parser.maxDepth
  /-- Its export statements name something. -/
  named : ∀ statement ∈ script.statements, statement.NamesExports
  /-- Its lexemes can be written. -/
  writable : Writable script.lexemes

/-- A text that is lexed to what a script is written with is read as the script. -/
theorem Script.Legible.reads {script : Script} (legible : script.Legible) {source : SourceText}
    (lexed : source.lex.findings = #[])
    (written : source.lex.tokens.toList.map (·.lexeme) = script.lexemes ++ [.endOfFile]) :
    source.Reads script := by
  obtain ⟨ts, place, tokens, written⟩ := map_lexeme_eq_concat.mp written
  have isEnd : (⟨.endOfFile, place⟩ : Token).lexeme = .endOfFile := rfl
  obtain ⟨parsed, same⟩ := Script.parse_of_lexemes isEnd legible.shallow legible.named written
  rw [← tokens] at parsed same
  exact ⟨lexed, parsed, same⟩

/-- A script that can be written is the script of some text. -/
theorem Script.Legible.exists_reads {script : Script} (legible : script.Legible) (name : String) :
    ∃ content, (SourceText.ofString name content).Reads script := by
  obtain ⟨lexed, written⟩ := Layout.lex_spaced legible.writable name
  exact ⟨_, legible.reads lexed written⟩

/-- What was parsed without a problem can be written under other names. -/
theorem SourceText.legible_rename {source : SourceText}
    (parsed : (Script.parse source.lex.tokens.toList).findings = #[]) {rename : String → String}
    (named : ∀ text, Lexeme.IsNameText text → Lexeme.IsNameText (rename text)) :
    (source.script.rename rename).Legible := by
  obtain ⟨ts, stop, tokens, isEnd, writable⟩ := source.lex_writable
  have noEnd : ∀ t ∈ ts, t.lexeme ≠ .endOfFile := by
    intro t member isEnd
    have notEnd := writable t member
    rw [isEnd] at notEnd
    exact notEnd
  rw [tokens] at parsed
  obtain ⟨derived, shallow⟩ := Script.derives_parse noEnd isEnd parsed
  rw [← tokens] at derived shallow
  have each : ∀ statement ∈ source.script.statements, ∃ part, part ⊆ ts ∧ statement.Derives part :=
    derived.statements.exists_of_mem
  constructor
  · simp only [Script.Within, Script.rename, List.forall_mem_map, Statement.depth_rename]
    exact shallow
  · simp only [Script.rename, List.forall_mem_map, Statement.namesExports_rename]
    intro statement member
    obtain ⟨_, -, derived⟩ := each statement member
    exact derived.namesExports
  · intro lexeme member
    simp only [Script.lexemes, Script.rename, List.flatMap_map, List.mem_flatMap] at member
    obtain ⟨statement, among, inside⟩ := member
    obtain ⟨part, within, derived⟩ := each statement among
    exact Statement.writable_rename named derived (fun t here => writable t (within here)) lexeme
      inside

end TextureScript
