import TextureScript.Proofs.Script.Recognition
import TextureScript.Proofs.Token.Tiling

/-!
# Numbers are read exactly

A number is written with decimal digits, as many as one likes, and may have a minus sign and trivia
before them. The range of signed 32-bit numbers is checked in two places. Lexing refuses digits
above two to the thirty-first and goes on with a zero; parsing, which knows the sign, refuses two to
the thirty-first without one. Bound to a name, a number in the range is therefore read as it is, and
one outside the range is refused in exactly one of the two places.
-/

namespace TextureScript

open TextureScript.Parser TextureScript.Parser.Reader

/-! ## Written numbers -/

/-- A number as it is written. -/
structure WrittenNumber where
  /-- The trivia behind the minus sign, if there is a sign. -/
  sign : Option (List Trivia)
  /-- The digits, the highest one first. -/
  digits : List Char
  /-- There is a digit. -/
  nonempty : digits ≠ []
  /-- All digits are decimal. -/
  decimal : ∀ c ∈ digits, Lexeme.IsDigit c

namespace WrittenNumber

/-- The value of a written number. -/
def value (number : WrittenNumber) : Int :=
  match number.sign with
  | none => numeral number.digits
  | some _ => -numeral number.digits

/-- Whether the value is in the range of signed 32-bit numbers. -/
def InRange (number : WrittenNumber) : Prop :=
  -2147483648 ≤ number.value ∧ number.value ≤ 2147483647

instance (number : WrittenNumber) : Decidable number.InRange :=
  inferInstanceAs (Decidable (_ ∧ _))

/-- The characters of a written number. -/
def text (number : WrittenNumber) : List Char :=
  (number.sign.elim [] fun gap => '-' :: Layout.gapText gap) ++ number.digits

end WrittenNumber

/-- A script that binds a name to a number, with any trivia around its tokens. -/
structure NumberBinding where
  /-- The name that is bound. -/
  name : String
  /-- It can be a name. -/
  named : Lexeme.IsNameText name
  /-- The number. -/
  number : WrittenNumber
  /-- The trivia before the name. -/
  beginning : List Trivia
  /-- The trivia behind the name. -/
  afterName : List Trivia
  /-- The trivia before the number. -/
  beforeNumber : List Trivia
  /-- The trivia behind the number. -/
  afterNumber : List Trivia
  /-- The trivia behind the semicolon. -/
  ending : List Trivia

namespace NumberBinding

/-- The characters of the script. -/
def text (binding : NumberBinding) : List Char :=
  Layout.gapText binding.beginning ++ (binding.name.toList ++
    (Layout.gapText binding.afterName ++ ('=' :: (Layout.gapText binding.beforeNumber ++
      (binding.number.text ++ (Layout.gapText binding.afterNumber ++
        (';' :: Layout.gapText binding.ending)))))))

/-- The script as a text with a name. -/
def source (binding : NumberBinding) (file : String) : SourceText :=
  .ofString file (.ofList binding.text)

end NumberBinding

/-! ## Lexing -/

/-- The piece that digits are. -/
def Piece.ofDigits (digits : List Char) : Piece :=
  if numeral digits ≤ 2147483648 then
    .lexeme (.number (UInt32.ofNat (numeral digits))) digits
  else .oversizedNumber digits

/-- The number that the token of digits says. -/
def Lexeme.magnitude (digits : List Char) : UInt32 :=
  if numeral digits ≤ 2147483648 then UInt32.ofNat (numeral digits) else 0

theorem Piece.said?_ofDigits (digits : List Char) :
    (ofDigits digits).said? = some (.number (Lexeme.magnitude digits)) := by
  unfold ofDigits Lexeme.magnitude
  split <;> rfl

theorem Piece.fault?_ofDigits (digits : List Char) :
    (ofDigits digits).fault? =
      if numeral digits ≤ 2147483648 then none else some .invalidNumber := by
  unfold ofDigits
  split <;> rfl

/-- Digits are cut off where no more of them and nothing that runs on follows. -/
theorem Piece.split_digits {digits rest : List Char} (nonempty : digits ≠ [])
    (decimal : ∀ c ∈ digits, Lexeme.IsDigit c) (stops : Stops rest) :
    split (digits ++ rest) = ofDigits digits :: split rest := by
  have ends := stops_iff.mp stops
  have fits : (ofDigits digits).Fits rest := by
    unfold ofDigits
    split
    · rename_i small
      have counted : (UInt32.ofNat (numeral digits)).toNat = numeral digits :=
        UInt32.toNat_ofNat_of_lt' (Nat.lt_of_le_of_lt small (by decide))
      exact .lexeme ⟨Nat.le_trans (Nat.le_of_eq counted) small, nonempty, decimal, counted⟩ ends
    · rename_i large
      exact .oversizedNumber nonempty decimal (Nat.lt_of_not_le large) ends
  have same : (ofDigits digits).text = digits := by
    unfold ofDigits
    split <;> rfl
  rw [← fits.split_text, same]

/-- Trivia say nothing, and nothing is wrong with them. -/
theorem Layout.filterMap_gap (gap : List Trivia) :
    (gap.flatMap Trivia.pieces).filterMap Piece.said? = [] ∧
      (gap.flatMap Trivia.pieces).filterMap Piece.fault? = [] := by
  have silent : ∀ piece ∈ gap.flatMap Trivia.pieces, piece.said? = none ∧ piece.fault? = none := by
    intro piece member
    obtain ⟨clean, wordless⟩ := isClean_of_mem_gap member
    cases piece with
    | blank => exact ⟨rfl, rfl⟩
    | lexeme => cases wordless
    | openComment | malformedNumber | oversizedNumber | stray => exact clean.elim
  exact ⟨List.filterMap_eq_nil_iff.mpr fun piece member => (silent piece member).1,
    List.filterMap_eq_nil_iff.mpr fun piece member => (silent piece member).2⟩

namespace WrittenNumber

variable (number : WrittenNumber)

/-- The pieces of a written number. -/
def pieces : List Piece :=
  (number.sign.elim [] fun gap => .lexeme .minus ['-'] :: gap.flatMap Trivia.pieces) ++
    [.ofDigits number.digits]

/-- What the tokens of a written number say. -/
def lexemes : List Lexeme :=
  (number.sign.elim [] fun _ => [.minus]) ++ [.number (Lexeme.magnitude number.digits)]

theorem split_text {rest : List Char} (stops : Piece.Stops rest) :
    Piece.split (number.text ++ rest) = number.pieces ++ Piece.split rest := by
  have digits := Piece.split_digits number.nonempty number.decimal stops
  unfold text pieces
  cases number.sign with
  | none => exact digits
  | some gap =>
    have minus : Piece.split ('-' :: (Layout.gapText gap ++ (number.digits ++ rest))) =
        .lexeme .minus ['-'] :: Piece.split (Layout.gapText gap ++ (number.digits ++ rest)) :=
      Piece.split_of_first (Piece.first_mark rfl _)
    rw [Layout.split_gapText, digits] at minus
    simpa using minus

theorem filterMap_said?_pieces : number.pieces.filterMap Piece.said? = number.lexemes := by
  unfold pieces lexemes
  rw [List.filterMap_append, List.filterMap_cons_some (Piece.said?_ofDigits _)]
  cases number.sign with
  | none => rfl
  | some gap =>
    simp only [Option.elim_some, List.filterMap_cons, Piece.said?, (Layout.filterMap_gap gap).1]
    rfl

theorem filterMap_fault?_pieces :
    number.pieces.filterMap Piece.fault? =
      if numeral number.digits ≤ 2147483648 then [] else [.invalidNumber] := by
  have before : (number.sign.elim [] fun gap => Piece.lexeme .minus ['-'] ::
      gap.flatMap Trivia.pieces).filterMap Piece.fault? = [] := by
    cases number.sign with
    | none => rfl
    | some gap => exact (Layout.filterMap_gap gap).2
  rw [pieces, List.filterMap_append, before, List.nil_append]
  by_cases small : numeral number.digits ≤ 2147483648
  · rw [if_pos small]
    exact List.filterMap_cons_none ((Piece.fault?_ofDigits _).trans (if_pos small))
  · rw [if_neg small]
    exact List.filterMap_cons_some ((Piece.fault?_ofDigits _).trans (if_neg small))

end WrittenNumber

namespace NumberBinding

variable (binding : NumberBinding)

/-- The pieces of the script. -/
def pieces : List Piece :=
  binding.beginning.flatMap Trivia.pieces ++
    .lexeme (.name binding.name) binding.name.toList ::
    (binding.afterName.flatMap Trivia.pieces ++ .lexeme .equals ['='] ::
    (binding.beforeNumber.flatMap Trivia.pieces ++ (binding.number.pieces ++
    (binding.afterNumber.flatMap Trivia.pieces ++ .lexeme .semicolon [';'] ::
      binding.ending.flatMap Trivia.pieces))))

theorem split_text : Piece.split binding.text = binding.pieces := by
  have name : ∀ rest, Piece.Stops rest → Piece.split (binding.name.toList ++ rest) =
      .lexeme (.name binding.name) binding.name.toList :: Piece.split rest :=
    fun rest stops => @Lexeme.split_render (.name binding.name) binding.named rest fun _ => stops
  have equals : ∀ rest, Piece.split ('=' :: rest) = .lexeme .equals ['='] :: Piece.split rest :=
    fun rest => Piece.split_of_first (Piece.first_mark rfl rest)
  have semicolon : ∀ rest,
      Piece.split (';' :: rest) = .lexeme .semicolon [';'] :: Piece.split rest :=
    fun rest => Piece.split_of_first (Piece.first_mark rfl rest)
  have beforeEquals : ∀ gap rest, Piece.Stops (Layout.gapText gap ++ '=' :: rest) :=
    fun gap rest => Layout.stops_gapText fun _ => @Lexeme.stops_render .equals trivial nofun rest
  have beforeSemicolon : ∀ gap rest, Piece.Stops (Layout.gapText gap ++ ';' :: rest) :=
    fun gap rest => Layout.stops_gapText fun _ => @Lexeme.stops_render .semicolon trivial nofun rest
  have ending := Layout.split_gapText binding.ending []
  rw [List.append_nil, Piece.split_nil, List.append_nil] at ending
  rw [text, pieces, Layout.split_gapText, name _ (beforeEquals _ _), Layout.split_gapText, equals,
    Layout.split_gapText, binding.number.split_text (beforeSemicolon _ _), Layout.split_gapText,
    semicolon, ending]

theorem filterMap_said?_pieces : binding.pieces.filterMap Piece.said? =
    .name binding.name :: .equals :: binding.number.lexemes ++ [.semicolon] := by
  have gap := fun gap => (Layout.filterMap_gap gap).1
  simp only [pieces, List.filterMap_append, List.filterMap_cons, gap, Piece.said?,
    binding.number.filterMap_said?_pieces, List.nil_append]
  rfl

theorem filterMap_fault?_pieces : binding.pieces.filterMap Piece.fault? =
    if numeral binding.number.digits ≤ 2147483648 then [] else [.invalidNumber] := by
  have gap := fun gap => (Layout.filterMap_gap gap).2
  simp only [pieces, List.filterMap_append, List.filterMap_cons, gap, Piece.fault?,
    binding.number.filterMap_fault?_pieces, List.nil_append, List.append_nil]

/-- Lexing gives the tokens of the binding, and reports digits that are above the range. -/
theorem lex_source (file : String) :
    (∃ ts stop, (binding.source file).lex.tokens.toList = ts ++ [stop] ∧
      ts.map (·.lexeme) =
        .name binding.name :: .equals :: binding.number.lexemes ++ [.semicolon] ∧
      stop.lexeme = .endOfFile) ∧
    (binding.source file).lex.findings.toList.map (·.code) =
      (if numeral binding.number.digits ≤ 2147483648 then [] else [.invalidNumber]) ∧
    ∀ finding ∈ (binding.source file).lex.findings.toList, finding.severity = .error := by
  have cut : Piece.split (binding.source file).content.toList = binding.pieces :=
    (congrArg Piece.split String.toList_ofList).trans binding.split_text
  have few : (binding.pieces.filterMap Piece.fault?).length < errorBudget := by
    rw [filterMap_fault?_pieces]
    split <;> decide
  have covers := SourceText.covers_of_few cut few
  refine ⟨⟨_, _, covers.tokens, ?_, rfl⟩, covers.codes.trans binding.filterMap_fault?_pieces,
    covers.severity⟩
  rw [Stretch.map_lexeme_along, filterMap_said?_pieces]

end NumberBinding

/-! ## Parsing -/

/-- The problem that a number is out of range. -/
def Finding.IsOutOfRange (finding : Finding) : Prop :=
  finding.code = .invalidNumber ∧ finding.severity = .error

/-- The value of a number as its tokens say it. -/
def WrittenNumber.said (number : WrittenNumber) : Int :=
  match number.sign with
  | none => (Lexeme.magnitude number.digits).toNat
  | some _ => -(Lexeme.magnitude number.digits).toNat

/-- The values of signed 32-bit numbers are those in their range. -/
theorem exists_int32_iff {value : Int} :
    (∃ literal : Int32, literal.toInt = value) ↔ -2147483648 ≤ value ∧ value ≤ 2147483647 := by
  constructor
  · rintro ⟨literal, rfl⟩
    exact ⟨literal.minValue_le_toInt, literal.toInt_le⟩
  · rintro ⟨least, most⟩
    exact ⟨Int32.ofInt value, Int32.toInt_ofInt_of_le least (by omega)⟩

namespace Parser

variable {stop : Token}

/-- A number that is no signed 32-bit number is a problem. -/
theorem outcome_literal_error {signed : Int} (unfit : ∀ literal : Int32, literal.toInt ≠ signed)
    (span : Span) : ∃ problem : Finding, problem.IsOutOfRange ∧
      ∀ stop ts, (literal signed span).outcome stop ts = (.error problem, ts) := by
  have outside : ¬(Int32.minValue.toInt ≤ signed ∧ signed ≤ Int32.maxValue.toInt) := by
    intro fits
    obtain ⟨literal, same⟩ := exists_int32_iff.mpr fits
    exact unfit literal same
  unfold literal
  rw [if_neg outside]
  exact ⟨_, ⟨rfl, rfl⟩, fun stop ts => outcome_fail⟩

theorem outcome_expression_number (magnitude : UInt32) (span : Span) (rest : List Token) :
    (expression maxDepth).outcome stop (⟨.number magnitude, span⟩ :: rest) =
      (literal magnitude.toNat span).outcome stop rest := by
  have found : Parser.magnitude.outcome stop (⟨.number magnitude, span⟩ :: rest) =
      (.ok (magnitude, span), rest) := outcome_magnitude_eq_ok.mpr rfl
  rw [maxDepth, expression, outcome_choose]
  exact outcome_bind_ok found

theorem outcome_expression_minus (minus : Span) (magnitude : UInt32) (span : Span)
    (rest : List Token) :
    (expression maxDepth).outcome stop (⟨.minus, minus⟩ :: ⟨.number magnitude, span⟩ :: rest) =
      (literal (-magnitude.toNat) (minus.merge span)).outcome stop rest := by
  have sign : (expect .minus).outcome stop (⟨.minus, minus⟩ :: ⟨.number magnitude, span⟩ :: rest) =
      (.ok minus, ⟨.number magnitude, span⟩ :: rest) := outcome_expect_eq_ok.mpr rfl
  have found : Parser.magnitude.outcome stop (⟨.number magnitude, span⟩ :: rest) =
      (.ok (magnitude, span), rest) := outcome_magnitude_eq_ok.mpr rfl
  rw [maxDepth, expression, outcome_choose]
  exact (outcome_bind_ok sign).trans (outcome_bind_ok found)

/-- A written number is read as the literal of its sign and magnitude, whatever follows. -/
theorem outcome_expression_written (number : WrittenNumber) {ts : List Token}
    (written : ts.map (·.lexeme) = number.lexemes) :
    ∃ span, ∀ stop rest, (expression maxDepth).outcome stop (ts ++ rest) =
      (literal number.said span).outcome stop rest := by
  unfold WrittenNumber.lexemes at written
  unfold WrittenNumber.said
  cases sign : number.sign with
  | none =>
    rw [sign] at written
    obtain ⟨span, others, rfl, nothing⟩ := map_lexeme_eq_cons.mp written
    obtain rfl := List.map_eq_nil_iff.mp nothing
    exact ⟨span, fun stop rest => outcome_expression_number _ span rest⟩
  | some gap =>
    rw [sign] at written
    obtain ⟨minus, others, rfl, unsigned⟩ := map_lexeme_eq_cons.mp written
    obtain ⟨span, others, rfl, nothing⟩ := map_lexeme_eq_cons.mp unsigned
    obtain rfl := List.map_eq_nil_iff.mp nothing
    exact ⟨minus.merge span, fun stop rest => outcome_expression_minus minus _ span rest⟩

/-- A binding goes on with its value. -/
theorem outcome_statement_binding (name : Name) (equals : Span) (rest : List Token) :
    statement.outcome stop (name.token :: ⟨.equals, equals⟩ :: rest) =
      (do
        let value ← expression maxDepth
        let last ← expect .semicolon
        return .bind name value (name.span.merge last) : Reader Statement).outcome stop rest :=
  (outcome_bind_ok (outcome_expectName_eq_ok.mpr rfl)).trans
    (outcome_bind_ok (outcome_expect_eq_ok.mpr rfl))

end Parser

namespace NumberBinding

variable (binding : NumberBinding) {ts : List Token} {stop : Token}

/-- Parsing reads the literal that the tokens say, or finds that it is out of range. -/
theorem parse_tokens (isEnd : stop.lexeme = .endOfFile)
    (written : ts.map (·.lexeme) =
      .name binding.name :: .equals :: binding.number.lexemes ++ [.semicolon]) :
    (∀ literal : Int32, literal.toInt = binding.number.said →
      (Script.parse (ts ++ [stop])).findings.toList = [] ∧
      (Script.parse (ts ++ [stop])).script.unplaced =
        ⟨[.bind ⟨binding.name, default⟩ (.number literal default) default], default⟩) ∧
    ((∀ literal : Int32, literal.toInt ≠ binding.number.said) →
      ∃ finding, finding.IsOutOfRange ∧
        (Script.parse (ts ++ [stop])).findings.toList = [finding]) := by
  obtain ⟨place, equals, last, inner, inside, whole⟩ :
      ∃ place equals last inner, inner.map (·.lexeme) = binding.number.lexemes ∧ ts ++ [stop] =
        Name.token ⟨binding.name, place⟩ :: ⟨.equals, equals⟩ ::
          (inner ++ [⟨.semicolon, last⟩, stop]) := by
    obtain ⟨headed, last, rfl, valued⟩ := map_lexeme_eq_concat.mp written
    obtain ⟨place, others, rfl, equated⟩ := map_lexeme_eq_cons.mp valued
    obtain ⟨equals, inner, rfl, inside⟩ := map_lexeme_eq_cons.mp equated
    exact ⟨place, equals, last, inner, inside, by simp [Name.token]⟩
  have begins : (current stop (ts ++ [stop])).lexeme ≠ .endOfFile := by
    rw [whole]
    exact nofun
  have outcome := @outcome_statement_binding stop ⟨binding.name, place⟩ equals
    (inner ++ [⟨.semicolon, last⟩, stop])
  rw [← whole] at outcome
  obtain ⟨span, reads⟩ := outcome_expression_written binding.number inside
  constructor
  · intro literal fits
    have value : (expression maxDepth).outcome stop (inner ++ [⟨.semicolon, last⟩, stop]) =
        (.ok (.number literal span), [⟨.semicolon, last⟩, stop]) := by
      rw [reads, outcome_literal_eq_ok]
      exact ⟨rfl, literal, fits, rfl⟩
    rw [outcome_bind_ok value, outcome_bind_ok (outcome_expect_eq_ok.mpr rfl)] at outcome
    have comes : ComesTo stop ts [stop] (.ok _) :=
      ⟨begins, fun state isAhead => State.step_of_ok (isAhead ▸ outcome)⟩
    obtain ⟨statements, findings⟩ := comes.parseAlone isEnd
    exact ⟨findings, congrArg (fun found => Script.mk (found.map Statement.unplaced) default)
      statements⟩
  · intro unfit
    obtain ⟨problem, outOfRange, fails⟩ := outcome_literal_error unfit span
    have value : (expression maxDepth).outcome stop (inner ++ [⟨.semicolon, last⟩, stop]) =
        (.error problem, [⟨.semicolon, last⟩, stop]) := by
      rw [reads, fails]
    rw [outcome_bind_error value] at outcome
    have comes : ComesTo stop ts [stop] (.error problem) :=
      ⟨begins, fun state isAhead => State.step_of_error (isAhead ▸ outcome)⟩
    exact ⟨problem, outOfRange, (comes.parseAlone isEnd).2⟩

end NumberBinding

/-! ## Both together -/

/-- Digits up to the bound of lexing keep their value. -/
theorem WrittenNumber.said_eq_value {number : WrittenNumber}
    (small : numeral number.digits ≤ 2147483648) : number.said = number.value := by
  have counted : (Lexeme.magnitude number.digits).toNat = numeral number.digits := by
    rw [Lexeme.magnitude, if_pos small]
    exact UInt32.toNat_ofNat_of_lt' (Nat.lt_of_le_of_lt small (by decide))
  unfold said value
  cases number.sign <;> simp only [counted]

/-- Digits above the bound of lexing are said to be zero. -/
theorem WrittenNumber.said_eq_zero {number : WrittenNumber}
    (large : ¬numeral number.digits ≤ 2147483648) : number.said = 0 := by
  have counted : (Lexeme.magnitude number.digits).toNat = 0 := by
    rw [Lexeme.magnitude, if_neg large]
    rfl
  unfold said
  cases number.sign <;> simp only [counted] <;> rfl

/-- A number whose digits are above the bound of lexing is out of range. -/
theorem WrittenNumber.small_of_inRange {number : WrittenNumber} (inRange : number.InRange) :
    numeral number.digits ≤ 2147483648 := by
  obtain ⟨least, most⟩ := inRange
  unfold value at least most
  cases sign : number.sign with
  | none =>
    simp only [sign] at least most
    omega
  | some gap =>
    simp only [sign] at least most
    omega

/-- Numbers are read exactly. However many digits a number has, and whatever trivia stand behind its
minus sign, binding it to a name gives the literal of its value and no problem, if the value is a
signed 32-bit number. If it is not, lexing and parsing find one problem between them. -/
theorem NumberBinding.read_exactly (binding : NumberBinding) (file : String) :
    (binding.number.InRange →
      (binding.source file).lex.findings = #[] ∧
      (Script.parse (binding.source file).lex.tokens.toList).findings = #[] ∧
      ∃ literal : Int32, literal.toInt = binding.number.value ∧
        (Script.parse (binding.source file).lex.tokens.toList).script.unplaced =
          ⟨[.bind ⟨binding.name, default⟩ (.number literal default) default], default⟩) ∧
    (¬binding.number.InRange →
      ∃ finding : Finding, finding.code = .invalidNumber ∧ finding.severity = .error ∧
        (binding.source file).lex.findings.toList ++
          (Script.parse (binding.source file).lex.tokens.toList).findings.toList = [finding]) := by
  obtain ⟨⟨ts, stop, tokens, written, isEnd⟩, codes, errors⟩ := binding.lex_source file
  obtain ⟨fitting, unfitting⟩ := binding.parse_tokens isEnd written
  rw [tokens]
  constructor
  · intro inRange
    have small := WrittenNumber.small_of_inRange inRange
    obtain ⟨literal, same⟩ := exists_int32_iff.mpr inRange
    obtain ⟨findings, script⟩ :=
      fitting literal (same.trans (WrittenNumber.said_eq_value small).symm)
    rw [if_pos small, List.map_eq_nil_iff] at codes
    exact ⟨Array.toList_eq_nil_iff.mp codes, Array.toList_eq_nil_iff.mp findings, literal, same,
      script⟩
  · intro outOfRange
    by_cases small : numeral binding.number.digits ≤ 2147483648
    · -- lexing lets the digits pass, and parsing finds that they do not fit with their sign
      rw [if_pos small, List.map_eq_nil_iff] at codes
      have unfit : ∀ literal : Int32, literal.toInt ≠ binding.number.said := by
        intro literal same
        rw [WrittenNumber.said_eq_value small] at same
        exact outOfRange (exists_int32_iff.mp ⟨literal, same⟩)
      obtain ⟨finding, ⟨code, serious⟩, findings⟩ := unfitting unfit
      exact ⟨finding, code, serious, by rw [codes, findings]; rfl⟩
    · -- lexing reports the digits, and parsing reads a zero
      rw [if_neg small] at codes
      obtain ⟨finding, others, found, code, nothing⟩ := List.map_eq_cons_iff.mp codes
      obtain rfl := List.map_eq_nil_iff.mp nothing
      obtain ⟨findings, -⟩ := fitting 0 (WrittenNumber.said_eq_zero small).symm
      have serious := errors finding (found ▸ List.mem_cons_self)
      exact ⟨finding, code, serious, by rw [found, findings]; rfl⟩

namespace NumberBinding

/-- A binding of a name to digits with the magnitude of the least number, with a sign or without. -/
def ofMagnitude (sign : Option (List Trivia)) : NumberBinding where
  name := "a"
  named := ⟨⟨'a', [], rfl, by decide, nofun⟩, by decide⟩
  number :=
    { sign
      digits := ['0', '0', '2', '1', '4', '7', '4', '8', '3', '6', '4', '8']
      nonempty := by decide
      decimal := by simp [Lexeme.IsDigit] }
  beginning := []
  afterName := []
  beforeNumber := []
  afterNumber := []
  ending := []

/-- The least number, with a comment behind its sign. -/
def least : NumberBinding :=
  ofMagnitude (some [.blockComment ['-'] (by decide)])

/-- One more than the greatest number. -/
def beyond : NumberBinding :=
  ofMagnitude none

/-- The least number is read with its sign, even if a comment stands between; without the sign it is
out of range. -/
theorem read_exactly_least :
    String.ofList least.text = "a=-/*-*/002147483648;" ∧
      (∃ literal : Int32, literal.toInt = -2147483648 ∧
        (Script.parse (least.source "script").lex.tokens.toList).script.unplaced =
          ⟨[.bind ⟨"a", default⟩ (.number literal default) default], default⟩) ∧
      String.ofList beyond.text = "a=002147483648;" ∧
      ∃ finding : Finding, finding.code = .invalidNumber ∧ finding.severity = .error ∧
        (beyond.source "script").lex.findings.toList ++
          (Script.parse (beyond.source "script").lex.tokens.toList).findings.toList =
            [finding] := by
  obtain ⟨-, -, literal, value, script⟩ := (read_exactly least "script").1 (by decide)
  exact ⟨by decide, ⟨literal, value.trans (by decide), script⟩, by decide,
    (read_exactly beyond "script").2 (by decide)⟩

end NumberBinding

end TextureScript
