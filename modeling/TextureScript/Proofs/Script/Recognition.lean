import TextureScript.Proofs.Script.Grammar
import TextureScript.Proofs.Script.Recovery

/-!
# Parsing is derivation

A reader recognises a language when it finds the values of its texts and no others, unless what
follows the text would have been read on. Reading to a given depth recognises the derivations of
values that are not deeper, so two derivations from the same tokens are the same. A script without
problems is therefore a derivation that uses up all tokens, and every script that can be written is
read back.
-/

namespace TextureScript

open TextureScript.Parser TextureScript.Parser.Reader

namespace Parser

/-- A reader recognises a language, before all but some barred lexemes. -/
structure Reader.Recognizes {α : Type} (reader : Reader α) (Language : List Token → α → Prop)
    (Barred : Lexeme → Prop) : Prop where
  /-- What is found was derived from the tokens that were used. -/
  sound {stop : Token} {ts rest : List Token} {value : α} :
    reader.outcome stop ts = (.ok value, rest) → ∃ used, ts = used ++ rest ∧ Language used value
  /-- What can be derived is found. -/
  complete (stop : Token) {used rest : List Token} {value : α} :
    Language used value → (∀ t ∈ rest.head?, ¬Barred t.lexeme) →
      reader.outcome stop (used ++ rest) = (.ok value, rest)

/-- Where a language is recognised, a stream goes on in only one way. -/
theorem Reader.Recognizes.unique {α : Type} {reader : Reader α}
    {Language : List Token → α → Prop} {Barred : Lexeme → Prop}
    (recognizes : reader.Recognizes Language Barred) {used used' rest rest' : List Token}
    {value value' : α} (derived : Language used value) (derived' : Language used' value')
    (free : ∀ t ∈ rest.head?, ¬Barred t.lexeme) (free' : ∀ t ∈ rest'.head?, ¬Barred t.lexeme)
    (same : used ++ rest = used' ++ rest') : value = value' ∧ rest = rest' := by
  have found := recognizes.complete default derived free
  have found' := recognizes.complete default derived' free'
  rw [← same, found] at found'
  obtain ⟨ok, left⟩ := Prod.mk.inj found'
  exact ⟨Except.ok.inj ok, left⟩

/-! ## Items that are separated by commas -/

section Separated

variable {α : Type} {item : Reader α} {Item : List Token → α → Prop} {Barred : Lexeme → Prop}

theorem separatedFrom_sound (recognizes : item.Recognizes Item Barred) (stop : Token)
    (given : List Token) {ts rest : List Token} {done values : Array α} (within : ts <:+ given)
    (found : (separatedFrom item stop given done ts within).outcome = (.ok values, rest)) :
    ∃ used later, ts = used ++ rest ∧ values.toList = done.toList ++ later ∧
      Separated Item used later := by
  -- by induction on the number of tokens, as every comma uses one
  induction counted : ts.length using Nat.strongRecOn generalizing ts done with
  | ind size ih =>
    rcases outcome : item.outcome stop ts with ⟨problem | value, middle⟩
    · rw [outcome_separatedFrom_error within outcome] at found
      cases (Prod.mk.inj found).1
    · obtain ⟨first, rfl, derived⟩ := recognizes.sound outcome
      by_cases comma : ∃ span later, middle = ⟨.comma, span⟩ :: later
      · obtain ⟨span, next, rfl⟩ := comma
        obtain ⟨within', step⟩ := outcome_separatedFrom_more done within outcome
        have shorter : next.length < size := by
          simp only [List.length_append, List.length_cons] at counted
          omega
        obtain ⟨used, later, rfl, all, others⟩ := ih _ shorter within' (step ▸ found) rfl
        refine ⟨first ++ ⟨.comma, span⟩ :: used, value :: later, by simp, ?_, .more derived others⟩
        simpa using all
      · have last : ∀ t ∈ middle.head?, t.lexeme ≠ .comma := by
          intro t next isComma
          cases middle with
          | nil => cases next
          | cons u middle =>
            cases next
            exact comma ⟨t.span, middle, by rw [← isComma]⟩
        rw [outcome_separatedFrom_last within outcome last] at found
        obtain ⟨ok, rfl⟩ := Prod.mk.inj found
        cases ok
        exact ⟨first, [value], rfl, by simp, .last derived⟩

theorem separatedFrom_complete (recognizes : item.Recognizes Item Barred) (free : ¬Barred .comma)
    {used : List Token} {later : List α} (derived : Separated Item used later) (stop : Token)
    (given : List Token) (done : Array α) {rest : List Token} (within : used ++ rest <:+ given)
    (last : ∀ t ∈ rest.head?, t.lexeme ≠ .comma) (ends : ∀ t ∈ rest.head?, ¬Barred t.lexeme) :
    (separatedFrom item stop given done (used ++ rest) within).outcome =
      (.ok (done ++ later.toArray), rest) := by
  induction derived generalizing done with
  | last derived =>
    rw [outcome_separatedFrom_last within (recognizes.complete stop derived ends) last]
    simp
  | @more ts inner value values comma derived others ih =>
    have found : item.outcome stop (ts ++ ⟨.comma, comma⟩ :: (inner ++ rest)) =
        (.ok value, ⟨.comma, comma⟩ :: (inner ++ rest)) :=
      recognizes.complete stop derived fun t next => by
        cases next
        exact free
    simp only [List.append_assoc, List.cons_append] at within ⊢
    obtain ⟨within', step⟩ := outcome_separatedFrom_more done within found
    rw [step, ih (done.push value) within']
    simp

/-- A list is recognised when its items are, and a comma may follow an item. -/
theorem separated_recognizes (recognizes : item.Recognizes Item Barred) (free : ¬Barred .comma) :
    (separated item).Recognizes (fun ts values => Separated Item ts values.toList)
      (fun lexeme => lexeme = .comma ∨ Barred lexeme) where
  sound found := by
    obtain ⟨used, later, split, all, derived⟩ := separatedFrom_sound recognizes _ _ _ found
    refine ⟨used, split, ?_⟩
    rw [all]
    exact derived
  complete stop _ _ _ derived ends := by
    have found := separatedFrom_complete recognizes free derived stop _ #[] (List.suffix_refl _)
      (fun t next comma => ends t next (.inl comma))
      (fun t next barred => ends t next (.inr barred))
    rw [Array.toArray_toList, Array.empty_append] at found
    exact found

end Separated

theorem expectName_recognizes : expectName.Recognizes Name.Derives (fun _ => False) where
  sound found := ⟨_, outcome_expectName_eq_ok.mp found, rfl⟩
  complete _ _ _ _ derived _ := by
    rw [derived]
    exact outcome_expectName_eq_ok.mpr rfl

/-! ## Values -/

variable {stop : Token} {ts rest : List Token}

theorem outcome_call_eq_ok {argument : Reader Expr} {value : Expr} :
    (call argument).outcome stop ts = (.ok value, rest) ↔
      ∃ (callee : Name) (left right : Span) (args : List Expr) (inner : List Token),
        ts = callee.token :: ⟨.leftParen, left⟩ :: inner ∧
        (arguments argument).outcome stop inner = (.ok args, ⟨.rightParen, right⟩ :: rest) ∧
        value = .call callee args (callee.span.merge right) := by
  simp only [call, outcome_bind_eq_ok, outcome_expectName_eq_ok, outcome_expect_eq_ok,
    outcome_pure, Prod.mk.injEq, Except.ok.injEq]
  constructor
  · rintro ⟨callee, _, rfl, left, inner, rfl, args, _, found, right, _, rfl, rfl, rfl⟩
    exact ⟨callee, left, right, args, inner, rfl, found, rfl⟩
  · rintro ⟨callee, left, right, args, inner, rfl, found, rfl⟩
    exact ⟨callee, _, rfl, left, inner, rfl, args, _, found, right, _, rfl, rfl, rfl⟩

theorem outcome_reference_eq_ok {value : Expr} :
    reference.outcome stop ts = (.ok value, rest) ↔
      ∃ text span, ts = ⟨.name text, span⟩ :: rest ∧ value = .name text span := by
  simp only [reference, outcome_bind_eq_ok, outcome_expectName_eq_ok, outcome_pure, Prod.mk.injEq,
    Except.ok.injEq]
  constructor
  · rintro ⟨name, _, rfl, rfl, rfl⟩
    exact ⟨name.text, name.span, rfl, rfl⟩
  · rintro ⟨text, span, rfl, rfl⟩
    exact ⟨⟨text, span⟩, rest, rfl, rfl, rfl⟩

/-- A number is found exactly when there is a signed 32-bit number that it is. -/
theorem outcome_literal_eq_ok {signed : Int} {span : Span} {value : Expr} :
    (literal signed span).outcome stop ts = (.ok value, rest) ↔
      rest = ts ∧ ∃ number : Int32, number.toInt = signed ∧ value = .number number span := by
  unfold literal
  split
  · rename_i fits
    obtain ⟨least, most⟩ := fits
    rw [Int32.toInt_minValue] at least
    rw [Int32.toInt_maxValue] at most
    have same : (Int32.ofInt signed).toInt = signed :=
      Int32.toInt_ofInt_of_le least (by omega)
    simp only [outcome_pure, Prod.mk.injEq, Except.ok.injEq]
    constructor
    · rintro ⟨rfl, rfl⟩
      exact ⟨rfl, _, same, rfl⟩
    · rintro ⟨rfl, number, rfl, rfl⟩
      exact ⟨by rw [Int32.ofInt_toInt], rfl⟩
  · rename_i unfit
    simp only [outcome_fail, Prod.mk.injEq, reduceCtorEq, false_and, false_iff]
    rintro ⟨-, number, rfl, -⟩
    exact unfit ⟨number.minValue_le_toInt, number.toInt_le⟩

theorem outcome_unsigned_eq_ok {value : Expr} :
    unsigned.outcome stop ts = (.ok value, rest) ↔
      ∃ (magnitude : UInt32) (number : Int32) (span : Span),
        ts = ⟨.number magnitude, span⟩ :: rest ∧ number.toInt = magnitude.toNat ∧
        value = .number number span := by
  simp only [unsigned, outcome_bind_eq_ok, Prod.exists, outcome_magnitude_eq_ok,
    outcome_literal_eq_ok]
  constructor
  · rintro ⟨magnitude, span, _, rfl, rfl, number, fits, rfl⟩
    exact ⟨magnitude, number, span, rfl, fits, rfl⟩
  · rintro ⟨magnitude, number, span, rfl, fits, rfl⟩
    exact ⟨magnitude, span, _, rfl, rfl, number, fits, rfl⟩

theorem outcome_negated_eq_ok {value : Expr} :
    negated.outcome stop ts = (.ok value, rest) ↔
      ∃ (magnitude : UInt32) (number : Int32) (sign span : Span),
        ts = ⟨.minus, sign⟩ :: ⟨.number magnitude, span⟩ :: rest ∧
        number.toInt = -magnitude.toNat ∧ value = .number number (sign.merge span) := by
  simp only [negated, outcome_bind_eq_ok, Prod.exists, outcome_expect_eq_ok,
    outcome_magnitude_eq_ok, outcome_literal_eq_ok]
  constructor
  · rintro ⟨sign, _, rfl, magnitude, span, _, rfl, rfl, number, fits, rfl⟩
    exact ⟨magnitude, number, sign, span, rfl, fits, rfl⟩
  · rintro ⟨magnitude, number, sign, span, rfl, fits, rfl⟩
    exact ⟨sign, _, rfl, magnitude, span, _, rfl, rfl, number, fits, rfl⟩

end Parser

/-! ## Facts about derivations -/

theorem Expr.Derives.begins {ts : List Token} {value : Expr} (derived : value.Derives ts) :
    ∃ first others, ts = first :: others ∧ first.lexeme ≠ .rightParen := by
  cases derived with
  | number | negative | name | plain | call => exact ⟨_, _, rfl, nofun⟩

theorem Separated.begins {ts : List Token} {values : List Expr}
    (derived : Separated Expr.Derives ts values) :
    ∃ first others, ts = first :: others ∧ first.lexeme ≠ .rightParen := by
  cases derived with
  | last item => exact item.begins
  | more item others =>
    obtain ⟨first, rest, rfl, other⟩ := item.begins
    exact ⟨first, _, rfl, other⟩

/-- Each item of a list with commas is derived from some of its tokens. -/
theorem Separated.exists_of_mem {α : Type} {Item : List Token → α → Prop} {ts : List Token}
    {values : List α} (derived : Separated Item ts values) :
    ∀ value ∈ values, ∃ part, part.Sublist ts ∧ Item part value := by
  induction derived with
  | last item =>
    rw [List.forall_mem_singleton]
    exact ⟨_, List.Sublist.refl _, item⟩
  | more item _ ih =>
    rw [List.forall_mem_cons]
    refine ⟨⟨_, List.sublist_append_left _ _, item⟩, ?_⟩
    intro value member
    obtain ⟨part, inside, derived⟩ := ih value member
    exact ⟨part, (inside.cons _).trans (List.sublist_append_right _ _), derived⟩

theorem Expr.depth_pos (value : Expr) : 0 < value.depth := by
  cases value <;> simp [Expr.depth]

/-- The items of a list may be given a property one by one. -/
theorem separated_depths {ts : List Token} {values : List Expr} {limit : Nat} :
    Separated (fun ts value => Expr.Derives ts value ∧ value.depth ≤ limit) ts values ↔
      Separated Expr.Derives ts values ∧ Expr.depths values ≤ limit := by
  constructor
  · intro derived
    induction derived with
    | last item => exact ⟨.last item.1, by simpa [Expr.depths] using item.2⟩
    | more item _ ih => exact ⟨.more item.1 ih.1, Nat.max_le.mpr ⟨item.2, ih.2⟩⟩
  · rintro ⟨derived, shallow⟩
    induction derived with
    | last item => exact .last ⟨item, by simpa [Expr.depths] using shallow⟩
    | more item _ ih =>
      obtain ⟨here, there⟩ := Nat.max_le.mp shallow
      exact .more ⟨item, here⟩ (ih there)

namespace Parser

/-! ## Reading values -/

theorem argumentsForm_some {argument : Reader Expr} {next after : Lexeme}
    (other : next ≠ .rightParen) :
    argumentsForm argument next after = (do
      let args ← separated argument
      return args.toList) := by
  cases next <;> first | rfl | exact absurd rfl other

/-- The arguments of a call are none, or a list. -/
theorem outcome_arguments_eq_ok {argument : Reader Expr} {limit : Nat} {stop : Token}
    {inner rest : List Token} {right : Span} {args : List Expr}
    (recognizes : argument.Recognizes (fun ts value => value.Derives ts ∧ value.depth ≤ limit)
      (· = .leftParen)) :
    (arguments argument).outcome stop inner = (.ok args, ⟨.rightParen, right⟩ :: rest) ↔
      (args = [] ∧ inner = ⟨.rightParen, right⟩ :: rest) ∨
      ∃ used, inner = used ++ ⟨.rightParen, right⟩ :: rest ∧
        Separated Expr.Derives used args ∧ Expr.depths args ≤ limit := by
  have list := separated_recognizes recognizes (by simp)
  rw [arguments, outcome_choose]
  constructor
  · intro found
    by_cases none : (current stop inner).lexeme = .rightParen
    · rw [none] at found
      obtain ⟨ok, left⟩ := Prod.mk.inj (outcome_pure.symm.trans found)
      exact .inl ⟨(Except.ok.inj ok).symm, left⟩
    · rw [argumentsForm_some none, outcome_bind_eq_ok] at found
      obtain ⟨values, middle, found, last⟩ := found
      obtain ⟨ok, rfl⟩ := Prod.mk.inj last
      cases ok
      obtain ⟨used, rfl, derived⟩ := list.sound found
      exact .inr ⟨used, rfl, separated_depths.mp derived⟩
  · rintro (⟨rfl, rfl⟩ | ⟨used, rfl, derived⟩)
    · rfl
    · obtain ⟨first, others, rfl, other⟩ := derived.1.begins
      have next : (current stop (first :: others ++ ⟨.rightParen, right⟩ :: rest)).lexeme ≠
          .rightParen := other
      rw [argumentsForm_some next, outcome_bind_eq_ok]
      have asArray : Separated (fun ts value => Expr.Derives ts value ∧ value.depth ≤ limit)
          (first :: others) args.toArray.toList := separated_depths.mpr derived
      refine ⟨args.toArray, _, list.complete stop asArray ?_, rfl⟩
      rintro t ⟨⟩
      simp

/-- What is found as a value was derived, one level deeper than its arguments. -/
theorem valueForm_sound {argument : Reader Expr} {limit : Nat} {next after : Lexeme}
    {stop : Token} {ts rest : List Token} {value : Expr}
    (recognizes : argument.Recognizes (fun ts value => value.Derives ts ∧ value.depth ≤ limit)
      (· = .leftParen))
    (found : (valueForm argument next after).outcome stop ts = (.ok value, rest)) :
    ∃ used, ts = used ++ rest ∧ value.Derives used ∧ value.depth ≤ limit + 1 := by
  cases next with
  | name text =>
    by_cases isCall : after = .leftParen
    · rw [isCall] at found
      obtain ⟨callee, left, right, args, inner, rfl, inside, rfl⟩ := outcome_call_eq_ok.mp found
      rcases (outcome_arguments_eq_ok recognizes).mp inside with ⟨rfl, rfl⟩ | ⟨used, rfl, derived⟩
      · exact ⟨_, rfl, .plain, by simp [Expr.depth, Expr.depths]⟩
      · exact ⟨callee.token :: ⟨.leftParen, left⟩ :: used ++ [⟨.rightParen, right⟩], by simp,
          .call derived.1, Nat.succ_le_succ derived.2⟩
    · rw [valueForm_name isCall] at found
      obtain ⟨text, span, rfl, rfl⟩ := outcome_reference_eq_ok.mp found
      exact ⟨[_], rfl, .name, by simp [Expr.depth]⟩
  | number magnitude =>
    obtain ⟨magnitude, number, span, rfl, fits, rfl⟩ := outcome_unsigned_eq_ok.mp found
    exact ⟨[_], rfl, .number fits, by simp [Expr.depth]⟩
  | minus =>
    obtain ⟨magnitude, number, sign, span, rfl, fits, rfl⟩ := outcome_negated_eq_ok.mp found
    exact ⟨[_, _], rfl, .negative fits, by simp [Expr.depth]⟩
  | exportWord | leftParen | rightParen | comma | semicolon | equals | endOfFile =>
    cases (Prod.mk.inj found).1

/-- What is derived is found, if its arguments are. -/
theorem valueForm_complete {argument : Reader Expr} {limit : Nat} (stop : Token)
    {used rest : List Token} {value : Expr}
    (recognizes : argument.Recognizes (fun ts value => value.Derives ts ∧ value.depth ≤ limit)
      (· = .leftParen))
    (derived : value.Derives used) (shallow : value.depth ≤ limit + 1)
    (free : ∀ t ∈ rest.head?, t.lexeme ≠ .leftParen) :
    (choose (valueForm argument)).outcome stop (used ++ rest) = (.ok value, rest) := by
  rw [outcome_choose]
  cases derived with
  | number fits => exact outcome_unsigned_eq_ok.mpr ⟨_, _, _, rfl, fits, rfl⟩
  | negative fits => exact outcome_negated_eq_ok.mpr ⟨_, _, _, _, rfl, fits, rfl⟩
  | @name text span =>
    have next : (current stop (⟨.name text, span⟩ :: rest)).lexeme = .name text := rfl
    have after : following (⟨.name text, span⟩ :: rest) ≠ .leftParen := by
      cases rest with
      | nil => exact nofun
      | cons t rest => exact free t rfl
    rw [List.singleton_append, next, valueForm_name after]
    exact outcome_reference_eq_ok.mpr ⟨_, _, rfl, rfl⟩
  | plain =>
    exact outcome_call_eq_ok.mpr ⟨_, _, _, [], _, rfl,
      (outcome_arguments_eq_ok recognizes).mpr (.inl ⟨rfl, rfl⟩), rfl⟩
  | @call callee left right inner args derived =>
    have inside : (arguments argument).outcome stop (inner ++ ⟨.rightParen, right⟩ :: rest) =
        (.ok args, ⟨.rightParen, right⟩ :: rest) :=
      (outcome_arguments_eq_ok recognizes).mpr
        (.inr ⟨inner, rfl, derived, Nat.le_of_succ_le_succ shallow⟩)
    exact outcome_call_eq_ok.mpr ⟨callee, left, right, args, inner ++ ⟨.rightParen, right⟩ :: rest,
      by simp, inside, rfl⟩

/-- Reading a value of limited depth finds exactly the values of that depth. -/
theorem expression_recognizes (limit : Nat) :
    (expression limit).Recognizes (fun ts value => value.Derives ts ∧ value.depth ≤ limit)
      (· = .leftParen) := by
  induction limit with
  | zero =>
    constructor
    · intro stop ts rest value found
      cases (Prod.mk.inj found).1
    · rintro stop used rest value ⟨-, shallow⟩
      exact absurd value.depth_pos (by omega)
  | succ limit ih =>
    constructor
    · intro stop ts rest value found
      exact valueForm_sound ih found
    · rintro stop used rest value ⟨derived, shallow⟩ free
      exact valueForm_complete stop ih derived shallow free

/-! ## Reading statements -/

section Statement

variable {stop : Token} {ts rest : List Token} {value : Reader Expr} {found : Statement}

theorem outcome_binding_eq_ok :
    (binding value).outcome stop ts = (.ok found, rest) ↔
      ∃ (target : Name) (equals last : Span) (bound : Expr) (inner : List Token),
        ts = target.token :: ⟨.equals, equals⟩ :: inner ∧
        value.outcome stop inner = (.ok bound, ⟨.semicolon, last⟩ :: rest) ∧
        found = .bind target bound (target.span.merge last) := by
  simp only [binding, outcome_bind_eq_ok, outcome_expectName_eq_ok, outcome_expect_eq_ok,
    outcome_pure, Prod.mk.injEq, Except.ok.injEq]
  constructor
  · rintro ⟨target, _, rfl, equals, inner, rfl, bound, _, inside, last, _, rfl, rfl, rfl⟩
    exact ⟨target, equals, last, bound, inner, rfl, inside, rfl⟩
  · rintro ⟨target, equals, last, bound, inner, rfl, inside, rfl⟩
    exact ⟨target, _, rfl, equals, inner, rfl, bound, _, inside, last, _, rfl, rfl, rfl⟩

theorem outcome_channel_eq_ok :
    (channel value).outcome stop ts = (.ok found, rest) ↔
      ∃ (material name materialType : Name) (left comma comma' right equals last : Span)
        (routed : Expr) (inner : List Token),
        ts = ⟨.leftParen, left⟩ :: material.token :: ⟨.comma, comma⟩ :: name.token ::
          ⟨.comma, comma'⟩ :: materialType.token :: ⟨.rightParen, right⟩ :: ⟨.equals, equals⟩ ::
          inner ∧
        value.outcome stop inner = (.ok routed, ⟨.semicolon, last⟩ :: rest) ∧
        found = .channel material name materialType routed (left.merge last) := by
  simp only [channel, outcome_bind_eq_ok, outcome_expectName_eq_ok, outcome_expect_eq_ok,
    outcome_pure, Prod.mk.injEq, Except.ok.injEq]
  constructor
  · rintro ⟨left, _, rfl, material, _, rfl, comma, _, rfl, name, _, rfl, comma', _, rfl,
      materialType, _, rfl, right, _, rfl, equals, inner, rfl, routed, _, inside, last, _, rfl,
      rfl, rfl⟩
    exact ⟨material, name, materialType, left, comma, comma', right, equals, last, routed, inner,
      rfl, inside, rfl⟩
  · rintro ⟨material, name, materialType, left, comma, comma', right, equals, last, routed, inner,
      rfl, inside, rfl⟩
    exact ⟨left, _, rfl, material, _, rfl, comma, _, rfl, name, _, rfl, comma', _, rfl,
      materialType, _, rfl, right, _, rfl, equals, inner, rfl, routed, _, inside, last, _, rfl,
      rfl, rfl⟩

theorem outcome_exports_eq_ok :
    exports.outcome stop ts = (.ok found, rest) ↔
      ∃ (word last : Span) (names : Array Name) (inner : List Token),
        ts = ⟨.exportWord, word⟩ :: inner ∧
        (separated expectName).outcome stop inner = (.ok names, ⟨.semicolon, last⟩ :: rest) ∧
        found = .exports names.toList (word.merge last) := by
  simp only [exports, outcome_bind_eq_ok, outcome_expect_eq_ok, outcome_pure, Prod.mk.injEq,
    Except.ok.injEq]
  constructor
  · rintro ⟨word, inner, rfl, names, _, inside, last, _, rfl, rfl, rfl⟩
    exact ⟨word, last, names, inner, rfl, inside, rfl⟩
  · rintro ⟨word, last, names, inner, rfl, inside, rfl⟩
    exact ⟨word, inner, rfl, names, _, inside, last, _, rfl, rfl, rfl⟩

end Statement

/-- Reading a statement with values of limited depth finds exactly these statements. -/
theorem statement_recognizes (limit : Nat) :
    (choose (statementForm (expression limit))).Recognizes
      (fun ts statement => statement.Derives ts ∧ statement.depth ≤ limit) (fun _ => False) := by
  have value := expression_recognizes limit
  have names := separated_recognizes expectName_recognizes (by simp)
  constructor
  · intro stop ts rest statement found
    rw [outcome_choose] at found
    unfold statementForm at found
    split at found
    · obtain ⟨word, last, list, inner, rfl, inside, rfl⟩ := outcome_exports_eq_ok.mp found
      obtain ⟨used, rfl, derived⟩ := names.sound inside
      exact ⟨⟨.exportWord, word⟩ :: used ++ [⟨.semicolon, last⟩], by simp, .exports derived,
        Nat.zero_le _⟩
    · obtain ⟨material, name, materialType, left, comma, comma', right, equals, last, routed, inner,
        rfl, inside, rfl⟩ := outcome_channel_eq_ok.mp found
      obtain ⟨used, rfl, derived, shallow⟩ := value.sound inside
      exact ⟨⟨.leftParen, left⟩ :: material.token :: ⟨.comma, comma⟩ :: name.token ::
        ⟨.comma, comma'⟩ :: materialType.token :: ⟨.rightParen, right⟩ :: ⟨.equals, equals⟩ ::
        used ++ [⟨.semicolon, last⟩], by simp, .channel derived, shallow⟩
    · obtain ⟨target, equals, last, bound, inner, rfl, inside, rfl⟩ :=
        outcome_binding_eq_ok.mp found
      obtain ⟨used, rfl, derived, shallow⟩ := value.sound inside
      exact ⟨target.token :: ⟨.equals, equals⟩ :: used ++ [⟨.semicolon, last⟩], by simp,
        .bind derived, shallow⟩
    · cases (Prod.mk.inj found).1
  · rintro stop used rest statement ⟨derived, shallow⟩ -
    rw [outcome_choose]
    cases derived with
    | @bind target equals last inner bound derived =>
      have inside : (expression limit).outcome stop (inner ++ ⟨.semicolon, last⟩ :: rest) =
          (.ok bound, ⟨.semicolon, last⟩ :: rest) :=
        value.complete stop ⟨derived, shallow⟩ (by rintro t ⟨⟩; exact nofun)
      exact outcome_binding_eq_ok.mpr ⟨target, equals, last, bound, _, by simp, inside, rfl⟩
    | @channel material name materialType left comma comma' right equals last inner routed
        derived =>
      have inside : (expression limit).outcome stop (inner ++ ⟨.semicolon, last⟩ :: rest) =
          (.ok routed, ⟨.semicolon, last⟩ :: rest) :=
        value.complete stop ⟨derived, shallow⟩ (by rintro t ⟨⟩; exact nofun)
      exact outcome_channel_eq_ok.mpr ⟨material, name, materialType, left, comma, comma', right,
        equals, last, routed, _, by simp, inside, rfl⟩
    | @exports word last inner list derived =>
      have inside : (separated expectName).outcome stop (inner ++ ⟨.semicolon, last⟩ :: rest) =
          (.ok list.toArray, ⟨.semicolon, last⟩ :: rest) :=
        names.complete stop derived (by rintro t ⟨⟩; simp)
      exact outcome_exports_eq_ok.mpr ⟨word, last, list.toArray, _, by simp, inside, rfl⟩

end Parser

/-! ## Whole scripts -/

theorem Statement.Derives.begins {ts : List Token} {statement : Statement}
    (derived : statement.Derives ts) : ∃ first others, ts = first :: others ∧
      first.lexeme ≠ .endOfFile := by
  cases derived with
  | bind | channel | exports => exact ⟨_, _, rfl, nofun⟩

theorem Statement.Derives.ends {ts : List Token} {statement : Statement}
    (derived : statement.Derives ts) : ∃ body last, ts = body ++ [⟨.semicolon, last⟩] := by
  cases derived with
  | bind | channel | exports => exact ⟨_, _, rfl⟩

/-- Statements are derived from their tokens in only one way. -/
theorem Statement.DeriveAll.unique {ts : List Token} {statements others : List Statement}
    (derived : DeriveAll ts statements) (derived' : DeriveAll ts others) : statements = others := by
  induction derived generalizing others with
  | nil =>
    generalize none : ([] : List Token) = ts at derived'
    cases derived' with
    | nil => rfl
    | cons first _ =>
      obtain ⟨t, more, rfl, -⟩ := first.begins
      cases none
  | @cons used rest statement statements first _ ih =>
    generalize same : used ++ rest = ts at derived'
    cases derived' with
    | nil =>
      obtain ⟨t, more, rfl, -⟩ := first.begins
      cases same
    | @cons used' rest' statement' statements' first' later' =>
      -- both statements are found by a reader that goes deep enough for either
      obtain ⟨rfl, rfl⟩ := (statement_recognizes (max statement.depth statement'.depth)).unique
        ⟨first, Nat.le_max_left _ _⟩ ⟨first', Nat.le_max_right _ _⟩ (fun _ _ => id) (fun _ _ => id)
        same
      rw [ih later']

namespace Parser

variable {stop : Token}

/-- A derived statement is read in one step. -/
theorem comesTo_derived {ts more : List Token} {statement : Statement}
    (derived : statement.Derives ts) (shallow : statement.depth ≤ maxDepth) :
    ComesTo stop ts more (.ok statement) where
  begins := by
    obtain ⟨first, others, rfl, other⟩ := derived.begins
    exact other
  step state isAhead := by
    apply State.step_of_ok
    rw [isAhead]
    exact (statement_recognizes maxDepth).complete stop ⟨derived, shallow⟩ (fun _ _ => id)

/-- Derived statements are read one after the other, up to the end mark. -/
theorem State.run_deriveAll (isEnd : stop.lexeme = .endOfFile) {ts : List Token}
    {statements : List Statement} (derived : Statement.DeriveAll ts statements)
    (shallow : ∀ statement ∈ statements, statement.depth ≤ maxDepth) (state : State)
    (isAhead : state.ahead = ts ++ [stop]) (left : state.spent = false) :
    state.run stop =
      { state with statements := state.statements ++ statements.toArray, ahead := [stop] } := by
  induction derived generalizing state with
  | nil =>
    have finished : state.done stop := by
      simp [State.done, isAhead, current, isEnd]
    rw [State.run_of_done finished, Array.append_empty]
    obtain ⟨statements, findings, ahead⟩ := state
    exact congrArg (State.mk statements findings) isAhead
  | @cons ts rest statement statements first _ ih =>
    rw [List.append_assoc] at isAhead
    obtain ⟨here, there⟩ := List.forall_mem_cons.mp shallow
    rw [(comesTo_derived first here).run isAhead left,
      ih there (state.record (.ok statement) (rest ++ [stop])) rfl left]
    simp [State.record]

theorem State.findings_run_le (stop : Token) (state : State) :
    state.findings.size ≤ (state.run stop).findings.size := by
  fun_induction State.run stop state with
  | case1 => exact Nat.le_refl _
  | case2 state _ ih =>
    refine Nat.le_trans ?_ ih
    rcases outcome : statement.outcome stop state.ahead with ⟨problem | found, rest⟩
    · simp [State.step_of_error outcome, State.record]
    · simp [State.step_of_ok outcome, State.record]

/-- If no problem is found on the way to the end mark, the tokens on the way are derived. -/
theorem State.deriveAll_of_run (isEnd : stop.lexeme = .endOfFile) (state : State) {ts : List Token}
    (isAhead : state.ahead = ts ++ [stop]) (noEnd : ∀ t ∈ ts, t.lexeme ≠ .endOfFile)
    (none : state.findings = #[]) (noProblem : (state.run stop).findings = #[]) :
    ∃ statements, Statement.DeriveAll ts statements ∧
      ∀ statement ∈ statements, statement.depth ≤ maxDepth := by
  fun_induction State.run stop state generalizing ts with
  | case1 state finished =>
    cases ts with
    | nil => exact ⟨[], .nil, by simp⟩
    | cons t ts =>
      have other := noEnd t List.mem_cons_self
      simp [State.done, isAhead, current, State.spent, none, errorBudget,
        Report.capacity, other] at finished
  | case2 state _ ih =>
    rcases outcome : statement.outcome stop state.ahead with ⟨problem | found, rest⟩
    · -- a problem would remain
      have grows := State.findings_run_le stop (state.step stop)
      rw [noProblem, State.step_of_error outcome] at grows
      simp [State.record] at grows
    · rw [State.step_of_ok outcome] at ih noProblem
      obtain ⟨used, whole, derived, shallow⟩ := (statement_recognizes maxDepth).sound outcome
      rw [isAhead] at whole
      -- the end mark is not part of a statement
      obtain ⟨ts', rfl, rfl⟩ : ∃ ts', ts = used ++ ts' ∧ rest = ts' ++ [stop] := by
        rcases List.eq_nil_or_concat rest with rfl | ⟨ts', final, rfl⟩
        · obtain ⟨body, last, rfl⟩ := derived.ends
          rw [List.append_nil] at whole
          cases List.append_inj_right' whole rfl
          cases isEnd
        · rw [List.concat_eq_append, ← List.append_assoc] at whole
          obtain ⟨split, same⟩ := List.append_inj' whole rfl
          cases same
          exact ⟨ts', split, List.concat_eq_append⟩
      obtain ⟨statements, others, allShallow⟩ := ih rfl
        (fun t member => noEnd t (List.mem_append_right _ member)) none noProblem
      exact ⟨found :: statements, .cons derived others,
        List.forall_mem_cons.mpr ⟨shallow, allShallow⟩⟩

end Parser

namespace Script

variable {stop : Token} {ts : List Token} {script : Script}

/-- A script is derived from its tokens in only one way. -/
theorem Derives.unique {other : Script} (derived : script.Derives stop ts)
    (derived' : other.Derives stop ts) : script = other := by
  obtain ⟨statements, span⟩ := script
  obtain ⟨others, place⟩ := other
  obtain rfl : statements = others := derived.statements.unique derived'.statements
  exact congrArg (Script.mk statements) (derived.span.trans derived'.span.symm)

/-- A script that is derived, and is not too deep, is parsed without a problem. -/
theorem Derives.parse (derived : script.Derives stop ts) (shallow : script.Within maxDepth)
    (isEnd : stop.lexeme = .endOfFile) : Script.parse (ts ++ [stop]) = ⟨script, #[]⟩ := by
  have ran := State.run_deriveAll isEnd derived.statements shallow { ahead := ts ++ [stop] } rfl rfl
  have whole : (ts ++ [stop]).take ((ts ++ [stop]).length - [stop].length) = ts := by
    simp
  have first : current stop (ts ++ [stop]) = ts.headD stop := current_append stop stop ts []
  obtain ⟨statements, span⟩ := script
  simp only [Script.parse, List.getLast?_concat, Option.getD_some, ran, passed, whole, first,
    Array.empty_append]
  exact congrArg (fun span => Parsed.mk ⟨statements, span⟩ #[]) derived.span.symm

/-- A script that is parsed without a problem is derived, and is not too deep. -/
theorem derives_parse (noEnd : ∀ t ∈ ts, t.lexeme ≠ .endOfFile) (isEnd : stop.lexeme = .endOfFile)
    (noProblem : (Script.parse (ts ++ [stop])).findings = #[]) :
    (Script.parse (ts ++ [stop])).script.Derives stop ts ∧
      (Script.parse (ts ++ [stop])).script.Within maxDepth := by
  rw [(Script.parse_concat ts stop).2] at noProblem
  obtain ⟨statements, derived, shallow⟩ :=
    State.deriveAll_of_run isEnd { ahead := ts ++ [stop] } rfl noEnd rfl noProblem
  have isDerived : Script.Derives stop ts ⟨statements, spanOf stop ts⟩ := ⟨derived, rfl⟩
  rw [isDerived.parse shallow isEnd]
  exact ⟨isDerived, shallow⟩

/-- A script that is written out is parsed back, up to places. -/
theorem parse_of_lexemes (isEnd : stop.lexeme = .endOfFile) (shallow : script.Within maxDepth)
    (named : ∀ statement ∈ script.statements, statement.NamesExports)
    (written : ts.map (·.lexeme) = script.lexemes) :
    (Script.parse (ts ++ [stop])).findings = #[] ∧
      (Script.parse (ts ++ [stop])).script.unplaced = script.unplaced := by
  obtain ⟨statements, derived, same⟩ := Statement.exists_deriveAll named ts written
  have isDerived : Script.Derives stop ts ⟨statements, spanOf stop ts⟩ := ⟨derived, rfl⟩
  rw [isDerived.parse (Statement.depth_le_of_unplaced same shallow) isEnd]
  exact ⟨rfl, congrArg (Script.mk · default) same⟩

/-- Parsing accepts the grammar. No problem is found in a stream exactly when a script of limited
depth is derived from it; that script is then the only one that is derived from it, and the one that
is found. Every script of limited depth whose export statements name something is found again, up to
places, in any tokens that it is written with. -/
theorem parse_accepts_grammar (noEnd : ∀ t ∈ ts, t.lexeme ≠ .endOfFile)
    (isEnd : stop.lexeme = .endOfFile) :
    ((Script.parse (ts ++ [stop])).findings = #[] ↔
        ∃ script : Script, script.Derives stop ts ∧ script.Within maxDepth) ∧
      ((Script.parse (ts ++ [stop])).findings = #[] →
        (Script.parse (ts ++ [stop])).script.Derives stop ts ∧
        ∀ other : Script, other.Derives stop ts → other = (Script.parse (ts ++ [stop])).script) ∧
      ∀ (script : Script) (written : List Token), script.Within maxDepth →
        (∀ statement ∈ script.statements, statement.NamesExports) →
        written.map (·.lexeme) = script.lexemes →
        (Script.parse (written ++ [stop])).findings = #[] ∧
          (Script.parse (written ++ [stop])).script.unplaced = script.unplaced := by
  refine ⟨⟨fun noProblem => ⟨_, derives_parse noEnd isEnd noProblem⟩, ?_⟩, ?_, ?_⟩
  · rintro ⟨script, derived, shallow⟩
    rw [derived.parse shallow isEnd]
  · intro noProblem
    have derived := (derives_parse noEnd isEnd noProblem).1
    exact ⟨derived, fun other derived' => derived'.unique derived⟩
  · intro script written shallow named
    exact parse_of_lexemes isEnd shallow named

/-- A binding to a call, with the least number among its arguments. -/
def leastNumber : Script :=
  ⟨[.bind ⟨"a", default⟩ (.call ⟨"f", default⟩
    [.number (-2147483648) default, .name "b" default] default) default], default⟩

/-- The tokens of the binding. -/
def leastNumberTokens : List Token :=
  [⟨.name "a", .point 1 1⟩, ⟨.equals, .point 1 3⟩, ⟨.name "f", .point 1 5⟩,
    ⟨.leftParen, .point 1 6⟩, ⟨.minus, .point 1 7⟩, ⟨.number 2147483648, .point 1 8⟩,
    ⟨.comma, .point 1 18⟩, ⟨.name "b", .point 1 20⟩, ⟨.rightParen, .point 1 21⟩,
    ⟨.semicolon, .point 1 22⟩]

/-- The least number is read with its sign. -/
theorem parse_accepts_grammar_leastNumber :
    (∀ t ∈ leastNumberTokens, t.lexeme ≠ .endOfFile) ∧
      (Script.parse (leastNumberTokens ++ [⟨.endOfFile, .point 1 23⟩])).findings = #[] ∧
      (Script.parse (leastNumberTokens ++ [⟨.endOfFile, .point 1 23⟩])).script.unplaced =
        leastNumber.unplaced := by
  have shallow : leastNumber.Within maxDepth := by
    simp [Within, leastNumber, Statement.depth, Expr.depth, Expr.depths, maxDepth]
  have named : ∀ statement ∈ leastNumber.statements, statement.NamesExports := by
    simp [leastNumber, Statement.NamesExports]
  have noEnd : ∀ t ∈ leastNumberTokens, t.lexeme ≠ .endOfFile := by
    decide
  exact ⟨noEnd, (parse_accepts_grammar noEnd rfl).2.2 leastNumber leastNumberTokens shallow named
    (by decide)⟩

/-- A script that exports nothing, in an export statement. -/
def emptyExport : Script :=
  ⟨[.exports [] (.point 1 1)], .point 1 1⟩

/-- An export statement without names is not found in any stream without problems. -/
theorem emptyExport_not_parsed :
    emptyExport.Within maxDepth ∧ ∀ (ts : List Token) (stop : Token),
      (∀ t ∈ ts, t.lexeme ≠ .endOfFile) → stop.lexeme = .endOfFile →
      ¬((Script.parse (ts ++ [stop])).findings = #[] ∧
        (Script.parse (ts ++ [stop])).script.unplaced = emptyExport.unplaced) := by
  refine ⟨by simp [Within, emptyExport, Statement.depth], ?_⟩
  rintro ts stop noEnd isEnd ⟨noProblem, same⟩
  obtain ⟨⟨derived, -⟩, -⟩ := derives_parse noEnd isEnd noProblem
  obtain ⟨statement, only, unplaced⟩ :=
    List.map_eq_singleton_iff.mp (congrArg Script.statements same)
  rw [only] at derived
  cases derived with
  | cons first _ =>
    have named := Statement.namesExports_unplaced.mpr first.namesExports
    rw [unplaced] at named
    exact named rfl

end Script

end TextureScript
