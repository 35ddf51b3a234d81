import TextureScript.Script.Parser

/-!
# What readers come to

A reader is seen through its outcome: what it found, and the tokens that it left. Readers one after
the other come to what the last of them finds, or to the first problem. The readers of single tokens
and of lists of items are described once here, for what they accept and for all else.
-/

namespace TextureScript

namespace Parser

/-- What was found, and the tokens left over. -/
def Reading.outcome {α : Type} {given : List Token} (reading : Reading α given) :
    Except Finding α × List Token :=
  (reading.result, reading.rest)

namespace Reader

variable {α β : Type} {first : Reader α} {next : α → Reader β} {stop : Token}
  {ts rest : List Token} {problem : Finding} {value : α} {result : β}

/-- What a reader finds, and the tokens that it leaves. -/
def outcome (reader : Reader α) (stop : Token) (ts : List Token) : Except Finding α × List Token :=
  (reader stop ts).outcome

theorem outcome_pure : (pure value : Reader α).outcome stop ts = (.ok value, ts) :=
  rfl

theorem outcome_fail : (fail problem : Reader α).outcome stop ts = (.error problem, ts) :=
  rfl

/-- After a value the next reader goes on. -/
theorem outcome_bind_ok (found : first.outcome stop ts = (.ok value, rest)) :
    (first >>= next).outcome stop ts = (next value).outcome stop rest := by
  obtain ⟨ok, rfl⟩ := Prod.mk.inj found
  change (Reader.bind first next).outcome stop ts = _
  simp only [outcome, Reading.outcome, Reader.bind, ok]

/-- After a problem no other reader goes on. -/
theorem outcome_bind_error (found : first.outcome stop ts = (.error problem, rest)) :
    (first >>= next).outcome stop ts = (.error problem, rest) := by
  obtain ⟨failed, rfl⟩ := Prod.mk.inj found
  change (Reader.bind first next).outcome stop ts = _
  simp only [outcome, Reading.outcome, Reader.bind, failed]

/-- Readers one after the other find a value exactly when each of them finds one. -/
theorem outcome_bind_eq_ok :
    (first >>= next).outcome stop ts = (.ok result, rest) ↔
      ∃ value middle, first.outcome stop ts = (.ok value, middle) ∧
        (next value).outcome stop middle = (.ok result, rest) := by
  constructor
  · intro found
    rcases outcome : first.outcome stop ts with ⟨problem | value, middle⟩
    · rw [outcome_bind_error outcome] at found
      cases (Prod.mk.inj found).1
    · rw [outcome_bind_ok outcome] at found
      exact ⟨value, middle, rfl, found⟩
  · rintro ⟨value, middle, outcome, found⟩
    rw [outcome_bind_ok outcome, found]

end Reader

open Reader

variable {α : Type} {stop : Token} {ts rest : List Token}

theorem outcome_unexpected (expected : String) :
    (unexpected expected : Reader α).outcome stop ts =
      (.error (unexpectedFinding stop ts expected), ts) :=
  rfl

theorem outcome_choose (form : Lexeme → Lexeme → Reader α) :
    (choose form).outcome stop ts =
      (form (current stop ts).lexeme (following ts)).outcome stop ts :=
  rfl

/-! ## Single tokens -/

section Single

variable {expected : String} {meaning : Token → Option α}

/-- A token with a meaning is read. -/
theorem outcome_single_some {t : Token} {value : α} (meant : meaning t = some value) :
    (single expected meaning).outcome stop (t :: ts) = (.ok value, ts) := by
  simp only [outcome, Reading.outcome, single, meant]

/-- A token without a meaning is a problem, and is left. -/
theorem outcome_single_none (meant : ∀ t ∈ ts.head?, meaning t = none) :
    (single expected meaning).outcome stop ts =
      (.error (unexpectedFinding stop ts expected), ts) := by
  cases ts with
  | nil => rfl
  | cons t ts =>
    have none : meaning t = none := meant t rfl
    simp only [outcome, single, none]
    rfl

theorem outcome_single_eq_ok {value : α} :
    (single expected meaning).outcome stop ts = (.ok value, rest) ↔
      ∃ t, ts = t :: rest ∧ meaning t = some value := by
  constructor
  · intro found
    by_cases meant : ∀ t ∈ ts.head?, meaning t = none
    · rw [outcome_single_none meant] at found
      cases (Prod.mk.inj found).1
    · cases ts with
      | nil => simp at meant
      | cons t ts =>
        obtain ⟨other, meant⟩ :=
          Option.ne_none_iff_exists'.mp fun none => meant (by simpa using none)
        rw [outcome_single_some meant] at found
        obtain ⟨ok, rfl⟩ := Prod.mk.inj found
        cases ok
        exact ⟨t, rfl, meant⟩
  · rintro ⟨t, rfl, meant⟩
    exact outcome_single_some meant

end Single

theorem spanOf?_eq_some {lexeme : Lexeme} {t : Token} {span : Span} :
    spanOf? lexeme t = some span ↔ t = ⟨lexeme, span⟩ := by
  obtain ⟨other, place⟩ := t
  simp [spanOf?]

theorem name?_eq_some {t : Token} {name : Name} :
    name? t = some name ↔ t = ⟨.name name.text, name.span⟩ := by
  obtain ⟨lexeme, span⟩ := t
  obtain ⟨text, place⟩ := name
  cases lexeme <;> simp [name?]

theorem number?_eq_some {t : Token} {value : UInt32} {span : Span} :
    number? t = some (value, span) ↔ t = ⟨.number value, span⟩ := by
  obtain ⟨lexeme, place⟩ := t
  cases lexeme <;> simp [number?]

theorem outcome_expect_eq_ok {lexeme : Lexeme} {span : Span} :
    (expect lexeme).outcome stop ts = (.ok span, rest) ↔ ts = ⟨lexeme, span⟩ :: rest := by
  simp [expect, outcome_single_eq_ok, spanOf?_eq_some]

theorem outcome_expectName_eq_ok {name : Name} :
    expectName.outcome stop ts = (.ok name, rest) ↔ ts = ⟨.name name.text, name.span⟩ :: rest := by
  simp [expectName, outcome_single_eq_ok, name?_eq_some]

theorem outcome_magnitude_eq_ok {value : UInt32} {span : Span} :
    magnitude.outcome stop ts = (.ok (value, span), rest) ↔ ts = ⟨.number value, span⟩ :: rest := by
  simp [magnitude, outcome_single_eq_ok, number?_eq_some]

/-- A name that no parenthesis follows is not called. -/
theorem valueForm_name {argument : Reader Expr} {text : String} {after : Lexeme}
    (other : after ≠ .leftParen) : valueForm argument (.name text) after = reference := by
  cases after <;> first | rfl | exact absurd rfl other

/-! ## Items that are separated by commas -/

section Separated

variable {item : Reader α} {given : List Token} {done : Array α} {problem : Finding} {value : α}

/-- A problem of an item is a problem of the list. -/
theorem outcome_separatedFrom_error (within : ts <:+ given)
    (found : item.outcome stop ts = (.error problem, rest)) :
    (separatedFrom item stop given done ts within).outcome = (.error problem, rest) := by
  obtain ⟨failed, rfl⟩ := Prod.mk.inj found
  rw [separatedFrom]
  simp only [failed]
  rfl

/-- An item that no comma follows is the last one. -/
theorem outcome_separatedFrom_last (within : ts <:+ given)
    (found : item.outcome stop ts = (.ok value, rest))
    (last : ∀ t ∈ rest.head?, t.lexeme ≠ .comma) :
    (separatedFrom item stop given done ts within).outcome = (.ok (done.push value), rest) := by
  obtain ⟨ok, rfl⟩ := Prod.mk.inj found
  rw [separatedFrom]
  simp only [ok]
  split
  · rename_i span rest ahead
    exact absurd rfl (last ⟨.comma, span⟩ (by simp [ahead]))
  · rfl

/-- After an item and a comma, reading goes on with the next item. -/
theorem outcome_separatedFrom_more (done : Array α) {span : Span} {middle : List Token}
    (within : ts <:+ given)
    (found : item.outcome stop ts = (.ok value, ⟨.comma, span⟩ :: middle)) :
    ∃ later : middle <:+ given,
      (separatedFrom item stop given done ts within).outcome =
        (separatedFrom item stop given (done.push value) middle later).outcome := by
  obtain ⟨ok, left⟩ := Prod.mk.inj found
  have used : (⟨.comma, span⟩ :: middle) <:+ ts := left ▸ (item stop ts).suffix
  refine ⟨((List.suffix_cons _ middle).trans used).trans within, ?_⟩
  rw [separatedFrom]
  simp only [ok]
  split
  · rename_i place rest ahead
    rw [left] at ahead
    cases ahead
    rfl
  · rename_i noComma
    exact absurd left (noComma _ _)

end Separated

end Parser

end TextureScript
