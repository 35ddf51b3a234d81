import TextureScript.Proofs.Script.Recognition
import TextureScript.Proofs.Source.Positions

/-!
# Trees lie within their tokens

In a stream whose tokens stand one behind the other, joining the spans of two tokens gives the span
from the beginning of the first to the end of the second. So what is derived from some tokens spans
these tokens, from the first to the last, and its parts, which are derived from some of them, lie
within it. The statements that parsing finds are derived from blocks of the stream, each behind the
one before, whatever is skipped between them; so their spans do not touch and are in order.
-/

namespace TextureScript

open TextureScript.Parser TextureScript.Parser.Reader

/-! ## Spans in order -/

namespace Span

/-- A span lies within another. -/
structure Encloses (outer inner : Span) : Prop where
  /-- It does not begin earlier. -/
  start : outer.start.le inner.start
  /-- It does not end later. -/
  stop : inner.stop.le outer.stop

/-- A span ends before another begins. -/
structure Precedes (first second : Span) : Prop where
  /-- The end is not after the beginning. -/
  ordered : first.stop.le second.start
  /-- They have no position in common. -/
  apart : first.stop ≠ second.start

end Span

/-- Tokens that stand one behind the other. -/
structure Token.Ordered (ts : List Token) : Prop where
  /-- A token begins before it ends. -/
  each : ∀ t ∈ ts, t.span.start.le t.span.stop
  /-- A token ends before the later ones begin. -/
  between : ts.Pairwise fun t later => t.span.Precedes later.span

/-- A span goes from the first of some tokens to the last. -/
structure Span.Hull (ts : List Token) (span : Span) : Prop where
  /-- It begins with the first token. -/
  start : ∃ t ∈ ts.head?, span.start = t.span.start
  /-- It ends with the last token. -/
  stop : ∃ t ∈ ts.getLast?, span.stop = t.span.stop

namespace Token.Ordered

variable {ts used : List Token}

theorem of_sublist (ordered : Ordered ts) (inside : used.Sublist ts) : Ordered used :=
  ⟨fun t member => ordered.each t (inside.subset member), ordered.between.sublist inside⟩

/-- The first token begins before all others, and the last one ends behind them. -/
theorem bounds (ordered : Ordered ts) {first last t : Token} (isFirst : first ∈ ts.head?)
    (isLast : last ∈ ts.getLast?) (member : t ∈ ts) :
    first.span.start.le t.span.start ∧ t.span.stop.le last.span.stop := by
  constructor
  · obtain ⟨others, rfl⟩ := List.head?_eq_some_iff.mp isFirst
    rcases List.mem_cons.mp member with rfl | later
    · exact Position.le_refl _
    · exact Position.le_trans (ordered.each _ List.mem_cons_self)
        ((List.pairwise_cons.mp ordered.between).1 t later).ordered
  · obtain ⟨others, rfl⟩ := List.getLast?_eq_some_iff.mp isLast
    rcases List.mem_append.mp member with earlier | isLast
    · have before := (List.pairwise_append.mp ordered.between).2.2 t earlier last (by simp)
      exact Position.le_trans before.ordered (ordered.each last (by simp))
    · rw [List.mem_singleton.mp isLast]
      exact Position.le_refl _

/-- The joined spans of the first and the last token go from one to the other. -/
theorem hull_merge (ordered : Ordered ts) {first last : Token} (isFirst : first ∈ ts.head?)
    (isLast : last ∈ ts.getLast?) : Span.Hull ts (first.span.merge last.span) := by
  have starts := (ordered.bounds isFirst isLast (List.mem_of_getLast? isLast)).1
  have stops := (ordered.bounds isFirst isLast (List.mem_of_head? isFirst)).2
  exact ⟨⟨first, isFirst, if_pos starts⟩, ⟨last, isLast, if_pos stops⟩⟩

/-- What goes over some of the tokens lies within what goes over all of them. -/
theorem encloses (ordered : Ordered ts) {outer inner : Span} (hull : outer.Hull ts)
    (some : inner.Hull used) (inside : used.Sublist ts) : outer.Encloses inner := by
  obtain ⟨⟨first, isFirst, start⟩, ⟨last, isLast, stop⟩⟩ := hull
  obtain ⟨⟨first', isFirst', start'⟩, ⟨last', isLast', stop'⟩⟩ := some
  constructor
  · rw [start, start']
    exact (ordered.bounds isFirst isLast (inside.subset (List.mem_of_head? isFirst'))).1
  · rw [stop, stop']
    exact (ordered.bounds isFirst isLast (inside.subset (List.mem_of_getLast? isLast'))).2

/-- A span of earlier tokens precedes a span of later ones. -/
theorem precedes {others : List Token} (ordered : Ordered (ts ++ others)) {first second : Span}
    (hull : first.Hull ts) (later : second.Hull others) : first.Precedes second := by
  obtain ⟨-, last, isLast, stop⟩ := hull
  obtain ⟨⟨next, isNext, start⟩, -⟩ := later
  have between := (List.pairwise_append.mp ordered.between).2.2 last (List.mem_of_getLast? isLast)
    next (List.mem_of_head? isNext)
  exact ⟨by rw [stop, start]; exact between.ordered, by rw [stop, start]; exact between.apart⟩

end Token.Ordered

/-! ## Trees in their tokens -/

/-- The parts of a value lie within it. -/
inductive Expr.Nested : Expr → Prop where
  | number {value : Int32} {span : Span} : Nested (.number value span)
  | name {text : String} {span : Span} : Nested (.name text span)
  | call {callee : Name} {args : List Expr} {span : Span} (called : span.Encloses callee.span)
      (inside : ∀ arg ∈ args, span.Encloses arg.span) (each : ∀ arg ∈ args, Nested arg) :
      Nested (.call callee args span)

/-- The parts of a statement lie within it. -/
inductive Statement.Nested : Statement → Prop where
  | bind {target : Name} {value : Expr} {span : Span} (named : span.Encloses target.span)
      (inside : span.Encloses value.span) (nested : value.Nested) : Nested (.bind target value span)
  | channel {material channel materialType : Name} {value : Expr} {span : Span}
      (ofMaterial : span.Encloses material.span) (named : span.Encloses channel.span)
      (typed : span.Encloses materialType.span) (inside : span.Encloses value.span)
      (nested : value.Nested) : Nested (.channel material channel materialType value span)
  | exports {names : List Name} {span : Span} (each : ∀ name ∈ names, span.Encloses name.span) :
      Nested (.exports names span)

theorem Name.hull_token (name : Name) : name.span.Hull [name.token] :=
  ⟨⟨name.token, rfl, rfl⟩, ⟨name.token, rfl, rfl⟩⟩

section

variable {ts : List Token}

/-- A value goes from its first token to its last. -/
theorem Expr.Derives.hull {value : Expr} (derived : value.Derives ts)
    (ordered : Token.Ordered ts) : value.span.Hull ts := by
  cases derived with
  | number | name => exact ⟨⟨_, rfl, rfl⟩, ⟨_, rfl, rfl⟩⟩
  | negative | plain => exact ordered.hull_merge rfl rfl
  | @call callee left right inner args arguments =>
    exact @Token.Ordered.hull_merge _ ordered callee.token ⟨.rightParen, right⟩ rfl
      List.getLast?_concat

/-- The parts of a value lie within it, as their tokens are among those of the value. -/
theorem Expr.Derives.nested {value : Expr} (derived : value.Derives ts)
    (ordered : Token.Ordered ts) : value.Nested := by
  -- by induction on the number of tokens, as arguments have fewer
  induction counted : ts.length using Nat.strongRecOn generalizing ts value with
  | ind size ih =>
    have hull := derived.hull ordered
    cases derived with
    | number | negative => exact .number
    | name => exact .name
    | @plain callee left right =>
      exact .call (ordered.encloses hull callee.hull_token (by simp)) nofun nofun
    | @call callee left right inner args arguments =>
      have inside : inner.Sublist
          (callee.token :: ⟨.leftParen, left⟩ :: inner ++ [⟨.rightParen, right⟩]) :=
        List.IsInfix.sublist ⟨[_, _], [_], rfl⟩
      have argument : ∀ arg ∈ args, ∃ used, used.Sublist inner ∧ arg.Derives used :=
        arguments.exists_of_mem
      refine .call (ordered.encloses hull callee.hull_token (by simp)) ?_ ?_
      · intro arg member
        obtain ⟨used, among, derived⟩ := argument arg member
        have within := among.trans inside
        exact ordered.encloses hull (derived.hull (ordered.of_sublist within)) within
      · intro arg member
        obtain ⟨used, among, derived⟩ := argument arg member
        refine ih used.length ?_ derived (ordered.of_sublist (among.trans inside)) rfl
        have fewer := among.length_le
        simp only [List.length_append, List.length_cons] at counted
        omega

/-- A statement goes from its first token to its semicolon. -/
theorem Statement.Derives.hull {statement : Statement} (derived : statement.Derives ts)
    (ordered : Token.Ordered ts) : statement.span.Hull ts := by
  cases derived with
  | @bind target equals last =>
    exact @Token.Ordered.hull_merge _ ordered target.token ⟨.semicolon, last⟩ rfl
      List.getLast?_concat
  | @channel _ _ _ left _ _ _ _ last =>
    exact @Token.Ordered.hull_merge _ ordered ⟨.leftParen, left⟩ ⟨.semicolon, last⟩ rfl
      List.getLast?_concat
  | @exports word last =>
    exact @Token.Ordered.hull_merge _ ordered ⟨.exportWord, word⟩ ⟨.semicolon, last⟩ rfl
      List.getLast?_concat

theorem Statement.Derives.nested {statement : Statement} (derived : statement.Derives ts)
    (ordered : Token.Ordered ts) : statement.Nested := by
  have hull := derived.hull ordered
  have named : ∀ name : Name, name.token ∈ ts → statement.span.Encloses name.span :=
    fun name member =>
      ordered.encloses hull name.hull_token (List.singleton_sublist.mpr member)
  have valued : ∀ (value : Expr) (inner : List Token), value.Derives inner → inner <:+: ts →
      statement.span.Encloses value.span ∧ value.Nested := by
    intro value inner derived inside
    have ordered' := ordered.of_sublist inside.sublist
    exact ⟨ordered.encloses hull (derived.hull ordered') inside.sublist, derived.nested ordered'⟩
  cases derived with
  | @bind target equals last inner value derived =>
    obtain ⟨inside, nested⟩ := valued value inner derived ⟨[_, _], [_], rfl⟩
    exact .bind (named target (by simp)) inside nested
  | @channel material channel materialType _ _ _ _ _ _ inner value derived =>
    obtain ⟨inside, nested⟩ := valued value inner derived ⟨[_, _, _, _, _, _, _, _], [_], rfl⟩
    exact .channel (named material (by simp)) (named channel (by simp))
      (named materialType (by simp)) inside nested
  | exports derived =>
    refine .exports fun name member => named name ?_
    obtain ⟨used, among, isName⟩ := derived.exists_of_mem name member
    rw [isName] at among
    exact List.mem_cons_of_mem _ (List.mem_append_left _ (List.singleton_sublist.mp among))

end

/-! ## Blocks of a stream -/

/-- Statements that are derived from blocks of a stream, one behind the other. -/
inductive Statement.Blocks : List Token → List Statement → Prop where
  /-- No statement, whatever is left of the stream. -/
  | nil {ts : List Token} : Blocks ts []
  /-- A statement behind some tokens that are skipped, and others behind it. -/
  | cons {skipped block rest : List Token} {statement : Statement} {statements : List Statement}
      (derived : statement.Derives block) (shallow : statement.depth ≤ maxDepth)
      (later : Blocks rest statements) :
      Blocks (skipped ++ (block ++ rest)) (statement :: statements)

namespace Statement.Blocks

variable {ts : List Token} {statements : List Statement}

theorem skip (blocks : Blocks ts statements) (skipped : List Token) :
    Blocks (skipped ++ ts) statements := by
  cases blocks with
  | nil => exact .nil
  | cons derived shallow later =>
    rw [← List.append_assoc]
    exact .cons derived shallow later

/-- A statement is derived from a block of the stream. -/
theorem exists_of_mem (blocks : Blocks ts statements) {statement : Statement}
    (member : statement ∈ statements) : ∃ before block after, ts = before ++ block ++ after ∧
      statement.Derives block ∧ statement.depth ≤ maxDepth := by
  induction blocks with
  | nil => cases member
  | @cons skipped block rest _ _ derived shallow later ih =>
    rcases List.mem_cons.mp member with rfl | later
    · exact ⟨skipped, block, rest, by simp, derived, shallow⟩
    · obtain ⟨before, block', after, rfl, found⟩ := ih later
      exact ⟨skipped ++ block ++ before, block', after, by simp, found⟩

/-- Statements of a stream do not overlap and are in order. -/
theorem pairwise (blocks : Blocks ts statements) (ordered : Token.Ordered ts) :
    statements.Pairwise fun statement later => statement.span.Precedes later.span := by
  induction blocks with
  | nil => exact .nil
  | @cons skipped block rest statement _ derived _ later ih =>
    have here := ordered.of_sublist (List.sublist_append_right skipped (block ++ rest))
    refine .cons (fun other member => ?_)
      (ih (here.of_sublist (List.sublist_append_right block rest)))
    obtain ⟨before, block', after, rfl, derived', -⟩ := later.exists_of_mem member
    have inside : (block ++ block').Sublist (block ++ (before ++ block' ++ after)) := by
      simp
    have both := here.of_sublist inside
    exact both.precedes (derived.hull (both.of_sublist (List.sublist_append_left _ _)))
      (derived'.hull (both.of_sublist (List.sublist_append_right _ _)))

end Statement.Blocks

/-- A step finds a statement in a block of the tokens ahead, or skips some of them. -/
theorem Parser.State.blocks_step (stop : Token) (state : State) {later : List Statement}
    (blocks : Statement.Blocks (state.step stop).ahead later) :
    ∃ found, (state.step stop).statements.toList = state.statements.toList ++ found ∧
      Statement.Blocks state.ahead (found ++ later) := by
  rcases outcome : statement.outcome stop state.ahead with ⟨problem | found, rest⟩
  · rw [State.step_of_error outcome] at blocks ⊢
    have suffix : rest <:+ state.ahead := by
      rw [← (Prod.mk.inj outcome).2]
      exact (statement stop state.ahead).suffix
    obtain ⟨skipped, whole⟩ := (recover_suffix rest).trans suffix
    refine ⟨[], by simp [State.record], ?_⟩
    rw [← whole]
    exact blocks.skip skipped
  · rw [State.step_of_ok outcome] at blocks ⊢
    obtain ⟨block, whole, derived, shallow⟩ := (statement_recognizes maxDepth).sound outcome
    refine ⟨[found], by simp [State.record], ?_⟩
    rw [whole]
    exact @Statement.Blocks.cons [] _ _ _ _ derived shallow blocks

/-- Parsing finds statements in blocks of the tokens ahead. -/
theorem Parser.State.blocks_run (stop : Token) (state : State) :
    ∃ found, (state.run stop).statements.toList = state.statements.toList ++ found ∧
      Statement.Blocks state.ahead found := by
  fun_induction State.run stop state with
  | case1 state => exact ⟨[], by simp, .nil⟩
  | case2 state _ ih =>
    obtain ⟨later, all, blocks⟩ := ih
    obtain ⟨found, here, blocks⟩ := state.blocks_step stop blocks
    exact ⟨found ++ later, by rw [all, here, List.append_assoc], blocks⟩

theorem Script.blocks_parse (ts : List Token) :
    Statement.Blocks ts (Script.parse ts).script.statements := by
  obtain ⟨found, all, blocks⟩ := State.blocks_run (ts.getLast?.getD ⟨.endOfFile, .point 1 1⟩)
    { ahead := ts }
  rw [Array.toList_empty, List.nil_append] at all
  rw [Script.parse, all]
  exact blocks

end TextureScript
