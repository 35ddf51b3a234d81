import Std.Data.TreeMap
import TextureScript.Handle
import TextureScript.Operation
import TextureScript.Source.Span

/-!
# Scopes

A script has one flat scope. A name is an input image or a binding, and gets its meaning once. A
binding whose value could not be resolved still takes its name, so that its uses are not reported
again.
-/

namespace TextureScript

/-- What a name stands for. -/
inductive Symbol where
  /-- An input image. -/
  | input (handle : Handle)
  /-- The binding with the given place in the plan. -/
  | bound (index : UInt32) (kind : Kind)
  /-- A binding without a usable value. -/
  | poisoned
deriving DecidableEq, Repr, Inhabited

/-- The kind of value that a name stands for, if it stands for a usable one. -/
def Symbol.kind? : Symbol → Option Kind
  | input _ => some .image
  | bound _ kind => some kind
  | poisoned => none

/-- Why a name cannot be bound. -/
inductive Conflict where
  /-- The name belongs to an input image. -/
  | input
  /-- The name is already bound, at the given place. -/
  | binding (first : Span)
deriving DecidableEq, Repr, Inhabited

/-- The meaning of a name in a scope. -/
structure Scope.Entry where
  /-- What the name stands for. -/
  symbol : Symbol
  /-- Where it was bound; inputs are bound nowhere. -/
  span : Option Span
deriving DecidableEq, Repr, Inhabited

/-- The names of a script with their meanings. -/
structure Scope where
  /-- The entry of each name. -/
  entries : Std.TreeMap String Scope.Entry := {}

namespace Scope

/-- The scope in which the inputs are visible; of two inputs with one name the later counts. -/
def ofInputs (inputs : List InputImage) : Scope where
  entries := inputs.foldl (fun entries i => entries.insert i.name ⟨.input i.handle, none⟩) {}

/-- What a name stands for. -/
def lookup (scope : Scope) (name : String) : Option Symbol :=
  scope.entries[name]?.map (·.symbol)

/-- Bind a name that has no meaning yet. -/
def define (scope : Scope) (name : String) (symbol : Symbol) (span : Span) :
    Except Conflict Scope :=
  match scope.entries[name]? with
  | some ⟨_, none⟩ => .error .input
  | some ⟨_, some first⟩ => .error (.binding first)
  | none => .ok ⟨scope.entries.insert name ⟨symbol, some span⟩⟩

/-- The names with a meaning, in increasing order. -/
def names (scope : Scope) : List String :=
  scope.entries.keys

end Scope

end TextureScript
