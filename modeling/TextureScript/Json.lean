/-!
# JSON documents

The documents that tools exchange with the compiler. A number is kept apart by whether it is written
as a whole number, because only whole numbers are ever read. Documents are printed with an
indentation of two spaces.
-/

namespace TextureScript

/-- A JSON document. -/
inductive Json where
  | null
  | bool (value : Bool)
  /-- A number that is written as a whole number. -/
  | integer (value : Int)
  /-- Any other number: a whole number of tenths, hundredths and so on. -/
  | fraction (mantissa : Int) (decimals : Nat)
  | string (value : String)
  | array (items : List Json)
  | object (fields : List (String × Json))
deriving Repr, Inhabited

namespace Json

/-- A character as it stands in a string. -/
def escapeChar (c : Char) : List Char :=
  match c with
  | '"' => ['\\', '"']
  | '\\' => ['\\', '\\']
  | '\n' => ['\\', 'n']
  | '\r' => ['\\', 'r']
  | '\t' => ['\\', 't']
  | '\x08' => ['\\', 'b']
  | '\x0c' => ['\\', 'f']
  | c =>
    if c.toNat < 32 then
      ['\\', 'u', '0', '0', Nat.digitChar (c.toNat / 16), Nat.digitChar (c.toNat % 16)]
    else [c]

/-- A string in quotes. -/
def quote (s : String) : String :=
  String.ofList ('"' :: s.toList.flatMap escapeChar ++ ['"'])

/-- A number of tenths, hundredths and so on, in decimal digits. -/
def renderFraction (mantissa : Int) (decimals : Nat) : String :=
  let digits := (Nat.toDigits 10 mantissa.natAbs).reverse
  let padded := digits ++ List.replicate (decimals + 1 - digits.length) '0'
  let text := (padded.drop decimals).reverse ++ '.' :: (padded.take decimals).reverse
  (if mantissa < 0 then "-" else "") ++ String.ofList text

/-- Some lines between two brackets, indented by one step more than the brackets. -/
def bracket (indent : String) (opening closing : String) (lines : List String) : String :=
  if lines.isEmpty then opening ++ closing
  else
    let inner := indent ++ "  "
    let body := String.intercalate ",\n" (lines.map (inner ++ ·))
    opening ++ "\n" ++ body ++ "\n" ++ indent ++ closing

mutual

/-- A document with its lines after the first indented. -/
def prettyFrom (indent : String) : Json → String
  | null => "null"
  | bool value => if value then "true" else "false"
  | integer value => toString value
  | fraction mantissa decimals => renderFraction mantissa decimals
  | string value => quote value
  | array items => bracket indent "[" "]" (prettyItems (indent ++ "  ") items)
  | object fields => bracket indent "\x7b" "\x7d" (prettyFields (indent ++ "  ") fields)

/-- The items of an array, one by one. -/
def prettyItems (indent : String) : List Json → List String
  | [] => []
  | item :: items => prettyFrom indent item :: prettyItems indent items

/-- The fields of an object, one by one. -/
def prettyFields (indent : String) : List (String × Json) → List String
  | [] => []
  | (name, value) :: fields =>
    (quote name ++ ": " ++ prettyFrom indent value) :: prettyFields indent fields

end

/-- A document printed over several lines. -/
def pretty (document : Json) : String :=
  prettyFrom "" document

/-- A natural number below a bound. -/
def nat? (bound : Nat) : Json → Option Nat
  | integer value => if 0 ≤ value ∧ value < bound then some value.toNat else none
  | _ => none

/-- A byte. -/
def uint8? (document : Json) : Option UInt8 :=
  (document.nat? UInt8.size).map UInt8.ofNat

/-- An unsigned 16-bit number. -/
def uint16? (document : Json) : Option UInt16 :=
  (document.nat? UInt16.size).map UInt16.ofNat

/-- An unsigned 32-bit number. -/
def uint32? (document : Json) : Option UInt32 :=
  (document.nat? UInt32.size).map UInt32.ofNat

/-- A count, which takes at most 64 bits. -/
def count? (document : Json) : Option Nat :=
  document.nat? UInt64.size

/-- A text. -/
def string? : Json → Option String
  | string value => some value
  | _ => none

/-- A truth value. -/
def bool? : Json → Option Bool
  | bool value => some value
  | _ => none

/-- A list of what a reader reads. -/
def list? {α : Type} (read : Json → Option α) : Json → Option (List α)
  | array items => items.mapM read
  | _ => none

/-- One of several named variants: its name, or an object with its name and nothing. -/
def variant? {α : Type} (variants : List (String × α)) : Json → Option α
  | string name => variants.lookup name
  | object [(name, null)] => variants.lookup name
  | _ => none

/-- The fields of a record by their names. A record is an object, or an array of its fields in
order, of which at least `required` have to be there. -/
def record? (names : List String) (required : Nat) : Json → Option (List (Option Json))
  | object fields => some (names.map fun name => fields.lookup name)
  | array items =>
    if required ≤ items.length ∧ items.length ≤ names.length then
      some (items.map some ++ List.replicate (names.length - items.length) none)
    else none
  | _ => none

/-- A field that may be missing or nothing. -/
def optional? {α : Type} (read : Json → Option α) : Option Json → Option (Option α)
  | none => some none
  | some null => some none
  | some document => (read document).map some

/-- A field that has a value of its own when it is missing. -/
def defaulted? {α : Type} (read : Json → Option α) (default : α) : Option Json → Option α
  | none => some default
  | some document => read document

end Json

end TextureScript
