import ReportTemplate.Entries

/-! Values of report data.
Numbers are binary64; mappings keep their keys in insertion order, which equality ignores.
-/

namespace ReportTemplate

/-- A value of report data. -/
inductive Value where
  | null
  | bool (flag : Bool)
  | number (n : Float)
  | string (text : String)
  | list (items : List Value)
  | map (entries : List (String × Value))
  deriving Inhabited

namespace Value

/-- The name of a value's kind in messages. -/
def kind : Value → String
  | .null => "null"
  | .bool _ => "bool"
  | .number _ => "number"
  | .string _ => "string"
  | .list _ => "list"
  | .map _ => "map"

/-- Holds for `null`. -/
def isNull : Value → Bool
  | .null => true
  | _ => false

/-- The truth of a value as a condition: false for `null`, `false`, zero, NaN and all empty
texts, lists and mappings.
-/
def truthy : Value → Bool
  | .null => false
  | .bool flag => flag
  | .number n => n != 0 && !n.isNaN
  | .string text => !text.isEmpty
  | .list items => !items.isEmpty
  | .map entries => !entries.isEmpty

/-- Gives the value under a key of a mapping; nothing for values of other kinds. -/
def get? : Value → String → Option Value
  | .map entries, key => Entries.lookup entries key
  | _, _ => none

/-- Walks from a value along keys, one mapping after the other. -/
def follow : Value → List String → Option Value
  | value, [] => some value
  | value, key :: rest => (value.get? key).bind fun inner => inner.follow rest

mutual

/-- Compares two values of one kind: numbers as numbers, lists in order, and mappings as
sets of keyed values.
-/
def beq : Value → Value → Bool
  | .null, .null => true
  | .bool a, .bool b => a == b
  | .number a, .number b => a == b
  | .string a, .string b => a == b
  | .list as, .list bs => beqItems as bs
  | .map as, .map bs => as.length == bs.length && beqEntries as bs
  | _, _ => false

/-- Compares two lists of values element by element. -/
def beqItems : List Value → List Value → Bool
  | [], [] => true
  | a :: as, b :: bs => beq a b && beqItems as bs
  | _, _ => false

/-- Holds when every left entry has an equal value under its key on the right. -/
def beqEntries : List (String × Value) → List (String × Value) → Bool
  | [], _ => true
  | (key, a) :: rest, bs =>
      (match Entries.lookup bs key with
        | some b => beq a b
        | none => false)
        && beqEntries rest bs

end

instance : BEq Value := ⟨beq⟩

/-- A mapping's keyed value, by unfolding. -/
@[simp]
theorem get?_map (entries : Entries Value) (key : String)
    : (Value.map entries).get? key = Entries.lookup entries key :=
  rfl

end Value

end ReportTemplate
