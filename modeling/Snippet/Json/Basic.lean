import Snippet.Decimal.Shortest
import Snippet.Text.Quoted

/-!
# JSON values

Whole numbers and floating-point numbers are kept apart, and an object keeps the order in which its
keys first came. `Json.shown` is the form in which a message quotes a value.
-/

namespace Snippet

/-- A JSON value. -/
inductive Json where
  | null
  | bool (value : Bool)
  | int (value : Int)
  | real (value : Float)
  | str (value : String)
  | arr (items : List Json)
  | obj (members : List (String × Json))
  deriving Inhabited

namespace Json

/-- The value under a key, the last one if the key comes more than once. -/
def lookup? (key : String) (members : List (String × Json)) : Option Json :=
  (members.reverse.find? (·.1 == key)).map (·.2)

/-- The value that an object has under a key. -/
def get? (json : Json) (key : String) : Option Json :=
  match json with
  | obj members => lookup? key members
  | _ => none

/-- Members with one more value: under a key that is there already it takes the old one's place. -/
def insert (key : String) (value : Json) : List (String × Json) → List (String × Json)
  | [] => [(key, value)]
  | (k, v) :: more => if k = key then (key, value) :: more else (k, v) :: insert key value more

/-- Whether a value counts as true: all do but `null`, `false`, zero and what is empty. -/
def isTruthy : Json → Bool
  | null => false
  | bool value => value
  | int value => value != 0
  | real value => !(value == 0.0)
  | str value => !value.isEmpty
  | arr items => !items.isEmpty
  | obj members => !members.isEmpty

/-- An optional value, `null` if there is none. -/
def ofOption {α : Type} (encode : α → Json) : Option α → Json
  | none => null
  | some value => encode value

/-- A text as a JSON value. -/
def ofText (text : Text) : Json := str (String.ofList text)

/-- A whole number as a JSON value. -/
def ofNat (n : Nat) : Json := int n

mutual

/-- A value as a message shows it. -/
def shown : Json → Text
  | null => "None".toList
  | bool true => "True".toList
  | bool false => "False".toList
  | int value => (toString value).toList
  | real value => (Decimal.text value).toList
  | str value => Text.quote value.toList
  | arr items => '[' :: Text.join ", ".toList (shownItems items) ++ [']']
  | obj members => '{' :: Text.join ", ".toList (shownMembers members) ++ ['}']

/-- Several values as a message shows them. -/
def shownItems : List Json → List Text
  | [] => []
  | item :: more => shown item :: shownItems more

/-- The members of an object as a message shows them. -/
def shownMembers : List (String × Json) → List Text
  | [] => []
  | (key, value) :: more =>
    (Text.quote key.toList ++ ": ".toList ++ shown value) :: shownMembers more

end

end Json

end Snippet
