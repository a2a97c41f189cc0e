import Snippet.Json.Basic

/-!
# Checking values

What can be wrong with a value that is to become a record, and how complaints are collected. The
fields of a record are all read, in the order in which they are declared, and every complaint is
kept with the path to the value it is about. A condition on a whole record is only looked at when
all of its fields are in order.
-/

namespace Snippet

namespace Schema

/-- What is wrong with a value. -/
inductive Issue where
  | missing
  | notString
  | tooShort (least : Nat)
  | tooLong (most : Nat)
  /-- The value is none of the tags of an enumeration. -/
  | notMember (tags : List String)
  /-- The value is none of some fixed words. -/
  | notWord (words : List String)
  /-- The value cannot become the record of this name. -/
  | notRecord (name : String)
  /-- The value is no object that the fields of a record could be taken from. -/
  | noFields
  | notObject
  | notInteger
  | unreadableInteger
  | integerTooLong
  | fractional
  | notFinite
  | unreadableNumber
  | unreadableBoolean
  | notAbove (bound : Int)
  | below (bound : Int)
  | above (bound : Int)
  /-- A condition on the value does not hold. -/
  | violates (condition : String)
  /-- The text is no JSON. -/
  | notJson
  deriving DecidableEq

/-- Words in single quotes, separated by commas, with an `or` before the last one. -/
def alternatives (words : List String) : String :=
  match (words.map fun word => "'" ++ word ++ "'").reverse with
  | [] => ""
  | [word] => word
  | last :: others => ", ".intercalate others.reverse ++ " or " ++ last

namespace Issue

/-- The code of an issue. -/
def code : Issue → String
  | missing => "missing"
  | notString => "string_type"
  | tooShort _ => "string_too_short"
  | tooLong _ => "string_too_long"
  | notMember _ => "enum"
  | notWord _ => "literal_error"
  | notRecord _ => "model_type"
  | noFields => "model_attributes_type"
  | notObject => "dict_type"
  | notInteger => "int_type"
  | unreadableInteger => "int_parsing"
  | integerTooLong => "int_parsing_size"
  | fractional => "int_from_float"
  | notFinite => "finite_number"
  | unreadableNumber => "float_parsing"
  | unreadableBoolean => "bool_parsing"
  | notAbove _ => "greater_than"
  | below _ => "greater_than_equal"
  | above _ => "less_than_equal"
  | violates _ => "value_error"
  | notJson => "json_invalid"

/-- The wording of an issue. -/
def message : Issue → String
  | missing => "Field required"
  | notString => "Input should be a valid string"
  | tooShort least =>
    "String should have at least " ++ toString least ++
      (if least = 1 then " character" else " characters")
  | tooLong most =>
    "String should have at most " ++ toString most ++
      (if most = 1 then " character" else " characters")
  | notMember tags => "Input should be " ++ alternatives tags
  | notWord words => "Input should be " ++ alternatives words
  | notRecord name => "Input should be a valid dictionary or instance of " ++ name
  | noFields => "Input should be a valid dictionary or object to extract fields from"
  | notObject => "Input should be a valid dictionary"
  | notInteger => "Input should be a valid integer"
  | unreadableInteger =>
    "Input should be a valid integer, unable to parse string as an integer"
  | integerTooLong => "Unable to parse input string as an integer, exceeded maximum size"
  | fractional => "Input should be a valid integer, got a number with a fractional part"
  | notFinite => "Input should be a finite number"
  | unreadableNumber => "Input should be a valid number, unable to parse string as a number"
  | unreadableBoolean => "Input should be a valid boolean, unable to interpret input"
  | notAbove bound => "Input should be greater than " ++ toString bound
  | below bound => "Input should be greater than or equal to " ++ toString bound
  | above bound => "Input should be less than or equal to " ++ toString bound
  | violates condition => "Value error, " ++ condition
  | notJson => "JSON decode error"

end Issue

/-- An issue, with the path to the value that it is about. -/
structure Fault where
  path : List String
  issue : Issue
  deriving DecidableEq

/-- A fault as it is reported. -/
def Fault.toJson (fault : Fault) : Json :=
  .obj [("loc", .arr (fault.path.map .str)), ("type", .str fault.issue.code),
    ("msg", .str fault.issue.message)]

/-- A value that has been checked: it is valid, or there are faults. -/
inductive Checked (α : Type) where
  | valid (value : α)
  | faulty (faults : List Fault)

namespace Checked

variable {α β : Type}

/-- A single issue with the whole value. -/
def issue (issue : Issue) : Checked α := faulty [⟨[], issue⟩]

/-- The result of a function of a checked value. -/
def map (f : α → β) : Checked α → Checked β
  | valid value => valid (f value)
  | faulty faults => faulty faults

/-- A checked function applied to a checked value; the faults of both are kept. -/
def apply (f : Checked (α → β)) (x : Checked α) : Checked β :=
  match f, x with
  | valid f, valid value => valid (f value)
  | valid _, faulty faults => faulty faults
  | faulty faults, valid _ => faulty faults
  | faulty faults, faulty more => faulty (faults ++ more)

instance : Functor Checked := ⟨map, fun value => map fun _ => value⟩

instance : Applicative Checked where
  pure := valid
  seq f x := apply f (x ())

/-- A further check, which is made if there are no faults so far. -/
def andThen (x : Checked α) (check : α → Checked β) : Checked β :=
  match x with
  | valid value => check value
  | faulty faults => faulty faults

/-- The faults of a value that is found under a key. -/
def under (key : String) : Checked α → Checked α
  | valid value => valid value
  | faulty faults => faulty (faults.map fun fault => { fault with path := key :: fault.path })

/-- The valid value, if it is valid. -/
def toOption : Checked α → Option α
  | valid value => some value
  | faulty _ => none

end Checked

/-! ### Fields -/

/-- How a value of some type is read. -/
abbrev Reader (α : Type) := Json → Checked α

variable {α : Type}

/-- A field that has to be there. -/
def required (key : String) (reader : Reader α) (members : List (String × Json)) : Checked α :=
  match Json.lookup? key members with
  | some value => (reader value).under key
  | none => (Checked.issue .missing).under key

/-- A field with a default. -/
def defaulted (key : String) (default : α) (reader : Reader α) (members : List (String × Json)) :
    Checked α :=
  match Json.lookup? key members with
  | some value => (reader value).under key
  | none => .valid default

/-- A field that may be absent or `null`. -/
def optional (key : String) (reader : Reader α) (members : List (String × Json)) :
    Checked (Option α) :=
  match Json.lookup? key members with
  | none | some .null => .valid none
  | some value => ((reader value).map some).under key

end Schema

end Snippet
