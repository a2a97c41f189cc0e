import Snippet.Json.Basic
import Snippet.Text.Blank

/-!
# Snippet languages

The five languages that a snippet may be written in, each with its tag. A tag is read without regard
to letter case and surrounding blanks, and a few common short names stand for tags.
-/

namespace Snippet

/-- A language that snippets are written in. -/
inductive Language where
  | python
  | java
  | cpp
  | c
  | javascript
  deriving DecidableEq, Repr

namespace Language

/-- The languages, in the order in which they are listed. -/
def all : List Language := [python, java, cpp, c, javascript]

/-- The tag of a language. -/
def tag : Language → String
  | python => "python"
  | java => "java"
  | cpp => "cpp"
  | c => "c"
  | javascript => "javascript"

/-- The language of a tag, which has to be spelled exactly. -/
def ofTag? (tag : String) : Option Language :=
  all.find? (·.tag == tag)

/-- The short names, each with the tag it stands for. -/
def aliases : List (String × String) :=
  [("py", "python"), ("python3", "python"), ("c++", "cpp"), ("cxx", "cpp"),
    ("js", "javascript"), ("node", "javascript")]

/-- The language that a text names, by its tag or by a short name. -/
def ofText? (text : Text) : Option Language :=
  let key := String.ofList ((Text.trim text).map Char.toLower)
  ofTag? ((aliases.lookup key).getD key)

/-- A value that names no language. -/
structure Unsupported where
  /-- The value that was given. -/
  given : Json

/-- What is reported about a value that names no language. -/
def Unsupported.message (e : Unsupported) : String :=
  "Unsupported language: " ++ String.ofList e.given.shown

/-- The language that a value names. Only a string can name one. -/
def parse (value : Json) : Except Unsupported Language :=
  match value with
  | .str s =>
    match ofText? s.toList with
    | some language => .ok language
    | none => .error ⟨value⟩
  | _ => .error ⟨value⟩

/-- **A tag names its language.** -/
theorem ofText?_tag (language : Language) : ofText? language.tag.toList = some language := by
  cases language <;> decide

end Language

end Snippet
