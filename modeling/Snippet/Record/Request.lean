import Snippet.Record.Basic

/-!
# Requests as records

What a request to the playground holds: a snippet of limited length, its language, and possibly the
profile that advice is to go by.
-/

namespace Snippet

open Schema Record

/-- A snippet and its language, as they are requested. -/
structure CodeRequest where
  code : String
  language : Language

/-- A snippet, its language, and the profile that advice is to go by. -/
structure InsightsRequest where
  code : String
  language : Language
  profile : GrowthProfile

namespace CodeRequest

/-- The most characters that a requested snippet may have. -/
def codeLimit : Nat := 50000

/-- A language by its tag or a short name; a value that is no string has to be an exact tag. -/
def languageReader : Reader Language := fun json =>
  match json with
  | .str _ =>
    match Language.parse json with
    | .ok language => .valid language
    | .error e => .issue (.violates e.message)
  | _ => Record.language json

/-- Reads a request. -/
def read (origin : Origin) : Reader CodeRequest := fun json =>
  (members origin "CodeRequest" json).andThen fun fields =>
    mk <$> defaulted "code" "" (stringUpTo codeLimit) fields <*>
      required "language" languageReader fields

/-- Writes a request. -/
def toJson (request : CodeRequest) : Json :=
  .obj [("code", .str request.code), ("language", .str request.language.tag)]

end CodeRequest

namespace InsightsRequest

/-- Reads a request. -/
def read (origin : Origin) : Reader InsightsRequest := fun json =>
  (members origin "InsightsRequest" json).andThen fun fields =>
    mk <$> defaulted "code" "" (stringUpTo CodeRequest.codeLimit) fields <*>
      required "language" CodeRequest.languageReader fields <*>
      required "profile" (GrowthProfile.read origin) fields

/-- Writes a request. -/
def toJson (request : InsightsRequest) : Json :=
  .obj [("code", .str request.code), ("language", .str request.language.tag),
    ("profile", request.profile.toJson)]

end InsightsRequest

end Snippet
