import ServiceCalls.Error
import ServiceCalls.Text.Blank
import ServiceCalls.Text.Search

/-
  Embedded values of a declared URL.

  A placeholder is written as a dollar sign and a name in
  braces; the name runs to the first closing brace.  All
  placeholders are replaced in one pass, and what replaces
  them is not looked at again.

  Key definitions include:
    * `resolveEmbedded`
    * `joinUrl`
-/

namespace ServiceCalls

------------------------------------------------------------
-- Embedded Values
------------------------------------------------------------

/- Gives the value of a name, if there is one. -/
abbrev EmbeddedValues : Type :=
  String → Option String

/- The start of a placeholder. -/
def embeddedMark : List Char :=
  ['$', '\x7b']

/- A placeholder that is not closed. -/
def unterminated (text : String) : ServiceError :=
  .configuration
    ("Unterminated placeholder in '" ++ text ++ "'")

/- A placeholder whose name has no value. -/
def unresolvable (name text : String) : ServiceError :=
  .configuration
    ("Could not resolve placeholder '" ++ name ++
      "' in '" ++ text ++ "'")

/- What follows a placeholder is shorter. -/
theorem length_of_placeholder
    {text before after name rest : List Char}
    (hOpen : Text.splitOnce embeddedMark text =
      some (before, after))
    (hClose : Text.splitOnce ['\x7d'] after =
      some (name, rest)) :
    rest.length < text.length := by
  have hAfter := Text.length_of_splitOnce hOpen
  have hRest := Text.length_of_splitOnce hClose
  change before.length + 2 + after.length = _ at hAfter
  change name.length + 1 + rest.length = _ at hRest
  omega

/-
  The text with all placeholders replaced.  The failure
  names the whole text.
-/
def replaceEmbedded
    (values : EmbeddedValues)
    (whole : String)
    (text : List Char) :
    Except ServiceError (List Char) :=
  match hOpen : Text.splitOnce embeddedMark text with
  | none => .ok text
  | some (before, after) =>
      match hClose : Text.splitOnce ['\x7d'] after with
      | none => .error (unterminated whole)
      | some (name, rest) =>
          have : rest.length < text.length :=
            length_of_placeholder hOpen hClose
          match values (String.ofList name) with
          | none =>
              .error
                (unresolvable (String.ofList name) whole)
          | some value =>
              (replaceEmbedded values whole rest).map
                fun replaced =>
                  before ++ value.toList ++ replaced
termination_by text.length

/-
  A declared URL with its placeholders replaced.  Without
  values it is taken as it is.
-/
def resolveEmbedded
    (values? : Option EmbeddedValues)
    (url? : Option String) :
    Except ServiceError String :=
  match url?, values? with
  | none, _ => .ok ""
  | some url, none => .ok url
  | some url, some values =>
      (replaceEmbedded values url url.toList).map
        String.ofList

------------------------------------------------------------
-- Joined URLs
------------------------------------------------------------

/- Two texts with exactly one slash where they meet. -/
def joinSlash (first second : List Char) : List Char :=
  Text.dropWhileEnd (· == '/') first ++
    '/' :: second.dropWhile (· == '/')

/-
  A URL continued by another.  An empty one is left out, and
  a query follows without a slash.
-/
def joinUrl (first second : List Char) : List Char :=
  if first.isEmpty then second
  else if second.isEmpty then first
  else if ['?'].isPrefixOf second then first ++ second
  else joinSlash first second

end ServiceCalls
