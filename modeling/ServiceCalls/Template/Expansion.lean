import ServiceCalls.Error
import ServiceCalls.Template.Embedded
import ServiceCalls.Text.Blank
import ServiceCalls.Text.Percent
import ServiceCalls.Url.Error
import ServiceCalls.Url.Parse

/-
  URI templates.

  A placeholder is a name in braces, without a brace inside
  and not empty.  Its value is written with only unreserved
  characters plain; everything else stays as it is.  A text
  without a host of its own continues the base URL.

  Key definitions include:
    * `UriTemplate.Piece`
    * `UriTemplate.pieces`
    * `UriTemplate.expandText`
    * `BaseUrl`
    * `UriTemplate.expand`
-/

namespace ServiceCalls

namespace UriTemplate

------------------------------------------------------------
-- Pieces
------------------------------------------------------------

/- What a template is made of. -/
inductive Piece where
| plain
    (c : Char)
| placeholder
    (name : List Char)
deriving DecidableEq, Repr

/- A character that ends the name of a placeholder. -/
def isBrace (c : Char) : Bool :=
  c == '\x7b' || c == '\x7d'

/- The name of a placeholder whose brace was just opened. -/
def placeholder? (text : List Char) :
    Option (List Char × List Char) :=
  let name := text.takeWhile fun c => !isBrace c
  if name.isEmpty then none
  else
    match text.dropWhile fun c => !isBrace c with
    | '\x7d' :: rest => some (name, rest)
    | _ => none

theorem length_of_placeholder?
    {text : List Char}
    {parts : List Char × List Char}
    (h : placeholder? text = some parts) :
    parts.2.length < text.length := by
  simp only [placeholder?] at h
  split at h
  · simp at h
  · split at h
    · next rest hRest =>
        have hLength :=
          (List.dropWhile_sublist (l := text)
            (fun c => !isBrace c)).length_le
        rw [hRest] at hLength
        simp only [Option.some.injEq] at h
        subst h
        exact hLength
    · simp at h

/- The pieces of a template, from left to right. -/
def pieces (text : List Char) : List Piece :=
  match text with
  | [] => []
  | c :: rest =>
      if c = '\x7b' then
        match h : placeholder? rest with
        | some (name, after) =>
            have : after.length < rest.length :=
              length_of_placeholder? h
            .placeholder name :: pieces after
        | none => .plain c :: pieces rest
      else .plain c :: pieces rest
termination_by text.length

------------------------------------------------------------
-- Expanded Texts
------------------------------------------------------------

/- The name of a placeholder, without blanks around it. -/
def placeholderName (name : List Char) : String :=
  Text.trim (String.ofList name)

/- A placeholder whose name has no value. -/
def unbound (name template : String) : ServiceError :=
  .uriTemplate
    ("Not enough variable values available to expand '" ++
      name ++ "' in '" ++ template ++ "'")

/- The text that pieces stand for, or the name without one. -/
def expandPieces
    (uriVariables : List (String × String)) :
    List Piece → Except String (List Char)
  | [] => .ok []
  | .plain c :: rest =>
      (expandPieces uriVariables rest).map (c :: ·)
  | .placeholder name :: rest =>
      match uriVariables.lookup (placeholderName name) with
      | none => .error (placeholderName name)
      | some value =>
          (expandPieces uriVariables rest).map
            (Text.encodeComponent value.toList ++ ·)

/- The text of a template with its placeholders replaced. -/
def expandText
    (template : String)
    (uriVariables : List (String × String)) :
    Except ServiceError String :=
  match expandPieces uriVariables
      (pieces template.toList) with
  | .ok text => .ok (String.ofList text)
  | .error name => .error (unbound name template)

end UriTemplate

------------------------------------------------------------
-- Base URLs
------------------------------------------------------------

/- The text of a URL under which others are resolved. -/
structure BaseUrl [DomainNames] where
  text : String
  accepted : ∃ url, Url.parse text = .ok url

namespace BaseUrl

/- A text that is no URL. -/
def invalid (text : String) (error : UrlError) :
    ServiceError :=
  .configuration
    ("Invalid base URL '" ++ text ++ "': " ++ error.message)

/- Read a base URL; its text is kept. -/
def parse
    [DomainNames]
    (text : String) : Except ServiceError BaseUrl :=
  match h : Url.parse text with
  | .ok url => .ok ⟨text, url, h⟩
  | .error error => .error (invalid text error)

/- Read a base URL, if there is one. -/
def parse? [DomainNames] (text? : Option String) :
    Except ServiceError (Option BaseUrl) :=
  match text? with
  | none => .ok none
  | some text => (parse text).map some

end BaseUrl

------------------------------------------------------------
-- Resolution
------------------------------------------------------------

namespace UriTemplate

/- A text that needs a base URL. -/
def noBase (text : String) : ServiceError :=
  .uriTemplate
    ("URI '" ++ text ++
      "' is not absolute and no base URL is configured")

/- A text that is no URL, not even under its base. -/
def badTarget (text : String) (error : UrlError) :
    ServiceError :=
  .uriTemplate
    ("Invalid URI '" ++ text ++ "': " ++ error.message)

variable [DomainNames]

/- The URL of a text under a base URL. -/
def resolveUnder (base? : Option BaseUrl) (text : String) :
    Except ServiceError Url :=
  match base? with
  | none => .error (noBase text)
  | some base =>
      let joined := String.ofList
        (joinUrl base.text.toList text.toList)
      (Url.parse joined).mapError (badTarget joined)

/-
  The URL of a text: its own if it has a host, and one under
  the base otherwise.
-/
def resolve (base? : Option BaseUrl) (text : String) :
    Except ServiceError Url :=
  match Url.parse text with
  | .ok url =>
      if url.hasHost then .ok url
      else resolveUnder base? text
  | .error _ => resolveUnder base? text

/- The URL of a template. -/
def expand
    (base? : Option BaseUrl)
    (template : String)
    (uriVariables : List (String × String)) :
    Except ServiceError Url := do
  let text ← expandText template uriVariables
  resolve base? text

end UriTemplate

end ServiceCalls
