import ServiceCalls.Http.Token

/-
  The grammar of media types.

  A media type is a type, a slash and a subtype, followed by
  parameters, each after a semicolon.  The value of a
  parameter is a token or stands in double quotes.  Blanks
  may stand before a parameter and after a quoted value.  The
  subtype, the last value and the last parameter may be
  empty.

  Key definitions include:
    * `MediaType.Place`
    * `MediaType.Place.step`
    * `MediaType.isValid`
-/

namespace ServiceCalls

namespace MediaType

/- How far a media type has been read. -/
inductive Place where
| start
| type
| afterSlash
| subtype
| beforeName
| name
| beforeValue
| value
| afterQuote
| quoted
| afterQuoted
| nowhere
deriving DecidableEq, Repr

/- A character that may stand in quotes. -/
def isQuotable (c : Char) : Bool :=
  31 < c.toNat && c.toNat != 127

namespace Place

/- Read a character of a token, or fail. -/
def token (c : Char) (next : Place) : Place :=
  if isTokenChar c then next else .nowhere

/- Read one more character. -/
def step (place : Place) (c : Char) : Place :=
  match place with
  | .start => token c .type
  | .type =>
      if c == '/' then .afterSlash else token c .type
  | .afterSlash => token c .subtype
  | .subtype =>
      if c == ';' then .beforeName else token c .subtype
  | .beforeName =>
      if c == ' ' then .beforeName else token c .name
  | .name =>
      if c == '=' then .beforeValue else token c .name
  | .beforeValue =>
      if c == '"' then .afterQuote else token c .value
  | .value =>
      if c == ';' then .beforeName else token c .value
  | .afterQuote =>
      if isQuotable c then .quoted else .nowhere
  | .quoted =>
      if c == '"' then .afterQuoted
      else if isQuotable c then .quoted
      else .nowhere
  | .afterQuoted =>
      if c == ';' then .beforeName
      else if c == ' ' then .afterQuoted
      else .nowhere
  | .nowhere => .nowhere

/- Whether a media type may end here. -/
def isEnd : Place → Bool
  | .afterSlash => true
  | .subtype => true
  | .beforeName => true
  | .beforeValue => true
  | .value => true
  | .afterQuoted => true
  | _ => false

end Place

/- Whether a text is a media type. -/
def isValid (mediaType : String) : Bool :=
  (mediaType.toList.foldl Place.step .start).isEnd

end MediaType

end ServiceCalls
