/-
  Tokens of the HTTP grammar, and request methods.

  Key definitions include:
    * `isTokenChar`
    * `lowerAscii`
    * `Method.parse?`
-/

namespace ServiceCalls

------------------------------------------------------------
-- Characters
------------------------------------------------------------

/- The characters a token is made of. -/
def isTokenChar (c : Char) : Bool :=
  c.isAlphanum || "!#$%&'*+-.^_`|~".toList.contains c

/- A text with its ASCII letters in lower case. -/
def lowerAscii (s : String) : String :=
  String.ofList (s.toList.map Char.toLower)

/- A text with its ASCII letters in upper case. -/
def upperAscii (s : String) : String :=
  String.ofList (s.toList.map Char.toUpper)

/- Whether a text is a token. -/
def isToken (s : String) : Bool :=
  !s.toList.isEmpty && s.toList.all isTokenChar

------------------------------------------------------------
-- Methods
------------------------------------------------------------

/- A request method; its case is kept. -/
structure Method where
  name : String
deriving DecidableEq, Repr

namespace Method

/- Read a method. -/
def parse? (s : String) : Option Method :=
  if isToken s then some ⟨s⟩ else none

def get : Method := ⟨"GET"⟩

def post : Method := ⟨"POST"⟩

def put : Method := ⟨"PUT"⟩

def patch : Method := ⟨"PATCH"⟩

def delete : Method := ⟨"DELETE"⟩

end Method

end ServiceCalls
