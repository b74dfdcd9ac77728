import ServiceCalls.Http.Token
import ServiceCalls.Text.Quoted
import ServiceCalls.Text.Utf8

/-
  Header fields.

  Names are kept in lower case, so that equal names are
  equal values.  A header set is the list of its fields in
  the order they were added; a name may occur repeatedly.

  Key definitions include:
    * `HeaderName`
    * `HeaderValue`
    * `Headers`
-/

namespace ServiceCalls

------------------------------------------------------------
-- Names
------------------------------------------------------------

/- The name of a header field, in lower case. -/
structure HeaderName where
  text : String
deriving DecidableEq, Repr

namespace HeaderName

/- The longest name. -/
def maxLength : Nat :=
  65535

/- Read a name of any case. -/
def parse? (s : String) : Option HeaderName :=
  if isToken s && s.length ≤ maxLength then
    some ⟨lowerAscii s⟩
  else
    none

def accept : HeaderName := ⟨"accept"⟩

def authorization : HeaderName := ⟨"authorization"⟩

def contentDisposition : HeaderName :=
  ⟨"content-disposition"⟩

def contentLength : HeaderName := ⟨"content-length"⟩

def contentType : HeaderName := ⟨"content-type"⟩

def cookie : HeaderName := ⟨"cookie"⟩

end HeaderName

------------------------------------------------------------
-- Values
------------------------------------------------------------

/- The value of a header field. -/
structure HeaderValue where
  bytes : Bytes
deriving DecidableEq, Repr

namespace HeaderValue

/- Octets a value may hold. -/
def isFieldOctet (b : UInt8) : Bool :=
  (0x20 ≤ b && b != 0x7F) || b == 0x09

/- Octets a readable value may hold. -/
def isReadableOctet (b : UInt8) : Bool :=
  (0x20 ≤ b && b < 0x7F) || b == 0x09

/- Read a value from octets. -/
def ofBytes? (bytes : Bytes) : Option HeaderValue :=
  if bytes.all isFieldOctet then some ⟨bytes⟩ else none

/- Read a value from text. -/
def ofText? (s : String) : Option HeaderValue :=
  ofBytes? (Text.encode s)

/- A value of characters that every value may hold. -/
def ofNat (n : Nat) : HeaderValue :=
  ⟨Text.encode (toString n)⟩

/- The text of a readable value. -/
def text? (value : HeaderValue) : Option String :=
  if value.bytes.all isReadableOctet then
    some (String.ofList
      (value.bytes.map fun b => Char.ofNat b.toNat))
  else
    none

/- An octet of a value shown in quotes. -/
def displayOctet (b : UInt8) : List Char :=
  if b == 0x22 then ['\\', '"']
  else if isReadableOctet b then [Char.ofNat b.toNat]
  else ['\\', 'x'] ++ Text.hexDigits b.toNat

/- A value shown in quotes. -/
def display (value : HeaderValue) : String :=
  String.ofList
    ('"' :: (value.bytes.flatMap displayOctet ++ ['"']))

end HeaderValue

------------------------------------------------------------
-- Header Sets
------------------------------------------------------------

/- Header fields in the order they were added. -/
structure Headers where
  fields : List (HeaderName × HeaderValue)
deriving DecidableEq, Repr

namespace Headers

/- No fields. -/
def empty : Headers :=
  ⟨[]⟩

/- The values of a name, in order. -/
def values (h : Headers) (name : HeaderName) :
    List HeaderValue :=
  (h.fields.filter (·.1 == name)).map (·.2)

/- The first value of a name. -/
def get? (h : Headers) (name : HeaderName) :
    Option HeaderValue :=
  (h.values name).head?

/- The first value of a name, if it is readable. -/
def text? (h : Headers) (name : HeaderName) :
    Option String :=
  (h.get? name).bind HeaderValue.text?

/- Whether a name occurs. -/
def contains (h : Headers) (name : HeaderName) : Bool :=
  h.fields.any (·.1 == name)

/- How many values there are. -/
def size (h : Headers) : Nat :=
  h.fields.length

/- Add a value after those there are. -/
def append
    (h : Headers)
    (name : HeaderName)
    (value : HeaderValue) :
    Headers :=
  ⟨h.fields ++ [(name, value)]⟩

/- Add all fields of another set. -/
def appendAll (h other : Headers) : Headers :=
  ⟨h.fields ++ other.fields⟩

/- Drop all values of a name. -/
def remove (h : Headers) (name : HeaderName) : Headers :=
  ⟨h.fields.filter (·.1 != name)⟩

/-
  Make a value the only one of its name, in the place of the
  first value there was.
-/
def insert
    (h : Headers)
    (name : HeaderName)
    (value : HeaderValue) :
    Headers :=
  let before := h.fields.takeWhile (·.1 != name)
  let after := h.fields.dropWhile (·.1 != name)
  ⟨before ++ (name, value) ::
    after.filter (·.1 != name)⟩

/- The names, each once, in order of first use. -/
def names (h : Headers) : List HeaderName :=
  (h.fields.map (·.1)).eraseDups

/- The values of every name, in order of first use. -/
def grouped (h : Headers) :
    List (HeaderName × List HeaderValue) :=
  h.names.map fun name => (name, h.values name)

/- The fields shown as a map. -/
def display (h : Headers) : String :=
  Text.showMap (h.grouped.flatMap fun (name, values) =>
    values.map fun value =>
      (Text.quoted name.text, value.display))

------------------------------------------------------------
-- Values After Each Operation
------------------------------------------------------------

@[simp]
theorem values_empty (name : HeaderName) :
    empty.values name = [] := rfl

@[simp]
theorem values_appendAll
    (h other : Headers)
    (name : HeaderName) :
    (h.appendAll other).values name =
      h.values name ++ other.values name := by
  simp [appendAll, values]

theorem values_append
    (h : Headers)
    (name n : HeaderName)
    (value : HeaderValue) :
    (h.append n value).values name =
      h.values name ++
        (if n = name then [value] else []) := by
  by_cases hn : n = name <;>
    simp [append, values, hn]

theorem values_remove
    (h : Headers)
    (name n : HeaderName) :
    (h.remove n).values name =
      if n = name then [] else h.values name := by
  simp only [remove, values, List.filter_filter]
  by_cases hn : n = name
  · subst hn
    simp
  · rw [if_neg hn]
    congr 1
    apply List.filter_congr
    intro x _
    by_cases hx : x.1 = name <;> simp [hx, Ne.symm hn]

theorem contains_iff
    (h : Headers)
    (name : HeaderName) :
    h.contains name = true ↔ h.values name ≠ [] := by
  simp [contains, values]

end Headers

end ServiceCalls
