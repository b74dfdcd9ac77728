import ServiceCalls.Proofs.Calls.HeaderPrecedence
import ServiceCalls.Proofs.Exchange.Shapes

/-
  The media type that a request is sent with.

  A body in octets or form fields goes with one media type.
  It is the one that is declared first, by the request or
  else by the client, as far as that can be read, and
  otherwise the one that goes with the value.  Parts leave
  it to the transport, and no body leaves it as declared.

  Key definitions include:
    * `RequestBody.defaultType?`
    * `HeaderValue.typeOr`
    * `EncodedBody.Typed`

  Main declarations:
    * `HeaderValue.eq_typeOr_of_read`
    * `typed_of_encodeBody`
    * `Client.contentType_of_assemble`
-/

namespace ServiceCalls

------------------------------------------------------------
-- Chosen Media Types
------------------------------------------------------------

/- The media type of the value that a body comes to. -/
def RequestBody.defaultType?
    [KnownMedia]
    : RequestBody → Option String
  | .value argument =>
      (await argument).toOption.map Argument.defaultType
  | .form _ => some MediaType.form
  | .empty => none
  | .parts _ => none

namespace HeaderValue

/- The first of some values if it is readable, or a type. -/
def typeOr (mediaType : String) :
    List HeaderValue → HeaderValue
  | [] => ⟨Text.encode mediaType⟩
  | value :: _ =>
      if value.isReadable then value
      else ⟨Text.encode mediaType⟩

/- What is written for a declared type or for another one. -/
theorem eq_typeOr_of_read
    {headers : Headers}
    {name : HeaderName}
    {mediaType : String}
    {value : HeaderValue}
    (h : HeaderValue.read
        ((headers.text? name).getD mediaType) = .ok value) :
    value = typeOr mediaType (headers.values name) := by
  unfold Headers.text? Headers.get? at h
  cases hValues : headers.values name with
  | nil =>
      rw [hValues] at h
      exact eq_of_read h
  | cons declared others =>
      have hReadable := declared.isSome_text?
      rw [hValues, List.head?_cons, Option.bind_some] at h
      rw [typeOr]
      cases hText : declared.text? with
      | none =>
          rw [hText] at h hReadable
          rw [← hReadable]
          exact eq_of_read h
      | some text =>
          rw [hText, Option.getD_some, HeaderValue.read,
            ofText?_of_text? hText] at h
          rw [hText] at hReadable
          rw [← hReadable]
          cases h
          rfl

end HeaderValue

------------------------------------------------------------
-- Encoded Bodies
------------------------------------------------------------

/-
  An encoded body with its media type: parts have none, and
  others have the declared one or else a given one.
-/
inductive EncodedBody.Typed
    (declared : Option String)
    (default? : Option String) :
    EncodedBody → Prop where
| parts
    (items : List FormPart) :
    Typed declared default? ⟨none, .parts items⟩
| bytes
    {mediaType : String}
    (hDefault : default? = some mediaType)
    (content : Bytes) :
    Typed declared default?
      ⟨some (declared.getD mediaType), .bytes content⟩
| form
    {mediaType : String}
    (hDefault : default? = some mediaType)
    (fields : List (String × String)) :
    Typed declared default?
      ⟨some (declared.getD mediaType), .form fields⟩

/- Fields are written of values that have been declared. -/
theorem exists_of_declaredFields
    {declared : Option String}
    {argument : Argument}
    {fields : Except ServiceError (List (String × Json))}
    (h : declaredFields? declared argument = some fields) :
    ∃ mediaType, declared = some mediaType := by
  cases declared with
  | none => cases h
  | some mediaType => exact ⟨mediaType, rfl⟩

theorem typed_of_encodeValue
    [KnownMedia]
    {declared : Option String}
    {argument : Argument}
    {encoded : EncodedBody}
    (h : encodeValue declared argument =
      .ok (some encoded)) :
    encoded.Typed declared (some argument.defaultType) := by
  unfold encodeValue at h
  split at h
  · next fields hFields =>
      rcases exists_of_declaredFields hFields with
        ⟨mediaType, rfl⟩
      rcases Fallible.bind_eq_ok h with
        ⟨values, _, hRest⟩
      rcases Fallible.bind_eq_ok hRest with
        ⟨texts, _, hMade⟩
      cases hMade
      exact .form rfl texts
  · rcases Fallible.bind_eq_ok h with
      ⟨octets?, hOctets, hMade⟩
    rcases isEncodable_of_encodeBytes hOctets with
      rfl | hEncodable
    · cases hOctets
      cases hMade
    · rw [encodeBytes_of_isEncodable hEncodable] at hOctets
      cases hOctets
      cases hMade
      exact .bytes rfl argument.octets

theorem typed_of_encodeBody
    [KnownMedia]
    {declared : Option String}
    {body : RequestBody}
    {encoded : EncodedBody}
    (h : encodeBody declared body = .ok (some encoded)) :
    encoded.Typed declared body.defaultType? := by
  cases body with
  | empty => cases h
  | value argument =>
      rcases Fallible.bind_eq_ok h with
        ⟨value, hValue, hEncoded⟩
      rw [RequestBody.defaultType?, hValue]
      exact typed_of_encodeValue hEncoded
  | form fields =>
      cases h
      exact .form rfl fields
  | parts items =>
      rcases Fallible.bind_eq_ok h with
        ⟨written, _, hMade⟩
      cases hMade
      exact .parts written

------------------------------------------------------------
-- Requests
------------------------------------------------------------

namespace Client

/- The media types that a request carries with a body. -/
def TypesFor
    (merged : List HeaderValue)
    (default? : Option String)
    (sent : List HeaderValue) :
    Option MessageBody → Prop
  | none => sent = merged
  | some (.parts _) => sent = []
  | some _ =>
      ∃ mediaType, default? = some mediaType ∧
        sent = [HeaderValue.typeOr mediaType merged]

/- The one media type that is set beside a body. -/
theorem contentType_of_setMediaType
    {headers result : Headers}
    {mediaType : String}
    {body : MessageBody}
    (h : setMediaType
        ⟨some ((headers.text? .contentType).getD mediaType),
          body⟩ headers = .ok result) :
    result.values .contentType =
      [HeaderValue.typeOr mediaType
        (headers.values .contentType)] := by
  rcases Fallible.map_eq_ok h with ⟨value, hValue, rfl⟩
  rw [Headers.values_insert_self,
    HeaderValue.eq_typeOr_of_read hValue]

section

variable [KnownMedia]

theorem contentType_of_assembleBody
    {body : RequestBody}
    {headers : Headers}
    {result : Headers × Option MessageBody}
    (h : assembleBody body headers = .ok result) :
    TypesFor (headers.values .contentType)
      body.defaultType? (result.1.values .contentType)
      result.2 := by
  rcases Fallible.bind_eq_ok h with
    ⟨encoded?, hEncoded, hRest⟩
  cases encoded? with
  | none =>
      cases hRest
      rfl
  | some encoded =>
      rcases Fallible.bind_eq_ok hRest with
        ⟨typed, hTyped, hResult⟩
      cases hResult
      cases typed_of_encodeBody hEncoded with
      | parts items =>
          cases hTyped
          change (headers.remove .contentType).values _ = []
          rw [Headers.values_remove, if_pos rfl]
      | bytes hDefault content =>
          exact ⟨_, hDefault,
            contentType_of_setMediaType hTyped⟩
      | form hDefault fields =>
          exact ⟨_, hDefault,
            contentType_of_setMediaType hTyped⟩

theorem contentType_of_encoded
    [DomainNames]
    {client : Client}
    {values : RequestValues}
    {request : Request}
    (h : client.encoded values = .ok request) :
    TypesFor
      (Headers.preferred
        [values.headers.values .contentType,
          client.defaultHeaders.values .contentType])
      values.body.defaultType?
      (request.headers.values .contentType)
      request.body := by
  rcases steps_of_encoded h with ⟨headers, hCookies, hBody⟩
  have hTypes := contentType_of_assembleBody hBody
  have hKept := values_addCookies hCookies
    (show HeaderName.contentType ≠ .cookie by decide)
  rw [hKept, values_mergeHeaders] at hTypes
  exact hTypes

/-
  The media type of a request that is handed on to be sent.
  The values it declares stand before those of the client,
  and the first of them counts when it can be read.  Octets
  and form fields carry this one or else the one that goes
  with the value, parts carry none, and without a body all
  values stay.
-/
theorem contentType_of_assemble
    [DomainNames]
    (client : Client)
    (values : RequestValues)
    (network : Network)
    (request : Request)
    (hAssembled :
      (client.assemble values network).result =
        .ok request) :
    let own := values.headers.values .contentType
    let merged :=
      if own = [] then
        client.defaultHeaders.values .contentType
      else own
    let sent := request.headers.values .contentType
    (request.body = none → sent = merged) ∧
      (∀ items, request.body = some (.parts items) →
        sent = []) ∧
      (∀ body, request.body = some body →
        (∀ items, body ≠ .parts items) →
        ∃ mediaType,
          values.body.defaultType? = some mediaType ∧
            sent =
              [HeaderValue.typeOr mediaType merged]) := by
  intro own merged sent
  have hResult := (client.assemble_yields values network).2
  rw [hAssembled] at hResult
  have hTypes := contentType_of_encoded
    (Fallible.mapError_eq_ok hResult.symm)
  rw [Headers.preferred_pair] at hTypes
  refine ⟨?_, ?_, ?_⟩
  · intro hBody
    rw [hBody] at hTypes
    exact hTypes
  · intro items hBody
    rw [hBody] at hTypes
    exact hTypes
  · intro body hBody hOther
    rw [hBody] at hTypes
    cases body with
    | bytes content => exact hTypes
    | form fields => exact hTypes
    | parts items => exact absurd rfl (hOther items)

end

------------------------------------------------------------
-- A Type That Cannot Be Read
------------------------------------------------------------

open PlainNames CommonMedia

/- A client that declares a media type by default. -/
def declaringClient : Client where
  base? := none
  defaultHeaders :=
    ⟨[(.contentType, ⟨Text.encode "text/html"⟩)]⟩
  defaultCookies := []
  interceptors := []
  transport := .given

/- A text whose first declared media type is not readable. -/
def accentedText : RequestValues where
  method := .post
  target := some (.absolute ProxyFunction.remoteTarget)
  «variables» := []
  headers :=
    ⟨[(.contentType, ⟨Text.encode "é"⟩),
      (.contentType, ⟨Text.encode "text/csv"⟩)]⟩
  cookies := []
  attributes := []
  body := .value (.text "x")

/- The same text when it is encoded. -/
def encodedText : Request where
  method := .post
  url := ProxyFunction.remoteTarget
  headers :=
    ⟨[(.contentType, ⟨Text.encode MediaType.plainText⟩)]⟩
  body := some (.bytes (Text.encode "x"))

/- Neither a later type nor that of the client is used. -/
theorem contentType_of_accented :
    ∃ request mediaType,
      (declaringClient.assemble accentedText
          (fun _ _ => .ok ⟨200, .empty, []⟩)).result =
        .ok request ∧
      request.body = some (.bytes (Text.encode "x")) ∧
      accentedText.body.defaultType? = some mediaType ∧
      request.headers.values .contentType =
        [⟨Text.encode mediaType⟩] := by
  obtain ⟨_, _, hBytes⟩ :=
    contentType_of_assemble declaringClient accentedText
      (fun _ _ => .ok ⟨200, .empty, []⟩) encodedText rfl
  obtain ⟨mediaType, hDefault, hSent⟩ :=
    hBytes (.bytes (Text.encode "x")) rfl
      fun items hParts => nomatch hParts
  exact ⟨encodedText, mediaType, rfl, rfl, hDefault, hSent⟩

end Client

end ServiceCalls
