import ServiceCalls.Proofs.Exchange.ContentType
import ServiceCalls.Proofs.Request.Delivery

/-
  Whether parameters are sent as a form or in the URL.

  A request decides when it is built, by the first media
  type that it has then: its own, or the default of its
  factory.  The client adds its defaults later, and all
  values of the header are sent.  So the decision fits what
  is sent if it was for a form, or if none of the values that
  are sent is the type of forms and the target takes the
  parameters.

  Key definitions include:
    * `HeaderValue.namesForm`
    * `HeaderValue.firstIsForm`
    * `RequestDraft.PlacedIn`

  Main declarations:
    * `RequestDraft.sent_of_build`
    * `RequestDraft.placedIn_iff`
    * `Deployment.parameters_of_execution`
-/

namespace ServiceCalls

------------------------------------------------------------
-- Media Types of Forms
------------------------------------------------------------

namespace HeaderValue

/- Whether the octets of a value say that it is a form. -/
def namesForm (value : HeaderValue) : Bool :=
  MediaType.isForm (Text.decodeLenient value.bytes)

/- Whether the first of some values is read as a form. -/
def firstIsForm : List HeaderValue → Bool
  | [] => false
  | value :: _ => value.isReadable && value.namesForm

theorem isForm_eq_firstIsForm (headers : Headers) :
    RequestDraft.isForm headers =
      firstIsForm (headers.values .contentType) := by
  unfold RequestDraft.isForm Headers.text? Headers.get?
  cases headers.values .contentType with
  | nil => rfl
  | cons value others =>
      have hReadable := value.isSome_text?
      rw [List.head?_cons, Option.bind_some, firstIsForm]
      cases hText : value.text? with
      | none =>
          rw [hText, Option.isSome_none] at hReadable
          rw [← hReadable]
          rfl
      | some text =>
          obtain ⟨hRead, rfl⟩ :=
            (value.text?_eq_some_iff text).mp hText
          rw [hRead]
          rfl

/- A form that is read first is the type that is sent. -/
theorem typeOr_of_firstIsForm
    {values : List HeaderValue}
    (h : firstIsForm values = true)
    (mediaType : String) :
    values.take 1 = [typeOr mediaType values] ∧
      (typeOr mediaType values).namesForm = true := by
  cases values with
  | nil => cases h
  | cons value others =>
      obtain ⟨hReadable, hForm⟩ := Bool.and_eq_true_iff.mp h
      have hType : typeOr mediaType (value :: others) =
          value := if_pos hReadable
      rw [hType]
      exact ⟨rfl, hForm⟩

end HeaderValue

------------------------------------------------------------
-- Places of Parameters
------------------------------------------------------------

namespace Request

/- Whether a request says that its body is a form. -/
def isForm (request : Request) : Bool :=
  (request.headers.values .contentType).any
    HeaderValue.namesForm

/- A request is no form if none of its types is one. -/
theorem isForm_eq_false_iff (request : Request) :
    request.isForm = false ↔
      ∀ value ∈ request.headers.values .contentType,
        value.namesForm = false := by
  unfold isForm
  simp

/- The form fields of a request. -/
def formFields (request : Request) :
    List (String × String) :=
  match request.body with
  | some (.form fields) => fields
  | _ => []

end Request

namespace RequestDraft

/-
  The parameters of a draft are where they belong.  If the
  request is a form they are its fields, and its URL is that
  without parameters; if not, it has no form fields, and its
  URL is that without parameters and delivers them.
-/
def PlacedIn
    [DomainNames]
    (draft : RequestDraft)
    (client : Client)
    (request : Request) :
    Prop :=
  if request.isForm = true then
    request.formFields = draft.parameters ∧
      draft.bare.sentTo client = .ok request.url
  else
    (∀ fields, request.body ≠ some (.form fields)) ∧
      ∃ before,
        draft.bare.sentTo client = .ok before ∧
        before.Delivers request.url draft.parameters

variable {draft : RequestDraft}
variable {values : RequestValues}

/- What becomes of parameters beside which is no body. -/
theorem build_bodiless
    [DomainNames]
    (hBody : draft.body = .empty)
    (h : draft.build = .ok values)
    (client : Client) :
    (draft.parameters = [] ∧
      draft.bare.sentTo client =
        client.resolveTarget values ∧
      values.body = .empty) ∨
    (draft.parameters ≠ [] ∧
      isForm draft.headers = true ∧
      draft.bare.sentTo client =
        client.resolveTarget values ∧
      values.body = .form draft.parameters) ∨
    (draft.parameters ≠ [] ∧
      isForm draft.headers = false ∧
      values.body = .empty) := by
  unfold build at h
  split at h
  · cases h
  · next method hMethod =>
      have hBare :=
        @sentTo_of_nil _ draft.bare client method hMethod rfl
      dsimp only at h
      rw [hBody] at h
      split at h
      · next hNone =>
          cases h
          exact .inl ⟨List.isEmpty_iff.mp hNone, hBare, rfl⟩
      · next hSome =>
          rw [List.isEmpty_iff] at hSome
          split at h
          · next hForm =>
              cases h
              exact .inr (.inl ⟨hSome, hForm, hBare, rfl⟩)
          · next hQuery =>
              cases h
              exact .inr (.inr ⟨hSome,
                Bool.eq_false_iff.mpr hQuery, rfl⟩)

end RequestDraft

namespace Client

variable [DomainNames]
variable {client : Client}
variable {values : RequestValues}
variable {request : Request}

theorem body_of_encoded_empty
    [KnownMedia]
    (h : client.encoded values = .ok request)
    (hBody : values.body = .empty) :
    request.body = none := by
  obtain ⟨headers, _, hAssembled⟩ := steps_of_encoded h
  rw [hBody] at hAssembled
  have hPair :
      (Except.ok (headers, none) :
        Except ServiceError (Headers × Option MessageBody)) =
        .ok (request.headers, request.body) :=
    hAssembled
  exact (congrArg Prod.snd (Except.ok.inj hPair)).symm

theorem body_of_encoded_form
    [KnownMedia]
    (h : client.encoded values = .ok request)
    {fields : List (String × String)}
    (hBody : values.body = .form fields) :
    request.body = some (.form fields) := by
  obtain ⟨headers, _, hAssembled⟩ := steps_of_encoded h
  rw [hBody] at hAssembled
  change (setMediaType (encodeForm _ fields) headers >>=
    fun typed => Except.ok
      (typed, some (MessageBody.form fields))) = _
    at hAssembled
  obtain ⟨typed, _, hPair⟩ := Fallible.bind_eq_ok hAssembled
  exact (congrArg Prod.snd (Except.ok.inj hPair)).symm

end Client

------------------------------------------------------------
-- Parameters That Are Sent
------------------------------------------------------------

namespace RequestDraft

variable [DomainNames]
variable {draft : RequestDraft}
variable {client : Client}
variable {values : RequestValues}
variable {request : Request}

/- What is sent of a draft beside which is no body. -/
theorem sent_cases
    [KnownMedia]
    (hBody : draft.body = .empty)
    (hBuild : draft.build = .ok values)
    (hEncoded : client.encoded values = .ok request) :
    let requested := draft.headers.values .contentType
    let sent := request.headers.values .contentType
    (draft.parameters = [] ∧
      request.body = none ∧
      sent = Headers.preferred [requested,
        client.defaultHeaders.values .contentType] ∧
      draft.bare.sentTo client = .ok request.url) ∨
    (draft.parameters ≠ [] ∧
      HeaderValue.firstIsForm requested = true ∧
      request.body = some (.form draft.parameters) ∧
      sent = requested.take 1 ∧
      request.isForm = true ∧
      draft.bare.sentTo client = .ok request.url) ∨
    (draft.parameters ≠ [] ∧
      HeaderValue.firstIsForm requested = false ∧
      request.body = none ∧
      sent = Headers.preferred [requested,
        client.defaultHeaders.values .contentType] ∧
      draft.sentTo client = .ok request.url) := by
  intro requested sent
  have hHeaders := build_headers hBuild
  have hTypes := Client.contentType_of_encoded hEncoded
  rw [hHeaders] at hTypes
  have hDecided := HeaderValue.isForm_eq_firstIsForm
    draft.headers
  have hUrl := Client.url_of_encoded hEncoded
  rcases build_bodiless hBody hBuild client with
    ⟨hNone, hBare, hEmpty⟩ |
    ⟨hSome, hForm, hBare, hFields⟩ |
    ⟨hSome, hForm, hEmpty⟩
  · have hRequest :=
      Client.body_of_encoded_empty hEncoded hEmpty
    rw [hRequest] at hTypes
    exact .inl ⟨hNone, hRequest, hTypes, hBare.trans hUrl⟩
  · have hRequest :=
      Client.body_of_encoded_form hEncoded hFields
    rw [hDecided] at hForm
    rw [hRequest, hFields] at hTypes
    obtain ⟨mediaType, _, hType⟩ := hTypes
    have hOwn : requested ≠ [] := by
      intro hEmpty
      rw [show draft.headers.values .contentType = [] from
        hEmpty] at hForm
      cases hForm
    rw [Headers.preferred_of_ne hOwn] at hType
    obtain ⟨hFirst, hNames⟩ :=
      HeaderValue.typeOr_of_firstIsForm hForm mediaType
    have hIsForm : request.isForm = true := by
      unfold Request.isForm
      rw [hType]
      exact (Bool.or_false _).trans hNames
    exact .inr (.inl ⟨hSome, hForm, hRequest,
      hType.trans hFirst.symm, hIsForm, hBare.trans hUrl⟩)
  · have hRequest :=
      Client.body_of_encoded_empty hEncoded hEmpty
    rw [hDecided] at hForm
    rw [hRequest] at hTypes
    have hSent : draft.sentTo client = .ok request.url := by
      unfold sentTo
      rw [hBuild]
      exact hUrl
    exact .inr (.inr
      ⟨hSome, hForm, hRequest, hTypes, hSent⟩)

/- Fields and types are sent as what is requested says. -/
theorem sent_of_build
    [KnownMedia]
    (hBody : draft.body = .empty)
    (hBuild : draft.build = .ok values)
    (hEncoded : client.encoded values = .ok request) :
    let requested := draft.headers.values .contentType
    let sent := request.headers.values .contentType
    (draft.parameters ≠ [] ∧
        HeaderValue.firstIsForm requested = true →
      request.body = some (.form draft.parameters) ∧
      sent = requested.take 1) ∧
    (draft.parameters = [] ∨
        HeaderValue.firstIsForm requested = false →
      request.body = none ∧
      sent = Headers.preferred [requested,
        client.defaultHeaders.values .contentType]) := by
  intro requested sent
  rcases sent_cases hBody hBuild hEncoded with
    ⟨hNone, hRequest, hTypes, _⟩ |
    ⟨hSome, hForm, hRequest, hTypes, _⟩ |
    ⟨_, hForm, hRequest, hTypes, _⟩
  · exact ⟨fun hFields => absurd hNone hFields.1,
      fun _ => ⟨hRequest, hTypes⟩⟩
  · refine ⟨fun _ => ⟨hRequest, hTypes⟩, ?_⟩
    rintro (hNone | hQuery)
    · exact absurd hNone hSome
    · cases hForm.symm.trans hQuery
  · refine ⟨?_, fun _ => ⟨hRequest, hTypes⟩⟩
    rintro ⟨_, hFields⟩
    cases hForm.symm.trans hFields

/-
  Parameters are where they belong if there are none, if the
  type that is requested first is that of forms, or if no
  type that is sent is one and the target takes them.
-/
theorem placedIn_iff
    [KnownMedia]
    (hBody : draft.body = .empty)
    (hBuild : draft.build = .ok values)
    (hEncoded : client.encoded values = .ok request)
    {base : BaseUrl}
    (hUntailed : Url.Untailed base.text.toList)
    (hBase :
      ∀ text, draft.target = some (.template text) →
        client.base? = some base) :
    let requested := draft.headers.values .contentType
    let merged := Headers.preferred [requested,
      client.defaultHeaders.values .contentType]
    draft.PlacedIn client request ↔
      draft.parameters = [] ∨
      HeaderValue.firstIsForm requested = true ∨
      ((∀ value ∈ merged, value.namesForm = false) ∧
        draft.TakesParameters base) := by
  intro requested merged
  unfold PlacedIn Request.formFields
  rcases sent_cases hBody hBuild hEncoded with
    ⟨hNone, hRequest, _, hUrl⟩ |
    ⟨_, hForm, hRequest, _, hIsForm, hUrl⟩ |
    ⟨hSome, hForm, hRequest, hTypes, hSent⟩
  · refine iff_of_true ?_ (.inl hNone)
    rw [hNone, hRequest]
    split
    · exact ⟨rfl, hUrl⟩
    · exact ⟨nofun, request.url, hUrl,
        Url.delivers_nil request.url⟩
  · rw [if_pos hIsForm, hRequest]
    exact iff_of_true ⟨rfl, hUrl⟩ (.inr (.inl hForm))
  · have hMerged :
        (∀ value ∈ merged, value.namesForm = false) ↔
          request.isForm = false := by
      rw [request.isForm_eq_false_iff, hTypes]
    have hOwnForm : isForm draft.headers = false :=
      (HeaderValue.isForm_eq_firstIsForm _).trans hForm
    have hTakes :
        draft.TakesParameters base ↔
        ∃ before,
          draft.bare.sentTo client = .ok before ∧
          before.Delivers request.url
            draft.parameters := by
      have hIff {before : Url}
          (hBefore :
            draft.bare.sentTo client = .ok before) :
          draft.TakesParameters base ↔
            before.Delivers request.url
              draft.parameters := by
        rw [takesParameters_iff hUntailed hBase hOwnForm
          hBefore hSome, hSent]
        simp only [Except.ok.injEq, exists_eq_left']
      constructor
      · intro h
        rcases exists_bare_sentTo hUntailed hBase hOwnForm
          hSome h hSent with ⟨before, hBefore⟩
        exact ⟨before, hBefore, (hIff hBefore).mp h⟩
      · rintro ⟨before, hBefore, hDelivers⟩
        exact (hIff hBefore).mpr hDelivers
    rw [hRequest, hForm, hMerged, hTakes]
    cases hIsForm : request.isForm with
    | true => simp [hSome, Ne.symm hSome]
    | false => simp [hSome]

/- Without parameters headers do not matter to the URL. -/
theorem bare_sentTo_withHeaders
    (draft : RequestDraft)
    (headers : Headers)
    (client : Client) :
    RequestDraft.sentTo
        (bare { draft with headers := headers }) client =
      draft.bare.sentTo client := by
  unfold sentTo build bare
  cases draft.method <;> rfl

theorem takesParameters_withHeaders
    (draft : RequestDraft)
    (headers : Headers)
    (base : BaseUrl) :
    TakesParameters base { draft with headers := headers } ↔
      draft.TakesParameters base := by
  constructor
  · intro h
    cases h with
    | none hNone => exact .none hNone
    | absolute url hTarget => exact .absolute url hTarget
    | template template text hTarget hText hTakes =>
        exact .template template text hTarget hText hTakes
  · intro h
    cases h with
    | none hNone => exact .none hNone
    | absolute url hTarget => exact .absolute url hTarget
    | template template text hTarget hText hTakes =>
        exact .template template text hTarget hText hTakes

theorem placedIn_withHeaders
    (draft : RequestDraft)
    (headers : Headers)
    (client : Client)
    (request : Request) :
    PlacedIn { draft with headers := headers } client
        request ↔
      draft.PlacedIn client request := by
  unfold PlacedIn
  rw [bare_sentTo_withHeaders]

end RequestDraft

namespace Deployment

section

variable [DomainNames] [KnownMedia]
variable (deployment : Deployment)

/-
  Parameters of a call that sends no other body.  They are
  form fields if the type that is requested first is that of
  forms, and this type alone is sent with them.  Otherwise
  there is no body, and the types of the client are sent if
  none is requested.  Then one of them may be that of forms,
  or the target does not take the parameters, which is why
  they are not always where the types that are sent say.
-/
theorem parameters_of_execution
    (hInterceptors :
      deployment.clientConfig.interceptors = [])
    (hProcessors : deployment.factoryConfig.processors = [])
    (function : ProxyFunction)
    (name : String)
    (method : ServiceMethod)
    (hMethod : deployment.proxy.method name = .ok method)
    (arguments : List Argument)
    (network : Network)
    (transport : Transport)
    (request : Request)
    (hSent : (transport, request) ∈
      (function.run deployment.proxy name arguments
        network).executions)
    (hBody :
      (method.call arguments .empty).draft.body = .empty) :
    let own := (method.call arguments .empty).draft
    let requested := Headers.preferred
      [own.headers.values .contentType,
        (Headers.registered
          deployment.factoryConfig.defaultHeaders
          .contentType).filter HeaderValue.isReadable]
    let merged := Headers.preferred
      [requested,
        Headers.registered
          deployment.clientConfig.defaultHeaders
          .contentType]
    let sent := request.headers.values .contentType
    (own.parameters ≠ [] ∧
        HeaderValue.firstIsForm requested = true →
      request.body = some (.form own.parameters) ∧
      sent = requested.take 1) ∧
    (own.parameters = [] ∨
        HeaderValue.firstIsForm requested = false →
      request.body = none ∧ sent = merged) ∧
    ∀ (base : BaseUrl) (home : Url),
      Url.parse base.text = .ok home →
      home.query = none →
      home.fragment = none →
      (∀ text, own.target = some (.template text) →
        deployment.client.base? = some base) →
      (own.PlacedIn deployment.client request ↔
        own.parameters = [] ∨
        HeaderValue.firstIsForm requested = true ∨
        ((∀ value ∈ merged, value.namesForm = false) ∧
          own.TakesParameters base)) := by
  intro own requested merged sent
  obtain ⟨headers, values, hBuild, hEncoded, hHeaders⟩ :=
    deployment.built_of_execution hInterceptors hProcessors
      hMethod hSent
  have hRequested :
      headers.values .contentType = requested :=
    hHeaders .contentType
  have hMerged :
      Headers.preferred [headers.values .contentType,
        deployment.client.defaultHeaders.values
          .contentType] = merged := by
    rw [hRequested, deployment.client_of_config.2]
  -- The draft that is built has more headers than its own.
  have hEmpty :
      RequestDraft.body { own with headers := headers } =
        .empty :=
    hBody
  have hSides :=
    RequestDraft.sent_of_build hEmpty hBuild hEncoded
  dsimp only at hSides
  rw [hMerged, hRequested] at hSides
  refine ⟨hSides.1, hSides.2, ?_⟩
  intro base home hHome hQuery hFragment hBase
  have hUntailed :=
    Url.untailed_of_parseChars hHome hQuery hFragment
  have hPlaced := RequestDraft.placedIn_iff hEmpty hBuild
    hEncoded hUntailed hBase
  dsimp only at hPlaced
  rw [hMerged, hRequested, RequestDraft.placedIn_withHeaders,
    RequestDraft.takesParameters_withHeaders] at hPlaced
  exact hPlaced

end

------------------------------------------------------------
-- A Form Without Fields
------------------------------------------------------------

open PlainNames CommonMedia

/- A client that sends the type of forms by default. -/
def formClient : Client where
  base? := none
  defaultHeaders :=
    ⟨[(.contentType, ⟨Text.encode MediaType.form⟩)]⟩
  defaultCookies := []
  interceptors := []
  transport := .given

/- A method that takes its target and one parameter. -/
def searchMethod : ServiceMethod where
  service := "Items"
  name := "search"
  method := some .post
  url := ""
  contentType := none
  accept := []
  binders :=
    [Resolver.contributeUri,
      ValueRule.addValue Role.parameter.rule
        ⟨"q", true, none⟩]
  returns := .nothing

/- A proxy of the method over the client. -/
def searching : Deployment where
  clientConfig :=
    { ClientConfig.ofSettings (.standard none) with
      defaultHeaders := [("Content-Type", MediaType.form)]
      transport := some .given }
  client := formClient
  clientBuilt := rfl
  factoryConfig := FactoryConfig.ofAdapter (.ofClient formClient)
  overClient := rfl
  factory :=
    { adapter := .ofClient formClient
      resolvers := Resolver.chain [] true
      processors := []
      defaultHeaders := .empty
      embeddedValues := none }
  factoryBuilt := rfl
  serviceName := "Items"
  service :=
    { ServiceDescriptor.empty with
      methods :=
        [{ MethodDescriptor.bare "search" with
            method := some .post
            parameters :=
              [Parameter.unnamed .uri,
                Parameter.ofRole .parameter "q"] }] }
  proxy :=
    { service := "Items"
      methods := [searchMethod]
      adapter := .ofClient formClient
      processors := []
      defaultHeaders := .empty }
  proxyMade := rfl

/- The request that the client makes. -/
def searchRequest : Request where
  method := .post
  url := { ProxyFunction.remoteTarget with query := some "q=1" }
  headers :=
    ⟨[(.contentType, ⟨Text.encode MediaType.form⟩)]⟩
  body := none

theorem searchRequest_sent :
    (ProxyFunction.exchange.run searching.proxy "search"
        [.uri ProxyFunction.remoteTarget, .text "1"]
        (fun _ _ => .ok ⟨200, .empty, []⟩)).executions =
      [(.given, searchRequest)] :=
  rfl

theorem searchRequest_mem :
    (.given, searchRequest) ∈
      (ProxyFunction.exchange.run searching.proxy "search"
        [.uri ProxyFunction.remoteTarget, .text "1"]
        (fun _ _ => .ok ⟨200, .empty, []⟩)).executions := by
  rw [searchRequest_sent]
  exact List.mem_cons_self

theorem isForm_search : searchRequest.isForm = true := by
  decide +kernel

/- Its parameter is in the URL, although it is a form. -/
theorem parameters_of_search :
    ∃ request,
      (ProxyFunction.exchange.run searching.proxy "search"
          [.uri ProxyFunction.remoteTarget, .text "1"]
          (fun _ _ => .ok ⟨200, .empty, []⟩)).executions =
        [(.given, request)] ∧
      request.url.query = some "q=1" ∧
      request.body = none ∧
      request.isForm = true ∧
      ¬ (searchMethod.call
          [.uri ProxyFunction.remoteTarget, .text "1"]
          .empty).draft.PlacedIn formClient request := by
  obtain ⟨_, hQuery, hPlaced⟩ :=
    parameters_of_execution searching rfl rfl .exchange
      "search" searchMethod rfl
      [.uri ProxyFunction.remoteTarget, .text "1"]
      (fun _ _ => .ok ⟨200, .empty, []⟩) .given
      searchRequest searchRequest_mem rfl
  have hPlaced := hPlaced UriTemplate.localApi _
    UriTemplate.parse_localApi rfl rfl
    fun _ hTarget => by cases hTarget
  refine ⟨searchRequest, searchRequest_sent, rfl,
    (hQuery (.inr rfl)).1, isForm_search, ?_⟩
  intro hAll
  rcases hPlaced.mp hAll with hNone | hForm | ⟨hOther, _⟩
  · cases hNone
  · cases hForm
  · have hNone :=
      searchRequest.isForm_eq_false_iff.mpr hOther
    rw [isForm_search] at hNone
    cases hNone

/- Not all parameters are where the sent type says. -/
theorem parameters_not_always_placed :
    ¬∀ (deployment : Deployment)
        (function : ProxyFunction)
        (name : String)
        (method : ServiceMethod)
        (arguments : List Argument)
        (network : Network)
        (transport : Transport)
        (request : Request),
      deployment.clientConfig.interceptors = [] →
      deployment.factoryConfig.processors = [] →
      deployment.proxy.method name = .ok method →
      (transport, request) ∈
        (function.run deployment.proxy name arguments
          network).executions →
      (method.call arguments .empty).draft.body = .empty →
      (method.call arguments .empty).draft.PlacedIn
        deployment.client request := by
  intro hAll
  have hPlaced := hAll searching .exchange "search"
    searchMethod
    [.uri ProxyFunction.remoteTarget, .text "1"]
    (fun _ _ => .ok ⟨200, .empty, []⟩) .given
    searchRequest rfl rfl rfl searchRequest_mem rfl
  unfold RequestDraft.PlacedIn at hPlaced
  rw [if_pos isForm_search] at hPlaced
  cases hPlaced.1

end Deployment
end ServiceCalls
