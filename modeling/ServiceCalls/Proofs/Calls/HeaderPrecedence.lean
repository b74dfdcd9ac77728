import Mathlib.Data.List.TakeWhile
import ServiceCalls.ProxyFactory
import ServiceCalls.Proofs.Calls.Dispatch
import ServiceCalls.Proofs.Fallible
import ServiceCalls.Proofs.Http.HeaderText

/-
  Which header values a request is sent with.

  What a call sets itself takes the place of the defaults of
  its factory, and these take the place of those of the
  client.  Of the defaults of a factory only readable values
  count.

  Key definitions include:
    * `Headers.registered`
    * `Headers.preferred`
    * `Deployment`

  Main declarations:
    * `Proxy.addDefaults_values`
    * `Client.encoded_values`
    * `Deployment.headers_of_execution`
-/

namespace ServiceCalls

------------------------------------------------------------
-- Sets of Fields
------------------------------------------------------------

namespace Headers

theorem mem_names
    (h : Headers)
    (name : HeaderName) :
    name ∈ h.names ↔ h.values name ≠ [] := by
  simp [names, values, List.mem_eraseDups]

theorem values_removeAll
    (names : List HeaderName)
    (h : Headers)
    (name : HeaderName) :
    (names.foldl remove h).values name =
      if name ∈ names then [] else h.values name := by
  induction names generalizing h with
  | nil => rfl
  | cons first rest ih =>
      rw [List.foldl_cons, ih, values_remove]
      by_cases hFirst : first = name
      · subst hFirst
        simp
      · rw [if_neg hFirst]
        simp [Ne.symm hFirst]

theorem values_insert_of_ne
    {name n : HeaderName}
    (hName : n ≠ name)
    (h : Headers)
    (value : HeaderValue) :
    (h.insert n value).values name = h.values name := by
  have hSplit := List.takeWhile_append_dropWhile
    (p := fun field => field.1 != n) (l := h.fields)
  have hAfter :
      ((h.fields.dropWhile (·.1 != n)).filter
          (·.1 != n)).filter (·.1 == name) =
        (h.fields.dropWhile (·.1 != n)).filter
          (·.1 == name) := by
    rw [List.filter_filter]
    apply List.filter_congr
    intro field _
    by_cases hField : field.1 = name
    · simp [hField, Ne.symm hName]
    · simp [hField]
  have hNew : ((n, value).1 == name) = false :=
    beq_false_of_ne hName
  unfold values insert
  conv => rhs; rw [← hSplit]
  simp only [List.filter_append, List.filter_cons, hNew,
    hAfter, Bool.false_eq_true, if_false]

theorem values_insert_self
    (h : Headers)
    (name : HeaderName)
    (value : HeaderValue) :
    (h.insert name value).values name = [value] := by
  have hBefore :
      (h.fields.takeWhile (·.1 != name)).filter
        (·.1 == name) = [] := by
    rw [List.filter_eq_nil_iff]
    intro field hField
    simpa using List.mem_takeWhile_imp hField
  have hAfter :
      ((h.fields.dropWhile (·.1 != name)).filter
        (·.1 != name)).filter (·.1 == name) = [] := by
    rw [List.filter_filter, List.filter_eq_nil_iff]
    simp
  unfold values insert
  rw [List.filter_append, hBefore, List.nil_append,
    List.filter_cons, beq_self_eq_true, if_pos rfl, hAfter]
  rfl

theorem values_insert
    (h : Headers)
    (name n : HeaderName)
    (value : HeaderValue) :
    (h.insert n value).values name =
      if n = name then [value] else h.values name := by
  by_cases hName : n = name
  · subst hName
    rw [if_pos rfl, values_insert_self]
  · rw [if_neg hName, values_insert_of_ne hName]

/- A set with given values of one name. -/
def ofValues
    (name : HeaderName)
    (values : List HeaderValue) :
    Headers :=
  ⟨values.map fun value => (name, value)⟩

theorem values_ofValues
    (n name : HeaderName)
    (values : List HeaderValue) :
    (ofValues n values).values name =
      if n = name then values else [] := by
  unfold Headers.values ofValues
  rw [List.filter_map, List.map_map]
  by_cases hName : n = name
  · subst hName
    simp [Function.comp_def]
  · simp [Function.comp_def, hName]

/- The values given for a name, in order. -/
def registered
    (defaults : List (String × String))
    (name : HeaderName) :
    List HeaderValue :=
  defaults.filterMap fun (key, value) =>
    if HeaderName.parse? key = some name then
      HeaderValue.ofText? value
    else none

/- The values of the first source that has any. -/
def preferred :
    List (List HeaderValue) → List HeaderValue
  | [] => []
  | values :: rest =>
      if values = [] then preferred rest else values

theorem preferred_nil_cons
    (rest : List (List HeaderValue)) :
    preferred ([] :: rest) = preferred rest := rfl

theorem preferred_of_ne
    {first : List HeaderValue}
    (h : first ≠ [])
    (rest : List (List HeaderValue)) :
    preferred (first :: rest) = first :=
  if_neg h

theorem preferred_single (values : List HeaderValue) :
    preferred [values] = values := by
  by_cases h : values = []
  · subst h
    rfl
  · exact preferred_of_ne h []

theorem preferred_pair (first second : List HeaderValue) :
    preferred [first, second] =
      if first = [] then second else first := by
  by_cases h : first = []
  · rw [if_pos h, h, preferred_nil_cons, preferred_single]
  · rw [if_neg h, preferred_of_ne h]

/- Two choices, one after the other, are one of three. -/
theorem preferred_preferred
    (first second third : List HeaderValue) :
    preferred [preferred [first, second], third] =
      preferred [first, second, third] := by
  by_cases h : first = []
  · subst h
    rw [preferred_nil_cons, preferred_single,
      preferred_nil_cons]
  · rw [preferred_of_ne h, preferred_of_ne h,
      preferred_of_ne h]

end Headers

------------------------------------------------------------
-- Defaults of a Factory
------------------------------------------------------------

/- Readable values are added, and others are not. -/
theorem RequestDraft.append_readable
    (name : HeaderName)
    (values : List HeaderValue)
    (draft : RequestDraft) :
    Edit.all ((values.filterMap HeaderValue.text?).map
        (appendHeader name)) draft =
      ⟨{ draft with
          headers := draft.headers.appendAll
            (.ofValues name
              (values.filter HeaderValue.isReadable)) },
        [], .ok ()⟩ := by
  induction values generalizing draft with
  | nil =>
      simp [Edit.all, Edit.pure, Headers.appendAll,
        Headers.ofValues]
  | cons value rest ih =>
      have hSome := value.isSome_text?
      cases hText : value.text? with
      | none =>
          rw [hText, Option.isSome_none] at hSome
          rw [List.filterMap_cons_none hText,
            List.filter_cons_of_neg (by simp [← hSome])]
          exact ih draft
      | some text =>
          rw [hText, Option.isSome_some] at hSome
          have hRead :
              HeaderValue.read text = .ok value := by
            unfold HeaderValue.read
            rw [HeaderValue.ofText?_of_text? hText]
          have hAppend :
              appendHeader name text draft =
                ⟨{ draft with
                    headers :=
                      draft.headers.append name value },
                  [], .ok ()⟩ := by
            unfold appendHeader
            rw [hRead]
            rfl
          rw [List.filterMap_cons_some hText,
            List.filter_cons_of_pos hSome.symm]
          simp only [List.map_cons, Edit.all, Edit.bind,
            hAppend, ih]
          simp [Headers.append, Headers.appendAll,
            Headers.ofValues]

namespace Proxy

/- A default counts when a request has no value so far. -/
theorem addDefault_values
    {name : HeaderName}
    (hName : HeaderName.parse? name.text = some name)
    (values : List HeaderValue)
    (draft : RequestDraft) :
    ∃ headers,
      addDefault name (values.filterMap HeaderValue.text?)
          draft =
        ⟨{ draft with headers := headers }, [], .ok ()⟩ ∧
      ∀ n, headers.values n =
        Headers.preferred [draft.headers.values n,
          if name = n then
            values.filter HeaderValue.isReadable
          else []] := by
  have hContains := draft.headers.contains_iff name
  by_cases hSet : draft.headers.contains name = true
  · refine ⟨draft.headers, ?_, ?_⟩
    · unfold addDefault
      change Edit.bind Edit.get _ draft = _
      simp only [Edit.bind, Edit.get, hSet]
      rfl
    · intro n
      rw [Headers.preferred_pair]
      by_cases hn : name = n
      · subst hn
        rw [if_neg (hContains.1 hSet)]
      · rw [if_neg hn]
        split
        · next hNone => exact hNone
        · rfl
  · have hNone : draft.headers.values name = [] :=
      Decidable.byContradiction fun hValues =>
        hSet (hContains.2 hValues)
    have hRead : HeaderName.read name.text = .ok name := by
      unfold HeaderName.read
      rw [hName]
    refine ⟨draft.headers.appendAll (.ofValues name
      (values.filter HeaderValue.isReadable)), ?_, ?_⟩
    · have hAppend := RequestDraft.append_readable name
        values draft
      unfold addDefault
      change Edit.bind Edit.get _ draft = _
      simp only [Edit.bind, Edit.get, hSet]
      unfold RequestDraft.addHeader
      change Edit.bind (Edit.lift (HeaderName.read _)) _
        draft = _
      rw [hRead]
      simp only [Edit.bind, Edit.lift, hAppend,
        List.nil_append]
    · intro n
      rw [Headers.values_appendAll, Headers.values_ofValues,
        Headers.preferred_pair]
      by_cases hn : name = n
      · subst hn
        rw [if_pos rfl, if_pos hNone, hNone,
          List.nil_append]
      · rw [if_neg hn, List.append_nil]
        split
        · next hEmpty => exact hEmpty
        · rfl

/- Each default counts when there is none set before. -/
theorem addAll_values
    (defaults : Headers)
    (names : List HeaderName)
    (hNames : ∀ name ∈ names,
      HeaderName.parse? name.text = some name)
    (draft : RequestDraft) :
    ∃ headers,
      Edit.all (names.map fun name =>
          addDefault name ((defaults.values name).filterMap
            HeaderValue.text?)) draft =
        ⟨{ draft with headers := headers }, [], .ok ()⟩ ∧
      ∀ n, headers.values n =
        Headers.preferred [draft.headers.values n,
          if n ∈ names then
            (defaults.values n).filter
              HeaderValue.isReadable
          else []] := by
  induction names generalizing draft with
  | nil =>
      refine ⟨draft.headers, rfl, ?_⟩
      intro n
      rw [Headers.preferred_pair]
      split
      · next hNone => rw [hNone]; rfl
      · rfl
  | cons name rest ih =>
      have hName := hNames name (List.mem_cons_self ..)
      rcases addDefault_values hName (defaults.values name)
        draft with ⟨first, hFirst, hFirstValues⟩
      rcases ih
        (fun n hMem => hNames n (List.mem_cons_of_mem _ hMem))
        { draft with headers := first } with
        ⟨last, hLast, hLastValues⟩
      refine ⟨last, ?_, ?_⟩
      · simp only [List.map_cons, Edit.all, Edit.bind,
          hFirst, hLast, List.nil_append]
      · intro n
        rw [hLastValues, Headers.preferred_pair,
          Headers.preferred_pair, hFirstValues,
          Headers.preferred_pair]
        have hMem :
            n ∈ name :: rest ↔ name = n ∨ n ∈ rest := by
          rw [List.mem_cons, eq_comm]
        by_cases hOwn : draft.headers.values n = []
        · rw [if_pos hOwn, if_pos hOwn]
          by_cases hn : name = n
          · subst hn
            rw [if_pos rfl, if_pos (hMem.2 (.inl rfl))]
            split
            · next hNone => rw [hNone, ite_self]
            · rfl
          · rw [if_neg hn, if_pos rfl]
            simp only [hMem, hn, false_or]
        · rw [if_neg hOwn, if_neg hOwn, if_neg hOwn]

/- The defaults that a name has, when a request sets none. -/
theorem addDefaults_values
    (defaults : Headers)
    (hNames : ∀ name ∈ defaults.names,
      HeaderName.parse? name.text = some name)
    (draft : RequestDraft) :
    ∃ headers,
      addDefaults defaults draft =
        ⟨{ draft with headers := headers }, [], .ok ()⟩ ∧
      ∀ n, headers.values n =
        Headers.preferred [draft.headers.values n,
          (defaults.values n).filter
            HeaderValue.isReadable] := by
  rcases addAll_values defaults defaults.names hNames draft
    with ⟨headers, hAdded, hValues⟩
  refine ⟨headers, ?_, ?_⟩
  · unfold addDefaults Headers.grouped
    rw [List.map_map]
    exact hAdded
  · intro n
    rw [hValues]
    by_cases hMem : n ∈ defaults.names
    · rw [if_pos hMem]
    · have hNone : defaults.values n = [] :=
        Decidable.byContradiction fun hSome =>
          hMem ((defaults.mem_names n).2 hSome)
      rw [if_neg hMem, hNone, List.filter_nil]

end Proxy

------------------------------------------------------------
-- Defaults of a Client
------------------------------------------------------------

namespace Client

theorem values_mergeHeaders
    (defaults requested : Headers)
    (name : HeaderName) :
    (mergeHeaders defaults requested).values name =
      Headers.preferred
        [requested.values name, defaults.values name] := by
  unfold mergeHeaders
  rw [Headers.values_appendAll, Headers.values_removeAll,
    Headers.preferred_pair]
  by_cases hSet : requested.values name = []
  · have hNames : name ∉ requested.names :=
      fun hMem => (requested.mem_names name).1 hMem hSet
    rw [if_neg hNames, if_pos hSet, hSet, List.append_nil]
  · rw [if_pos ((requested.mem_names name).2 hSet),
      if_neg hSet, List.nil_append]

theorem values_addCookies
    {cookies : List (String × String)}
    {headers result : Headers}
    (h : addCookies cookies headers = .ok result)
    {name : HeaderName}
    (hName : name ≠ .cookie) :
    result.values name = headers.values name := by
  unfold addCookies at h
  split at h
  · cases h
    rfl
  · rcases Fallible.map_eq_ok h with ⟨value, _, hResult⟩
    rw [← hResult, Headers.values_append,
      if_neg (Ne.symm hName), List.append_nil]

theorem values_setMediaType
    {encoded : EncodedBody}
    {headers result : Headers}
    (h : setMediaType encoded headers = .ok result)
    {name : HeaderName}
    (hName : name ≠ .contentType) :
    result.values name = headers.values name := by
  unfold setMediaType at h
  split at h
  · cases h
    rw [Headers.values_remove, if_neg (Ne.symm hName)]
  · rcases Fallible.map_eq_ok h with ⟨value, _, hResult⟩
    rw [← hResult,
      Headers.values_insert_of_ne (Ne.symm hName)]

theorem values_assembleBody
    [KnownMedia]
    {body : RequestBody}
    {headers : Headers}
    {result : Headers × Option MessageBody}
    (h : assembleBody body headers = .ok result)
    {name : HeaderName}
    (hName : name ≠ .contentType) :
    result.1.values name = headers.values name := by
  unfold assembleBody at h
  rcases Fallible.bind_eq_ok h with ⟨encoded?, _, hRest⟩
  cases encoded? with
  | none =>
      cases hRest
      rfl
  | some encoded =>
      rcases Fallible.bind_eq_ok hRest with
        ⟨typed, hTyped, hResult⟩
      cases hResult
      exact values_setMediaType hTyped hName

variable [DomainNames]

/- What a request that is encoded has been made from. -/
theorem steps_of_encoded
    [KnownMedia]
    {client : Client}
    {values : RequestValues}
    {request : Request}
    (h : client.encoded values = .ok request) :
    ∃ headers,
      addCookies
          (mergeCookies client.defaultCookies
            values.cookies)
          (mergeHeaders client.defaultHeaders
            values.headers) = .ok headers ∧
        assembleBody values.body headers =
          .ok (request.headers, request.body) := by
  unfold encoded at h
  rcases Fallible.bind_eq_ok h with ⟨url, _, hHead⟩
  rcases Fallible.bind_eq_ok hHead with
    ⟨headers, hCookies, hTail⟩
  rcases Fallible.bind_eq_ok hTail with
    ⟨result, hBody, hRequest⟩
  cases hRequest
  exact ⟨headers, Fallible.mapError_eq_ok hCookies,
    Fallible.mapError_eq_ok hBody⟩

/- An encoded request has the URL of its target. -/
theorem url_of_encoded
    [KnownMedia]
    {client : Client}
    {values : RequestValues}
    {request : Request}
    (h : client.encoded values = .ok request) :
    client.resolveTarget values = .ok request.url := by
  unfold encoded at h
  rcases Fallible.bind_eq_ok h with ⟨url, hUrl, hHead⟩
  rcases Fallible.bind_eq_ok hHead with ⟨_, _, hTail⟩
  rcases Fallible.bind_eq_ok hTail with ⟨_, _, hRequest⟩
  cases hRequest
  exact Fallible.mapError_eq_ok hUrl

/- The header values of an encoded request. -/
theorem encoded_values
    [KnownMedia]
    {client : Client}
    {values : RequestValues}
    {request : Request}
    (h : client.encoded values = .ok request)
    {name : HeaderName}
    (hType : name ≠ .contentType)
    (hCookie : name ≠ .cookie) :
    request.headers.values name =
      Headers.preferred [values.headers.values name,
        client.defaultHeaders.values name] := by
  unfold encoded at h
  rcases Fallible.bind_eq_ok h with ⟨url, _, hHead⟩
  rcases Fallible.bind_eq_ok hHead with
    ⟨headers, hCookies, hTail⟩
  rcases Fallible.bind_eq_ok hTail with
    ⟨result, hBody, hRequest⟩
  cases hRequest
  have hCookies' := Fallible.mapError_eq_ok hCookies
  have hBody' := Fallible.mapError_eq_ok hBody
  change result.1.values name = _
  rw [values_assembleBody hBody' hType,
    values_addCookies hCookies' hCookie,
    values_mergeHeaders]

end Client

------------------------------------------------------------
-- Values of a Call
------------------------------------------------------------

theorem RequestDraft.build_headers
    {draft : RequestDraft}
    {values : RequestValues}
    (h : draft.build = .ok values) :
    values.headers = draft.headers := by
  unfold build at h
  split at h
  · cases h
  · dsimp only at h
    split at h
    · cases h
      rfl
    · split at h
      · split at h
        · cases h
          rfl
        · cases h
      · cases h
        rfl

/- The fields that a call sets itself. -/
def ServiceMethod.ownHeaders
    (method : ServiceMethod)
    (arguments : List Argument) :
    Headers :=
  (method.call arguments .empty).draft.headers

theorem Edit.draft_of_apply
    {edit : Edit Unit}
    {draft left : RequestDraft}
    (h : edit.apply draft = .ok left) :
    (edit draft).draft = left := by
  rcases Fallible.map_eq_ok h with ⟨_, _, hLeft⟩
  exact hLeft

/- To what a call leaves, a proxy only adds default headers. -/
theorem Proxy.drafted_eq
    {proxy : Proxy}
    (hProcessors : proxy.processors = [])
    (hNames : ∀ name ∈ proxy.defaultHeaders.names,
      HeaderName.parse? name.text = some name)
    {method : ServiceMethod}
    {arguments : List Argument}
    (hCount : method.checkCount arguments = .ok ())
    {draft : RequestDraft}
    (h : proxy.drafted method arguments = .ok draft) :
    ∃ headers,
      draft =
        { (method.call arguments .empty).draft with
          headers := headers } ∧
      ∀ name, headers.values name =
        Headers.preferred [
          (method.ownHeaders arguments).values name,
          (proxy.defaultHeaders.values name).filter
            HeaderValue.isReadable] := by
  unfold drafted at h
  rcases Fallible.bind_eq_ok h with
    ⟨declared, hDeclared, hRest⟩
  rcases Fallible.bind_eq_ok hRest with
    ⟨own, hOwn, hRest'⟩
  rcases Fallible.bind_eq_ok hRest' with
    ⟨completed, hCompleted, hLast⟩
  rw [hProcessors] at hLast
  cases hLast
  have hCalled :
      (method.call arguments .empty).draft = own := by
    have hCall := method.call_leaves arguments .empty
    rw [hCount] at hCall
    change _ = Except.mapError _
      (Stage.metadata.edit [method.declared] .empty >>= _)
      at hCall
    rw [hDeclared] at hCall
    change _ = Except.mapError _
      (Stage.contribution.edit _ declared) at hCall
    rw [hOwn] at hCall
    exact Edit.draft_of_apply hCall
  have hDefaults := Edit.leaves_single .defaultHeaders
    (addDefaults proxy.defaultHeaders) own
  rw [hCompleted] at hDefaults
  rcases addDefaults_values proxy.defaultHeaders hNames own
    with ⟨headers, hAdded, hValues⟩
  have hDraft := Edit.draft_of_apply hDefaults
  rw [hAdded] at hDraft
  unfold ServiceMethod.ownHeaders
  rw [hCalled]
  exact ⟨headers, hDraft.symm, hValues⟩

------------------------------------------------------------
-- Registered Defaults
------------------------------------------------------------

namespace Headers

/- What the next default adds to the values of a name. -/
theorem registered_cons
    {key value : String}
    {header : HeaderName}
    {v : HeaderValue}
    (hKey : HeaderName.parse? key = some header)
    (hValue : HeaderValue.ofText? value = some v)
    (rest : List (String × String))
    (headers : Headers)
    (name : HeaderName) :
    (headers.append header v).values name ++
        registered rest name =
      headers.values name ++
        registered ((key, value) :: rest) name := by
  rw [values_append]
  unfold registered
  by_cases hName : header = name
  · subst hName
    simp [hKey, hValue]
  · simp [hKey, hName]

/- The values of accepted defaults. -/
theorem values_appendDefaults
    {badValue : String → ServiceError}
    {defaults : List (String × String)}
    {headers result : Headers}
    (h : appendDefaults badValue headers defaults =
      .ok result)
    (name : HeaderName) :
    result.values name =
      headers.values name ++ registered defaults name := by
  induction defaults generalizing headers with
  | nil =>
      cases h
      exact (List.append_nil _).symm
  | cons entry rest ih =>
      unfold appendDefaults at h
      split at h
      · cases h
      · next hKey =>
          split at h
          · cases h
          · next hValue =>
              rw [ih h, registered_cons hKey hValue]

/- The names of accepted defaults are read as themselves. -/
theorem parse?_of_registered
    {defaults : List (String × String)}
    {name : HeaderName}
    (h : registered defaults name ≠ []) :
    HeaderName.parse? name.text = some name := by
  rcases List.exists_mem_of_ne_nil _ h with ⟨value, hMem⟩
  rcases List.mem_filterMap.1 hMem with
    ⟨⟨key, text⟩, _, hEntry⟩
  dsimp only at hEntry
  split at hEntry
  · next hKey => exact HeaderName.parse?_text hKey
  · cases hEntry

end Headers

------------------------------------------------------------
-- Deployments
------------------------------------------------------------

section

variable [DomainNames]

/- What is in a client that was built. -/
theorem ClientConfig.of_build
    {config : ClientConfig}
    {client : Client}
    (h : config.build = .ok client) :
    BaseUrl.parse? config.baseUrl = .ok client.base? ∧
      client.interceptors = config.allInterceptors ∧
      ∀ name,
        client.defaultHeaders.values name =
          Headers.registered config.defaultHeaders name := by
  unfold ClientConfig.build at h
  rcases Fallible.bind_eq_ok h with ⟨base?, hBase, hRest⟩
  rcases Fallible.bind_eq_ok hRest with
    ⟨headers, hHeaders, hRest'⟩
  rcases Fallible.bind_eq_ok hRest' with
    ⟨transport, _, hClient⟩
  rw [← Except.ok.inj hClient]
  exact ⟨hBase, rfl, fun name =>
    Headers.values_appendDefaults hHeaders name⟩

/- What is in a factory that was built. -/
theorem FactoryConfig.parts_of_build
    {config : FactoryConfig}
    {factory : ProxyFactory}
    (h : config.build = .ok factory) :
    config.adapter = some factory.adapter ∧
      factory.resolvers = Resolver.chain config.resolvers
        factory.adapter.supportsAttributes ∧
      factory.processors = config.processors ∧
      ∀ name,
        factory.defaultHeaders.values name =
          Headers.registered config.defaultHeaders name := by
  unfold build at h
  split at h
  · cases h
  · next adapter hAdapter =>
      obtain ⟨headers, hHeaders, hMade⟩ :=
        Fallible.bind_eq_ok h
      cases hMade
      exact ⟨hAdapter, rfl, rfl, fun name =>
        Headers.values_appendDefaults hHeaders name⟩

/- A proxy with the factory and the client it was made by. -/
structure Deployment [KnownMedia] where
  clientConfig : ClientConfig
  client : Client
  clientBuilt : clientConfig.build = .ok client
  factoryConfig : FactoryConfig
  overClient :
    factoryConfig.adapter = some (.ofClient client)
  factory : ProxyFactory
  factoryBuilt : factoryConfig.build = .ok factory
  serviceName : String
  service : ServiceDescriptor
  proxy : Proxy
  proxyMade :
    factory.proxyOf serviceName service = .ok proxy

end

namespace Deployment

variable [DomainNames] [KnownMedia]
variable (deployment : Deployment)

/- What a configuration hands on to its client. -/
theorem client_of_config :
    deployment.client.interceptors =
        deployment.clientConfig.allInterceptors ∧
      ∀ name,
        deployment.client.defaultHeaders.values name =
          Headers.registered
            deployment.clientConfig.defaultHeaders
            name :=
  (ClientConfig.of_build deployment.clientBuilt).2

theorem client_interceptors
    (h : deployment.clientConfig.interceptors = []) :
    deployment.client.interceptors = [] ∨
      deployment.client.interceptors = [.logging] := by
  rw [deployment.client_of_config.1]
  unfold ClientConfig.allInterceptors
  rw [h]
  cases deployment.clientConfig.logging with
  | false => exact .inl rfl
  | true => exact .inr rfl

/- What a factory hands on to its proxies. -/
theorem proxy_of_factory :
    deployment.proxy.adapter = .ofClient deployment.client ∧
      deployment.proxy.processors =
        deployment.factoryConfig.processors ∧
      ∀ name,
        deployment.proxy.defaultHeaders.values name =
          Headers.registered
            deployment.factoryConfig.defaultHeaders
            name := by
  obtain ⟨hAdapter, _, hProcessors, hHeaders⟩ :=
    FactoryConfig.parts_of_build deployment.factoryBuilt
  have hProxy := deployment.proxyMade
  unfold ProxyFactory.proxyOf at hProxy
  rcases Fallible.bind_eq_ok hProxy with
    ⟨methods, _, hCreated⟩
  rw [deployment.overClient] at hAdapter
  rw [← Except.ok.inj hCreated]
  exact ⟨(Option.some.inj hAdapter).symm, hProcessors,
    hHeaders⟩

end Deployment

/- Logging does not change what is sent. -/
theorem Interceptor.hooked_of_quiet
    {interceptors : List Interceptor}
    (h : interceptors = [] ∨ interceptors = [.logging])
    (context : RequestContext)
    (request : Request) :
    hooked context interceptors request = .ok request := by
  rcases h with hNone | hLogging
  · rw [hNone]
    rfl
  · rw [hLogging]
    rfl

/- The stages behind a request that was made. -/
theorem ProxyFunction.stages_of_request
    [DomainNames]
    [KnownMedia]
    {function : ProxyFunction}
    {client : Client}
    {proxy : Proxy}
    {name : String}
    {arguments : List Argument}
    {request : Request}
    (h : function.request client proxy name arguments =
      .ok request) :
    ∃ method draft values encoded,
      proxy.method name = .ok method ∧
      method.checkCount arguments = .ok () ∧
      proxy.drafted method arguments = .ok draft ∧
      draft.build = .ok values ∧
      client.encoded values = .ok encoded ∧
      Interceptor.hooked (Client.contextOf encoded)
        client.interceptors encoded = .ok request := by
  unfold ProxyFunction.request at h
  rcases Fallible.bind_eq_ok h with
    ⟨method, hMethod, hShape⟩
  rcases Fallible.bind_eq_ok hShape with ⟨_, _, hCount⟩
  rcases Fallible.bind_eq_ok hCount with
    ⟨_, hCounted, hDraft⟩
  rcases Fallible.bind_eq_ok hDraft with
    ⟨draft, hDrafted, hBuild⟩
  rcases Fallible.bind_eq_ok hBuild with
    ⟨values, hBuilt, hEncode⟩
  rcases Fallible.bind_eq_ok hEncode with
    ⟨encoded, hEncoded, hHooked⟩
  exact ⟨method, draft, values, encoded,
    Fallible.mapError_eq_ok hMethod,
    Fallible.mapError_eq_ok hCounted, hDrafted,
    Fallible.mapError_eq_ok hBuilt, hEncoded, hHooked⟩

namespace Headers

/-
  Without the values that are not readable the second of
  three sources still gives the same, exactly when these
  are not needed, or are none, or cannot be told from what
  takes their place.
-/
theorem preferred_filter_iff
    (own factory client : List HeaderValue) :
    preferred
          [own, factory.filter HeaderValue.isReadable,
            client] =
        preferred [own, factory, client] ↔
      own ≠ [] ∨
        (∀ value ∈ factory, value.isReadable = true) ∨
        ((∀ value ∈ factory, value.isReadable = false) ∧
          client = factory) := by
  by_cases hOwn : own = []
  · subst hOwn
    rw [preferred_nil_cons, preferred_nil_cons,
      preferred_pair, preferred_pair]
    simp only [ne_eq, not_true, false_or]
    by_cases hNone :
        factory.filter HeaderValue.isReadable = []
    · have hUnreadable :
          ∀ value ∈ factory, value.isReadable = false := by
        intro value hMem
        exact Bool.not_eq_true _ ▸
          List.filter_eq_nil_iff.1 hNone value hMem
      by_cases hFactory : factory = []
      · subst hFactory
        simp
      · rw [if_pos hNone, if_neg hFactory]
        constructor
        · intro hSame
          exact .inr ⟨hUnreadable, hSame⟩
        · rintro (hAll | hSame)
          · rw [List.filter_eq_self.2 hAll] at hNone
            exact absurd hNone hFactory
          · exact hSame.2
    · have hFactory : factory ≠ [] := by
        intro hEmpty
        subst hEmpty
        exact hNone rfl
      rw [if_neg hNone, if_neg hFactory]
      constructor
      · intro hSame
        exact .inl (List.filter_eq_self.1 hSame)
      · rintro (hAll | hSame)
        · exact List.filter_eq_self.2 hAll
        · refine absurd ?_ hNone
          apply List.filter_eq_nil_iff.2
          intro value hMem
          rw [hSame.1 value hMem]
          exact Bool.false_ne_true
  · rw [preferred_of_ne hOwn, preferred_of_ne hOwn]
    exact ⟨fun _ => .inl hOwn, fun _ => rfl⟩

end Headers

namespace Deployment

section

variable [DomainNames] [KnownMedia]
variable (deployment : Deployment)

/- What a request is encoded from that nothing changes. -/
theorem built_of_execution
    (hInterceptors :
      deployment.clientConfig.interceptors = [])
    (hProcessors : deployment.factoryConfig.processors = [])
    {function : ProxyFunction}
    {name : String}
    {method : ServiceMethod}
    (hMethod : deployment.proxy.method name = .ok method)
    {arguments : List Argument}
    {network : Network}
    {transport : Transport}
    {request : Request}
    (hSent : (transport, request) ∈
      (function.run deployment.proxy name arguments
        network).executions) :
    ∃ headers values,
      RequestDraft.build
          { (method.call arguments .empty).draft with
            headers := headers } = .ok values ∧
      deployment.client.encoded values = .ok request ∧
      ∀ header, headers.values header =
        Headers.preferred
          [(method.ownHeaders arguments).values header,
            (Headers.registered
              deployment.factoryConfig.defaultHeaders
              header).filter HeaderValue.isReadable] := by
  rcases deployment.proxy_of_factory with
    ⟨hAdapter, hMade, hFactory⟩
  have hDispatched := function.run_dispatches
    deployment.client deployment.proxy hAdapter name
    arguments
  rcases ProxyFunction.stages_of_request
    (hDispatched.eq_ok_of_sent hSent) with
    ⟨found, draft, values, encoded, hFound, hCount,
      hDraft, hBuild, hEncoded, hHooked⟩
  rw [hMethod] at hFound
  cases hFound
  rw [Interceptor.hooked_of_quiet
    (deployment.client_interceptors hInterceptors)] at hHooked
  cases hHooked
  have hNames :
      ∀ name ∈ deployment.proxy.defaultHeaders.names,
        HeaderName.parse? name.text = some name := by
    intro name hMem
    rw [Headers.mem_names, hFactory] at hMem
    exact Headers.parse?_of_registered hMem
  rcases Proxy.drafted_eq (hMade.trans hProcessors)
    hNames hCount hDraft with ⟨headers, rfl, hValues⟩
  refine ⟨headers, values, hBuild, hEncoded, ?_⟩
  intro header
  rw [hValues, hFactory]

/- The values that a request is sent with. -/
theorem values_of_execution
    (hInterceptors :
      deployment.clientConfig.interceptors = [])
    (hProcessors : deployment.factoryConfig.processors = [])
    {function : ProxyFunction}
    {name : String}
    {method : ServiceMethod}
    (hMethod : deployment.proxy.method name = .ok method)
    {arguments : List Argument}
    {network : Network}
    {transport : Transport}
    {request : Request}
    (hSent : (transport, request) ∈
      (function.run deployment.proxy name arguments
        network).executions)
    {header : HeaderName}
    (hType : header ≠ .contentType)
    (hCookie : header ≠ .cookie) :
    request.headers.values header =
      Headers.preferred
        [(method.ownHeaders arguments).values header,
          (Headers.registered
            deployment.factoryConfig.defaultHeaders
            header).filter HeaderValue.isReadable,
          Headers.registered
            deployment.clientConfig.defaultHeaders
            header] := by
  rcases deployment.built_of_execution hInterceptors
    hProcessors hMethod hSent with
    ⟨headers, values, hBuild, hEncoded, hValues⟩
  rw [Client.encoded_values hEncoded hType hCookie,
    RequestDraft.build_headers hBuild, hValues,
    deployment.client_of_config.2,
    Headers.preferred_preferred]

/-
  Of three layers the first that has values for a name gives
  all of them; but the second only counts as far as it is
  readable.  That loses nothing exactly when the call sets
  the header itself, or all defaults of the factory are
  readable, or none is and the client has the same.
-/
theorem headers_of_execution
    (hInterceptors :
      deployment.clientConfig.interceptors = [])
    (hProcessors : deployment.factoryConfig.processors = [])
    (function : ProxyFunction)
    (name : String)
    (method : ServiceMethod)
    (hMethod : deployment.proxy.method name = .ok method)
    (arguments : List Argument)
    (network : Network)
    (transport : Transport)
    (request : Request)
    (hSent : (transport, request) ∈
      (function.run deployment.proxy name arguments
        network).executions)
    (header : HeaderName)
    (hType : header ≠ .contentType)
    (hCookie : header ≠ .cookie) :
    let own := (method.ownHeaders arguments).values header
    let factory := Headers.registered
      deployment.factoryConfig.defaultHeaders header
    let client := Headers.registered
      deployment.clientConfig.defaultHeaders header
    request.headers.values header =
        Headers.preferred
          [own, factory.filter HeaderValue.isReadable,
            client] ∧
      (request.headers.values header =
          Headers.preferred [own, factory, client] ↔
        own ≠ [] ∨
          (∀ value ∈ factory, value.isReadable = true) ∨
          ((∀ value ∈ factory, value.isReadable = false) ∧
            client = factory)) := by
  intro own factory client
  have hValues :
      request.headers.values header =
        Headers.preferred
          [own, factory.filter HeaderValue.isReadable,
            client] :=
    deployment.values_of_execution hInterceptors hProcessors
      hMethod hSent hType hCookie
  refine ⟨hValues, ?_⟩
  rw [hValues]
  exact Headers.preferred_filter_iff own factory client

end

------------------------------------------------------------
-- A Lost Default
------------------------------------------------------------

open PlainNames CommonMedia

/- A client that sends a label by default. -/
def labellingClient : Client where
  base? := none
  defaultHeaders :=
    ⟨[(⟨"x-label"⟩, ⟨Text.encode "client"⟩)]⟩
  defaultCookies := []
  interceptors := []
  transport := .given

/- A method that takes its target. -/
def listMethod : ServiceMethod where
  service := "Items"
  name := "list"
  method := some .get
  url := ""
  contentType := none
  accept := []
  binders := [Resolver.contributeUri]
  returns := .nothing

/- A factory whose own label is not readable. -/
def accented : Deployment where
  clientConfig :=
    { ClientConfig.ofSettings (.standard none) with
      defaultHeaders := [("X-Label", "client")]
      transport := some .given }
  client := labellingClient
  clientBuilt := rfl
  factoryConfig :=
    (FactoryConfig.ofAdapter (.ofClient
      labellingClient)).addHeader "X-Label" "é"
  overClient := rfl
  factory :=
    { adapter := .ofClient labellingClient
      resolvers := Resolver.chain [] true
      processors := []
      defaultHeaders :=
        ⟨[(⟨"x-label"⟩, ⟨Text.encode "é"⟩)]⟩
      embeddedValues := none }
  factoryBuilt := rfl
  serviceName := "Items"
  service :=
    { ServiceDescriptor.empty with
      methods :=
        [{ MethodDescriptor.bare "list" with
            method := some .get
            parameters := [⟨0, none, .uri, none⟩] }] }
  proxy :=
    { service := "Items"
      methods := [listMethod]
      adapter := .ofClient labellingClient
      processors := []
      defaultHeaders :=
        ⟨[(⟨"x-label"⟩, ⟨Text.encode "é"⟩)]⟩ }
  proxyMade := rfl

/- The request that the client makes. -/
def labelledRequest : Request where
  method := .get
  url := ProxyFunction.remoteTarget
  headers := ⟨[(⟨"x-label"⟩, ⟨Text.encode "client"⟩)]⟩
  body := none

theorem labelledRequest_sent :
    (Transport.given, labelledRequest) ∈
      (ProxyFunction.exchange.run accented.proxy "list"
        [.uri ProxyFunction.remoteTarget]
        (fun _ _ => .ok ⟨200, .empty, []⟩)).executions := by
  exact List.mem_singleton.2 rfl

/- The label of the client takes the place of the lost one. -/
theorem headers_of_accented :
    labelledRequest.headers.values ⟨"x-label"⟩ =
        [⟨Text.encode "client"⟩] ∧
      labelledRequest.headers.values ⟨"x-label"⟩ ≠
        Headers.preferred
          [(listMethod.ownHeaders
              [.uri ProxyFunction.remoteTarget]).values
              ⟨"x-label"⟩,
            Headers.registered
              accented.factoryConfig.defaultHeaders
              ⟨"x-label"⟩,
            Headers.registered
              accented.clientConfig.defaultHeaders
              ⟨"x-label"⟩] := by
  have hSent := headers_of_execution accented rfl rfl
    .exchange "list" listMethod rfl
    [.uri ProxyFunction.remoteTarget]
    (fun _ _ => .ok ⟨200, .empty, []⟩) .given
    labelledRequest labelledRequest_sent ⟨"x-label"⟩
    (by decide) (by decide)
  refine ⟨hSent.1, ?_⟩
  intro hSame
  rcases hSent.2.1 hSame with hOwn | hReadable | hNone
  · exact hOwn rfl
  · exact absurd (hReadable _ (List.mem_singleton.2 rfl))
      (by decide)
  · exact absurd hNone.2 (by decide)

/- Not every accepted default is sent. -/
theorem defaults_not_always_sent :
    ¬∀ (deployment : Deployment)
        (function : ProxyFunction)
        (name : String)
        (method : ServiceMethod)
        (arguments : List Argument)
        (network : Network)
        (transport : Transport)
        (request : Request)
        (header : HeaderName),
      deployment.clientConfig.interceptors = [] →
      deployment.factoryConfig.processors = [] →
      deployment.proxy.method name = .ok method →
      (transport, request) ∈
        (function.run deployment.proxy name arguments
          network).executions →
      header ≠ .contentType →
      header ≠ .cookie →
      request.headers.values header =
        Headers.preferred
          [(method.ownHeaders arguments).values header,
            Headers.registered
              deployment.factoryConfig.defaultHeaders
              header,
            Headers.registered
              deployment.clientConfig.defaultHeaders
              header] := by
  intro hAll
  have hSame := hAll accented .exchange "list" listMethod
    [.uri ProxyFunction.remoteTarget]
    (fun _ _ => .ok ⟨200, .empty, []⟩) .given
    labelledRequest ⟨"x-label"⟩ rfl rfl rfl
    labelledRequest_sent (by decide) (by decide)
  exact absurd hSame (by decide)

end Deployment

end ServiceCalls
