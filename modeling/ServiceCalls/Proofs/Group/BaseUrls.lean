import ServiceCalls.Proofs.Calls.HeaderPrecedence
import ServiceCalls.Proofs.Group.Registrations
import ServiceCalls.Proofs.Template.Origin

/-
  Base URLs that a registry has, and those that it uses.

  The base URL of a group is kept twice: by the group, which
  never changes it, and by the configuration of its client,
  which may be changed until the registry is built.  Requests
  with relative targets go where the client says.  That is
  what the registry says, too, as long as nothing that
  configures the client sets another base URL.

  Key definitions include:
    * `History.clientConfig`
    * `Proxy.SendsUnder`

  Main declarations:
    * `Proxy.sendsUnder_of_adapter`
    * `History.client_group`
    * `Assembly.bases_of_build`
-/

namespace ServiceCalls

------------------------------------------------------------
-- Configurations
------------------------------------------------------------

/- What all steps of a configuration keep is kept. -/
theorem view_of_configured
    {α β : Type}
    {view : α → β}
    {configurers : List (α → α)}
    (h : ∀ configure ∈ configurers,
      ∀ config, view (configure config) = view config)
    (config : α) :
    view (configurers.foldl
        (fun config configure => configure config) config) =
      view config := by
  induction configurers generalizing config with
  | nil => rfl
  | cons first rest ih =>
      rw [List.forall_mem_cons] at h
      rw [List.foldl_cons, ih h.2, h.1]

/- A base URL has the text that it was read from. -/
theorem BaseUrl.text_of_parse?
    [DomainNames]
    {text? : Option String}
    {base? : Option BaseUrl}
    (h : parse? text? = .ok base?) :
    base?.map BaseUrl.text = text? := by
  cases text? with
  | none =>
      cases h
      rfl
  | some text =>
      obtain ⟨base, hBase, rfl⟩ := Fallible.map_eq_ok h
      unfold parse at hBase
      split at hBase
      · cases hBase
        rfl
      · cases hBase

/- A client has the base URL that it was configured with. -/
theorem ClientConfig.baseUrl_of_build
    [DomainNames]
    {config : ClientConfig}
    {client : Client}
    (h : config.build = .ok client) :
    client.baseUrl? = config.baseUrl :=
  BaseUrl.text_of_parse? (of_build h).1

------------------------------------------------------------
-- Requests Under a Base
------------------------------------------------------------

namespace Proxy

variable [DomainNames]

/-
  Calls of a proxy send requests under a base URL: whenever
  the target of a call is relative, its request leads to the
  text of the target under that base, until interceptors of
  the client change it.
-/
def SendsUnder
    (proxy : Proxy)
    (client : Client)
    (baseUrl? : Option String) :
    Prop :=
  ∀ (function : ProxyFunction)
    (name : String)
    (method : ServiceMethod)
    (arguments : List Argument)
    (network : Network)
    (transport : Transport)
    (request : Request)
    (values : RequestValues)
    (template text : String),
    (transport, request) ∈
      (function.run proxy name arguments
        network).executions →
    proxy.method name = .ok method →
    (proxy.prepare method arguments network).result =
      .ok values →
    values.target = some (.template template) →
    UriTemplate.expandText template values.variables =
      .ok text →
    (∀ own, ¬UriTemplate.IsAbsolute text own) →
    ∃ (base : BaseUrl) (encoded : Request),
      baseUrl? = some base.text ∧
      UriTemplate.resolveUnder (some base) text =
        .ok encoded.url ∧
      Interceptor.hooked (Client.contextOf encoded)
        client.interceptors encoded = .ok request

/- What is resolved under the base of a client has one. -/
theorem exists_base_of_resolveUnder
    {base? : Option BaseUrl}
    {text : String}
    {url : Url}
    (h : UriTemplate.resolveUnder base? text = .ok url) :
    ∃ base,
      base? = some base ∧
      UriTemplate.resolveUnder (some base) text =
        .ok url := by
  cases base? with
  | none => cases h
  | some base => exact ⟨base, rfl, h⟩

/- Requests go where the client of the adapter says. -/
theorem sendsUnder_of_adapter
    [KnownMedia]
    {proxy : Proxy}
    {client : Client}
    (hAdapter : proxy.adapter = .ofClient client) :
    proxy.SendsUnder client client.baseUrl? := by
  intro function name method arguments network transport
    request values template text hSent hMethod hValues
    hTarget hText hRelative
  have hDispatched := function.run_dispatches client proxy
    hAdapter name arguments
  obtain ⟨found, draft, built, encoded, hFound, hCount,
      hDraft, hBuild, hEncoded, hHooked⟩ :=
    ProxyFunction.stages_of_request
      (hDispatched.eq_ok_of_sent hSent)
  rw [hMethod] at hFound
  cases hFound
  have hPrepared :=
    (proxy.prepare_yields method arguments network).2
  rw [hCount, hDraft] at hPrepared
  change _ = (Stage.build.run draft.build).mapError _
    at hPrepared
  rw [Stage.mapError_run, hBuild, hValues] at hPrepared
  cases hPrepared
  have hUrl := Client.url_of_encoded hEncoded
  unfold Client.resolveTarget at hUrl
  rw [hTarget] at hUrl
  change (UriTemplate.expandText template values.variables >>=
    UriTemplate.resolve client.base?) = _ at hUrl
  rw [hText] at hUrl
  change UriTemplate.resolve client.base? text = _ at hUrl
  rw [UriTemplate.resolve_of_relative hRelative] at hUrl
  obtain ⟨base, hBase, hUnder⟩ :=
    exists_base_of_resolveUnder hUrl
  refine ⟨base, encoded, ?_, hUnder, hHooked⟩
  unfold Client.baseUrl?
  rw [hBase]
  rfl

end Proxy

------------------------------------------------------------
-- Base URLs of Groups
------------------------------------------------------------

/- What a step asks of the client of a group. -/
def GroupStep.clientConfigurer? :
    GroupStep → Option (ClientConfig → ClientConfig)
  | .configureClient configure => some configure
  | .addTypes _ => none
  | .discover _ _ _ => none
  | .configureFactory _ => none

namespace Group

theorem baseUrl_perform (group : Group) (step : GroupStep) :
    (group.perform step).baseUrl = group.baseUrl := by
  cases step <;> rfl

/- No step changes the base URL that a group has. -/
theorem baseUrl_performAll
    (group : Group)
    (steps : List GroupStep) :
    (group.performAll steps).baseUrl = group.baseUrl := by
  induction steps generalizing group with
  | nil => rfl
  | cons step rest ih =>
      exact (ih (group.perform step)).trans
        (baseUrl_perform group step)

theorem client_performAll
    (group : Group)
    (steps : List GroupStep) :
    (group.performAll steps).client =
      (steps.filterMap GroupStep.clientConfigurer?).foldl
        (fun config configure => configure config)
        group.client := by
  induction steps generalizing group with
  | nil => rfl
  | cons step rest ih =>
      change ((group.perform step).performAll rest).client = _
      rw [ih]
      cases step <;> rfl

end Group

namespace History

/- The configuration that a group makes its client from. -/
def clientConfig
    (history : History)
    (template : ClientConfig) :
    ClientConfig :=
  ((history.taken template).filterMap
      GroupStep.clientConfigurer?).foldl
    (fun config configure => configure config)
    (template.withBaseUrl history.founding.baseUrl)

theorem name_group
    (history : History)
    (template : ClientConfig) :
    (history.group template).name =
      history.founding.name := by
  rw [group_eq_performAll, Group.name_performAll]
  rfl

theorem baseUrl_group
    (history : History)
    (template : ClientConfig) :
    (history.group template).baseUrl =
      history.founding.baseUrl := by
  rw [group_eq_performAll, Group.baseUrl_performAll]
  rfl

/- All that configures the client starts from the template. -/
theorem client_group
    (history : History)
    (template : ClientConfig) :
    (history.group template).client =
      history.clientConfig template := by
  rw [group_eq_performAll, Group.client_performAll]
  rfl

end History

------------------------------------------------------------
-- Registries and Their Clients
------------------------------------------------------------

namespace Assembly

/- Each group of a registry was made from one by steps. -/
theorem exists_history_of_build
    [DomainNames]
    [KnownMedia]
    {template : ClientConfig}
    {steps : List AssemblyStep}
    {assembly : Assembly}
    (hSteps : (ofTemplate template).performAll steps =
      .ok assembly)
    {network : Network}
    {registry : Registry}
    (hBuild : (assembly.build network).result =
      .ok registry)
    {made : ProxyGroup}
    (hMem : made ∈ registry.groups) :
    ∃ history ∈ histories steps,
      made.name = history.founding.name ∧
      made.baseUrl = history.founding.baseUrl ∧
      ((history.group template).createProxies
        network).result = .ok made.entries := by
  obtain ⟨groups, hGroups, hNext⟩ := Run.bind_eq_ok hBuild
  obtain ⟨_, _, hRegistry⟩ := Run.bind_eq_ok hNext
  cases hRegistry
  rw [result_createGroups] at hGroups
  obtain ⟨group, hGroup, hMade⟩ :=
    Fallible.exists_of_mem_mapM hGroups hMem
  obtain ⟨entries, hEntries, rfl⟩ :=
    Fallible.map_eq_ok hMade
  have hHistories :
      assembly.groups =
        (histories steps).map (History.group · template) :=
    performAll_groups hSteps
  rw [hHistories] at hGroup
  obtain ⟨history, hHistory, rfl⟩ := List.mem_map.mp hGroup
  exact ⟨history, hHistory, history.name_group template,
    history.baseUrl_group template, hEntries⟩

/-
  A registry says of each group the base URL that it was
  added with.  Requests with relative targets go where the
  client is configured to, once all steps have been taken,
  provided that nothing gives the factory another adapter.
  Both are the same if no step sets another base URL.
-/
theorem bases_of_build
    [DomainNames]
    [KnownMedia]
    {template : ClientConfig}
    {steps : List AssemblyStep}
    {assembly : Assembly}
    (hSteps : (ofTemplate template).performAll steps =
      .ok assembly)
    {network : Network}
    {registry : Registry}
    (hBuild : (assembly.build network).result =
      .ok registry) :
    ∀ group ∈ registry.groups, ∃ history ∈ histories steps,
      let config := history.clientConfig template
      let taken := history.taken template
      group.name = history.founding.name ∧
      group.baseUrl = history.founding.baseUrl ∧
      (∃ client,
        config.build = .ok client ∧
        client.baseUrl? = config.baseUrl ∧
        ((∀ configure ∈
            taken.filterMap GroupStep.factoryConfigurer?,
          ∀ factory : FactoryConfig,
            (configure factory).adapter = factory.adapter) →
          ∀ entry ∈ group.entries,
            entry.proxy.SendsUnder client config.baseUrl)) ∧
      ((∀ configure ∈
          taken.filterMap GroupStep.clientConfigurer?,
        ∀ client : ClientConfig,
          (configure client).baseUrl = client.baseUrl) →
        config.baseUrl = some group.baseUrl) := by
  intro group hMem
  obtain ⟨history, hHistory, hName, hBaseUrl, hEntries⟩ :=
    exists_history_of_build hSteps hBuild hMem
  obtain ⟨client, factory, hClient, hFactory, hAdapters⟩ :=
    Group.exists_factory_of_mem hEntries
  rw [history.client_group template] at hClient
  have hBase := ClientConfig.baseUrl_of_build hClient
  refine ⟨history, hHistory, hName, hBaseUrl,
    ⟨client, hClient, hBase, ?_⟩, ?_⟩
  · intro hKept entry hEntry
    rw [← history.configurers_group template] at hKept
    have hAdapter := view_of_configured hKept
      (.ofAdapter (.ofClient client))
    have hOver := (FactoryConfig.parts_of_build hFactory).1
    have hSame := hOver.symm.trans hAdapter
    rw [← hBase]
    apply Proxy.sendsUnder_of_adapter
    rw [hAdapters entry hEntry]
    exact Option.some.inj hSame
  · intro hKept
    rw [hBaseUrl]
    exact view_of_configured hKept
      (template.withBaseUrl history.founding.baseUrl)

------------------------------------------------------------
-- A Group That Is Sent Elsewhere
------------------------------------------------------------

/- A configuration with a transport of its own. -/
def givenTemplate : ClientConfig :=
  { ClientConfig.ofSettings (.standard none) with
    transport := some .given }

/- A group whose client is given another base URL. -/
def redirected : List AssemblyStep :=
  [.addGroup none "http://a"
      [.addTypes [singleType "Users" "/users"]],
    .current (.configureClient (·.withBaseUrl "http://b"))]

/- The request that a call on the group sends. -/
def redirectedRequest : Request where
  method := .get
  url :=
    { scheme := "http"
      authority := some ⟨"", none, .name "b", none⟩
      path := .segments ["users"]
      query := none
      fragment := none }
  headers := .empty
  body := none

/- A network on which all goes well. -/
def kindNetwork : Network :=
  fun _ _ => .ok ⟨200, .empty, []⟩

/- What a group says, and what a call on it does. -/
structure GroupCall where
  baseUrl : String
  sent : List (Transport × Request)
  target : Option Target
  «variables» : List (String × String)
deriving DecidableEq, Repr

/- A call without arguments on a proxy of a group. -/
def callOf (group : ProxyGroup) (entry : ProxyEntry) :
    Except ServiceError GroupCall := do
  let method ← entry.proxy.method "list"
  let values ←
    (entry.proxy.prepare method [] kindNetwork).result
  return {
    baseUrl := group.baseUrl
    sent := (ProxyFunction.exchange.run entry.proxy "list" []
      kindNetwork).executions
    target := values.target
    «variables» := values.variables }

open PlainNames CommonMedia

theorem calls_of_redirected :
    ((ofTemplate givenTemplate).performAll redirected >>=
        fun assembly =>
          (assembly.build kindNetwork).result >>=
            fun registry => registry.groups.mapM fun group =>
              group.entries.mapM (callOf group)) =
      .ok [[⟨"http://a", [(.given, redirectedRequest)],
        some (.template "/users"), []⟩]] :=
  Fallible.eq_ok_of_toOption (by decide +kernel)

/- The one call on the group, with all that leads to it. -/
theorem exists_call_of_redirected :
    ∃ assembly registry group entry method values,
      (ofTemplate givenTemplate).performAll redirected =
        .ok assembly ∧
      (assembly.build kindNetwork).result = .ok registry ∧
      group ∈ registry.groups ∧
      entry ∈ group.entries ∧
      group.baseUrl = "http://a" ∧
      entry.proxy.method "list" = .ok method ∧
      (entry.proxy.prepare method [] kindNetwork).result =
        .ok values ∧
      values.target = some (.template "/users") ∧
      values.variables = [] ∧
      (Transport.given, redirectedRequest) ∈
        (ProxyFunction.exchange.run entry.proxy "list" []
          kindNetwork).executions := by
  obtain ⟨assembly, hSteps, hRest⟩ :=
    Fallible.bind_eq_ok calls_of_redirected
  obtain ⟨registry, hBuild, hGroups⟩ :=
    Fallible.bind_eq_ok hRest
  obtain ⟨group, hGroup, hCalls⟩ :=
    Fallible.exists_of_mem_mapM hGroups
      (List.mem_singleton_self _)
  obtain ⟨entry, hEntry, hCall⟩ :=
    Fallible.exists_of_mem_mapM hCalls
      (List.mem_singleton_self _)
  obtain ⟨method, hMethod, hNext⟩ := Fallible.bind_eq_ok hCall
  obtain ⟨values, hValues, hMade⟩ := Fallible.bind_eq_ok hNext
  obtain ⟨hReported, hSent, hTarget, hNames⟩ :=
    (GroupCall.mk.injEq ..).mp (Except.ok.inj hMade)
  refine ⟨assembly, registry, group, entry, method, values,
    hSteps, hBuild, hGroup, hEntry, hReported, hMethod,
    hValues, hTarget, hNames, ?_⟩
  rw [hSent]
  exact List.mem_singleton_self _

/- The group is at one base URL, its requests at another. -/
theorem bases_of_redirected :
    ∃ assembly registry,
      (ofTemplate givenTemplate).performAll redirected =
        .ok assembly ∧
      (assembly.build kindNetwork).result = .ok registry ∧
      ∀ group ∈ registry.groups,
        group.baseUrl = "http://a" ∧
        ∃ client,
          client.baseUrl? = some "http://b" ∧
          ∀ entry ∈ group.entries,
            entry.proxy.SendsUnder client
              (some "http://b") := by
  obtain ⟨assembly, hSteps, hRest⟩ :=
    Fallible.bind_eq_ok calls_of_redirected
  obtain ⟨registry, hBuild, _⟩ := Fallible.bind_eq_ok hRest
  refine ⟨assembly, registry, hSteps, hBuild, ?_⟩
  intro group hMem
  obtain ⟨history, hHistory, _, hBaseUrl,
      ⟨client, _, hClient, hSends⟩, _⟩ :=
    bases_of_build hSteps hBuild group hMem
  rw [List.mem_singleton.mp hHistory] at hBaseUrl hClient hSends
  exact ⟨hBaseUrl, client, hClient,
    hSends fun configure hSome => nomatch hSome⟩

theorem target_of_redirected :
    UriTemplate.expandText "/users" [] = .ok "/users" ∧
      (Url.parse "/users").toOption = none ∧
      (Url.parse (String.ofList (joinUrl "http://a".toList
        "/users".toList))).toOption ≠
          some redirectedRequest.url :=
  ⟨Fallible.eq_ok_of_toOption (by decide +kernel),
    by decide +kernel, by decide +kernel⟩

/- Requests do not always go where the registry says. -/
theorem requests_not_always_reported :
    ¬∀ (template : ClientConfig)
        (steps : List AssemblyStep)
        (assembly : Assembly)
        (network : Network)
        (registry : Registry),
      (ofTemplate template).performAll steps =
        .ok assembly →
      (assembly.build network).result = .ok registry →
      ∀ group ∈ registry.groups,
        ∀ history ∈ histories steps,
          history.founding.name = group.name →
          (history.taken template).filterMap
            GroupStep.factoryConfigurer? = [] →
          ∀ client,
            (history.clientConfig template).build =
              .ok client →
            ∀ entry ∈ group.entries,
              entry.proxy.SendsUnder client
                (some group.baseUrl) := by
  intro hAll
  obtain ⟨assembly, registry, group, entry, method, values,
      hSteps, hBuild, hGroup, hEntry, hReported, hMethod,
      hValues, hTarget, hNames, hSent⟩ :=
    exists_call_of_redirected
  obtain ⟨history, hHistory, hName, _, hEntries⟩ :=
    exists_history_of_build hSteps hBuild hGroup
  obtain ⟨client, _, hClient, _⟩ :=
    Group.exists_factory_of_mem hEntries
  rw [history.client_group] at hClient
  have hSends := hAll givenTemplate redirected assembly
    kindNetwork registry hSteps hBuild group hGroup history
    hHistory hName.symm
  cases List.mem_singleton.mp hHistory
  obtain ⟨hText, hNone, hElsewhere⟩ := target_of_redirected
  rw [← hNames] at hText
  have hRelative (own : Url) :
      ¬UriTemplate.IsAbsolute "/users" own := by
    rintro ⟨hParse, _⟩
    rw [hParse] at hNone
    cases hNone
  obtain ⟨base, encoded, hBase, hUnder, hHooked⟩ :=
    hSends rfl client hClient entry hEntry .exchange "list"
      method [] kindNetwork .given redirectedRequest values
      "/users" "/users" hSent hMethod hValues hTarget hText
      hRelative
  -- No interceptor stands between the text and the request.
  rw [(ClientConfig.of_build hClient).2.1] at hHooked
  cases Except.ok.inj hHooked
  rw [hReported, Option.some_inj] at hBase
  apply hElsewhere
  unfold UriTemplate.resolveUnder at hUnder
  dsimp only at hUnder
  rw [← hBase] at hUnder
  rw [Fallible.mapError_eq_ok hUnder]
  rfl

end Assembly

end ServiceCalls
