import Mathlib.Data.List.Nodup
import ServiceCalls.ProxyFactory
import ServiceCalls.Proofs.Binding.BuiltIn
import ServiceCalls.Proofs.Fallible
import ServiceCalls.Proofs.Template.EmbeddedText

/-
  Which declarations proxies are made from.

  A method is ready if it declares how it is exchanged, if
  each of its parameters is bound by the first resolver that
  does not decline it, and if its URLs can be resolved.  A
  proxy is made when all methods are ready and have names of
  their own, and has these methods and no others.

  Key definitions include:
    * `Resolver.Chooses`
    * `MethodDescriptor.Ready`

  Main declarations:
    * `Resolver.firstOf_eq_some_iff`
    * `ServiceMethod.exists_ofDescriptor_iff`
    * `ProxyFactory.prepareMethods_eq_ok_iff`
    * `ProxyFactory.created_iff`
-/

namespace ServiceCalls

/- All that a rule misses is a name to go by. -/
theorem ValueRule.failsOnly_bind
    (rule : ValueRule)
    (value : NamedValue)
    (parameter : Parameter) :
    Fallible.FailsOnly (·.isConfiguration = true)
      (rule.bind value parameter) := by
  unfold ValueRule.bind
  split
  · exact Fallible.failsOnly_ok _
  · refine Fallible.failsOnly_map ?_ _
    unfold ValueRule.effectiveName
    split
    · split
      · exact Fallible.failsOnly_ok _
      · exact Fallible.failsOnly_error rfl
    · exact Fallible.failsOnly_ok _

------------------------------------------------------------
-- Chains of Resolvers
------------------------------------------------------------

namespace Resolver

/- The first resolver that does not decline binds. -/
def Chooses
    (resolvers : List Resolver)
    (parameter : Parameter)
    (binder : Binder) :
    Prop :=
  ∃ declining resolver rest,
    resolvers = declining ++ resolver :: rest ∧
    (∀ other ∈ declining, other parameter = .ok none) ∧
    resolver parameter = .ok (some binder)

theorem firstOf_eq_some_iff
    (resolvers : List Resolver)
    (parameter : Parameter)
    (binder : Binder) :
    firstOf resolvers parameter = .ok (some binder) ↔
      Chooses resolvers parameter binder := by
  constructor
  · intro h
    induction resolvers with
    | nil => cases h
    | cons resolver rest ih =>
        unfold firstOf at h
        split at h
        · next hDeclines =>
            obtain ⟨declining, chosen, others, hSplit,
              hAll, hBinds⟩ := ih h
            refine ⟨resolver :: declining, chosen, others,
              ?_, ?_, hBinds⟩
            · rw [hSplit, List.cons_append]
            · exact List.forall_mem_cons.mpr
                ⟨hDeclines, hAll⟩
        · exact ⟨[], resolver, rest, rfl,
            fun _ hMem => (nomatch hMem), h⟩
  · rintro ⟨declining, resolver, rest, hSplit, hAll, hBinds⟩
    subst hSplit
    induction declining with
    | nil =>
        rw [List.nil_append, firstOf, hBinds]
    | cons other more ih =>
        rw [List.forall_mem_cons] at hAll
        rw [List.cons_append, firstOf, hAll.1]
        exact ih hAll.2

theorem failsOnly_byType
    [DomainNames]
    (parameter : Parameter) :
    Fallible.FailsOnly (·.isConfiguration = true)
      (byType parameter) := by
  unfold byType
  split
  · exact Fallible.failsOnly_ok _
  · exact Fallible.failsOnly_ok _
  · exact Fallible.failsOnly_map
      (ValueRule.file.failsOnly_bind .unnamed parameter) some
  · exact Fallible.failsOnly_ok none

theorem failsOnly_chain
    [DomainNames]
    (supports : Bool)
    (parameter : Parameter) :
    Fallible.FailsOnly (·.isConfiguration = true)
      (firstOf (chain [] supports) parameter) := by
  rw [firstOf_chain]
  unfold byBinding
  split
  · exact failsOnly_byType parameter
  · exact Fallible.failsOnly_ok _
  · next role value _ =>
      split
      · exact failsOnly_byType parameter
      · exact Fallible.failsOnly_map
          (role.rule.failsOnly_bind value parameter) some

end Resolver

------------------------------------------------------------
-- Methods That Are Ready
------------------------------------------------------------

/-
  A method with a request method or a parameter for it, with
  a binder for each parameter, and with URLs that resolve.
-/
structure MethodDescriptor.Ready
    (resolvers : List Resolver)
    (values? : Option EmbeddedValues)
    (service : ServiceDescriptor)
    (descriptor : MethodDescriptor) :
    Prop where
  exchange :
    descriptor.method ≠ none ∨
      ∃ parameter ∈ descriptor.parameters,
        parameter.type = .method
  bound :
    ∀ parameter ∈ descriptor.parameters,
      ∃ binder, Resolver.Chooses resolvers parameter binder
  serviceUrl :
    ∀ values, values? = some values →
      ∀ url, service.url = some url →
        EmbeddedText.Resolvable values url
  methodUrl :
    ∀ values, values? = some values →
      ∀ url, descriptor.url = some url →
        EmbeddedText.Resolvable values url

theorem MethodDescriptor.declaresExchange_iff
    (descriptor : MethodDescriptor) :
    descriptor.declaresExchange = true ↔
      descriptor.method ≠ none ∨
        ∃ parameter ∈ descriptor.parameters,
          parameter.type = .method := by
  unfold declaresExchange
  simp [Option.isSome_iff_ne_none]

namespace ServiceMethod

variable {resolvers : List Resolver}
variable {values? : Option EmbeddedValues}
variable {serviceName : String}
variable {service : ServiceDescriptor}
variable {descriptor : MethodDescriptor}

theorem findBinder_eq_ok_iff
    (resolvers : List Resolver)
    (serviceName name : String)
    (parameter : Parameter)
    (binder : Binder) :
    findBinder resolvers serviceName name parameter =
        .ok binder ↔
      Resolver.firstOf resolvers parameter =
        .ok (some binder) := by
  unfold findBinder
  split
  · next hFirst => simp [hFirst]
  · next hFirst => simp [hFirst]
  · next hFirst => simp [hFirst]

theorem exists_fullUrl_iff
    (values? : Option EmbeddedValues)
    (first second : Option String) :
    (∃ url, fullUrl values? first second = .ok url) ↔
      (∃ text, resolveEmbedded values? first = .ok text) ∧
        ∃ text, resolveEmbedded values? second = .ok text := by
  constructor
  · rintro ⟨url, hUrl⟩
    obtain ⟨one, hFirst, hNext⟩ := Fallible.bind_eq_ok hUrl
    obtain ⟨two, hSecond, _⟩ := Fallible.bind_eq_ok hNext
    exact ⟨⟨one, hFirst⟩, two, hSecond⟩
  · rintro ⟨⟨one, hFirst⟩, two, hSecond⟩
    unfold fullUrl
    rw [hFirst, hSecond]
    exact ⟨_, rfl⟩

/- All that goes into a method that is prepared. -/
theorem ofDescriptor_eq_ok_iff
    (method : ServiceMethod) :
    ofDescriptor resolvers values? serviceName service
        descriptor = .ok method ↔
      descriptor.declaresExchange = true ∧
      ∃ binders url,
        descriptor.parameters.mapM
          (findBinder resolvers serviceName
            descriptor.name) = .ok binders ∧
        fullUrl values? service.url descriptor.url =
          .ok url ∧
        method = {
          service := serviceName
          name := descriptor.name
          method := descriptor.method
          url := url
          contentType :=
            descriptor.contentType <|> service.contentType
          accept :=
            if descriptor.accept.isEmpty then service.accept
            else descriptor.accept
          binders := binders
          returns := descriptor.returns } := by
  unfold ofDescriptor
  split
  · next hDeclares =>
      constructor
      · intro hMethod
        obtain ⟨binders, hBinders, hNext⟩ :=
          Fallible.bind_eq_ok hMethod
        obtain ⟨url, hUrl, hMade⟩ := Fallible.bind_eq_ok hNext
        exact ⟨hDeclares, binders, url, hBinders, hUrl,
          (Except.ok.inj hMade).symm⟩
      · rintro ⟨_, binders, url, hBinders, hUrl, hMade⟩
        rw [hBinders, hUrl, hMade]
        rfl
  · next hDeclares =>
      constructor
      · intro hMethod
        cases hMethod
      · rintro ⟨hDeclared, _⟩
        exact absurd hDeclared hDeclares

theorem name_of_ofDescriptor
    {method : ServiceMethod}
    (h : ofDescriptor resolvers values? serviceName service
      descriptor = .ok method) :
    method.name = descriptor.name := by
  obtain ⟨_, _, _, _, _, hMade⟩ :=
    (ofDescriptor_eq_ok_iff method).mp h
  rw [hMade]

/- A method is prepared exactly if it is ready. -/
theorem exists_ofDescriptor_iff
    (resolvers : List Resolver)
    (values? : Option EmbeddedValues)
    (serviceName : String)
    (service : ServiceDescriptor)
    (descriptor : MethodDescriptor) :
    (∃ method,
      ofDescriptor resolvers values? serviceName service
        descriptor = .ok method) ↔
      descriptor.Ready resolvers values? service := by
  have hBinders := Fallible.exists_mapM_ok
    (findBinder resolvers serviceName descriptor.name)
    descriptor.parameters
  simp only [findBinder_eq_ok_iff,
    Resolver.firstOf_eq_some_iff] at hBinders
  have hUrl :=
    exists_fullUrl_iff values? service.url descriptor.url
  rw [EmbeddedText.exists_resolveEmbedded_iff,
    EmbeddedText.exists_resolveEmbedded_iff] at hUrl
  constructor
  · rintro ⟨method, hMethod⟩
    obtain ⟨hDeclares, binders, url, hAll, hFull, _⟩ :=
      (ofDescriptor_eq_ok_iff method).mp hMethod
    obtain ⟨hService, hOwn⟩ := hUrl.mp ⟨url, hFull⟩
    exact ⟨descriptor.declaresExchange_iff.mp hDeclares,
      hBinders.mp ⟨binders, hAll⟩, hService, hOwn⟩
  · intro hReady
    obtain ⟨binders, hAll⟩ := hBinders.mpr hReady.bound
    obtain ⟨url, hFull⟩ :=
      hUrl.mpr ⟨hReady.serviceUrl, hReady.methodUrl⟩
    have hDeclares :=
      descriptor.declaresExchange_iff.mpr hReady.exchange
    exact ⟨_, (ofDescriptor_eq_ok_iff _).mpr
      ⟨hDeclares, binders, url, hAll, hFull, rfl⟩⟩

theorem failsOnly_findBinder
    {parameter : Parameter}
    (h : Fallible.FailsOnly (·.isConfiguration = true)
      (Resolver.firstOf resolvers parameter))
    (name : String) :
    Fallible.FailsOnly (·.isConfiguration = true)
      (findBinder resolvers serviceName name parameter) := by
  unfold findBinder
  split
  · next error hFirst =>
      exact Fallible.failsOnly_error (h error hFirst)
  · exact Fallible.failsOnly_ok _
  · exact Fallible.failsOnly_error rfl

theorem failsOnly_ofDescriptor
    (h : ∀ parameter,
      Fallible.FailsOnly (·.isConfiguration = true)
        (Resolver.firstOf resolvers parameter)) :
    Fallible.FailsOnly (·.isConfiguration = true)
      (ofDescriptor resolvers values? serviceName service
        descriptor) := by
  unfold ofDescriptor
  split
  · refine Fallible.failsOnly_bind
      (Fallible.failsOnly_mapM fun parameter _ =>
        failsOnly_findBinder (h parameter) _)
      fun binders => Fallible.failsOnly_bind ?_
        fun _ => Fallible.failsOnly_ok _
    exact Fallible.failsOnly_bind
      (EmbeddedText.failsOnly_resolveEmbedded _ _)
      fun _ => Fallible.failsOnly_bind
        (EmbeddedText.failsOnly_resolveEmbedded _ _)
        fun _ => Fallible.failsOnly_ok _
  · exact Fallible.failsOnly_error rfl

end ServiceMethod

------------------------------------------------------------
-- Services
------------------------------------------------------------

namespace ProxyFactory

variable {factory : ProxyFactory}
variable {serviceName : String}
variable {service : ServiceDescriptor}
variable {descriptor : MethodDescriptor}
variable {methods : List ServiceMethod}

theorem prepareMethods_cons
    {method : ServiceMethod}
    (h : ServiceMethod.ofDescriptor factory.resolvers
      factory.embeddedValues serviceName service descriptor =
        .ok method)
    (hNew : descriptor.name ∉ methods.map (·.name))
    (rest : List MethodDescriptor) :
    factory.prepareMethods serviceName service methods
        (descriptor :: rest) =
      factory.prepareMethods serviceName service
        (methods ++ [method]) rest := by
  have hAny :
      methods.any (·.name == descriptor.name) = false := by
    rw [List.any_eq_false]
    intro other hMem hSame
    exact hNew (List.mem_map.mpr
      ⟨other, hMem, beq_iff_eq.mp hSame⟩)
  conv => lhs; unfold prepareMethods
  rw [h]
  change (if methods.any (·.name == descriptor.name) then
    _ else _) = _
  rw [hAny]
  rfl

theorem of_prepareMethods_cons
    {rest : List MethodDescriptor}
    {all : List ServiceMethod}
    (h : factory.prepareMethods serviceName service methods
      (descriptor :: rest) = .ok all) :
    descriptor.name ∉ methods.map (·.name) ∧
      ∃ method,
        ServiceMethod.ofDescriptor factory.resolvers
          factory.embeddedValues serviceName service
          descriptor = .ok method := by
  obtain ⟨method, hMethod, hNext⟩ := Fallible.bind_eq_ok h
  refine ⟨?_, method, hMethod⟩
  intro hMem
  obtain ⟨other, hOther, hSame⟩ := List.mem_map.mp hMem
  have hAny :
      methods.any (·.name == descriptor.name) = true :=
    List.any_eq_true.mpr ⟨other, hOther, beq_iff_eq.mpr hSame⟩
  change (if methods.any (·.name == descriptor.name) then
    _ else _) = _ at hNext
  rw [hAny] at hNext
  cases hNext

/-
  Methods are prepared behind those there are, unless two
  have one name.
-/
theorem prepareMethods_eq_ok_iff
    (factory : ProxyFactory)
    (serviceName : String)
    (service : ServiceDescriptor)
    (methods : List ServiceMethod)
    (descriptors : List MethodDescriptor)
    (all : List ServiceMethod) :
    factory.prepareMethods serviceName service methods
        descriptors = .ok all ↔
      ∃ prepared,
        descriptors.mapM
          (ServiceMethod.ofDescriptor factory.resolvers
            factory.embeddedValues serviceName service) =
          .ok prepared ∧
        all = methods ++ prepared ∧
        (descriptors.map (·.name)).Nodup ∧
        ∀ descriptor ∈ descriptors,
          descriptor.name ∉ methods.map (·.name) := by
  induction descriptors generalizing methods with
  | nil =>
      constructor
      · intro hAll
        exact ⟨[], rfl, by rw [← Except.ok.inj hAll,
          List.append_nil], List.nodup_nil,
          fun _ hMem => (nomatch hMem)⟩
      · rintro ⟨prepared, hPrepared, hAll, _⟩
        cases hPrepared
        rw [hAll]
        exact congrArg Except.ok (List.append_nil _).symm
  | cons descriptor rest ih =>
      rw [List.map_cons, List.nodup_cons,
        List.forall_mem_cons]
      constructor
      · intro hAll
        obtain ⟨hNew, method, hMethod⟩ :=
          of_prepareMethods_cons hAll
        have hName := ServiceMethod.name_of_ofDescriptor hMethod
        -- From here on the first method is one of those that
        -- there are, so no later one has its name.
        rw [prepareMethods_cons hMethod hNew, ih] at hAll
        obtain ⟨prepared, hPrepared, hSplit, hNodup,
          hOthers⟩ := hAll
        simp only [List.map_append, List.mem_append, not_or,
          List.map_singleton, List.mem_singleton, hName]
          at hOthers
        refine ⟨method :: prepared,
          (Fallible.mapM_cons_eq_ok_iff ..).mpr
            ⟨method, prepared, hMethod, hPrepared, rfl⟩,
          ?_, ⟨?_, hNodup⟩, hNew,
          fun later hLater => (hOthers later hLater).1⟩
        · rw [hSplit, List.append_assoc]
          rfl
        · intro hMem
          obtain ⟨later, hLater, hSame⟩ :=
            List.mem_map.mp hMem
          exact (hOthers later hLater).2 hSame
      · rintro ⟨whole, hWhole, hSplit, ⟨hFirst, hNodup⟩,
          hNew, hOthers⟩
        obtain ⟨method, prepared, hMethod, hPrepared, rfl⟩ :=
          (Fallible.mapM_cons_eq_ok_iff ..).mp hWhole
        have hName := ServiceMethod.name_of_ofDescriptor hMethod
        rw [prepareMethods_cons hMethod hNew, ih]
        refine ⟨prepared, hPrepared, ?_, hNodup, ?_⟩
        · rw [hSplit, List.append_assoc]
          rfl
        · intro later hLater
          simp only [List.map_append, List.mem_append, not_or,
            List.map_singleton, List.mem_singleton, hName]
          refine ⟨hOthers later hLater, fun hSame => ?_⟩
          exact hFirst (List.mem_map.mpr
            ⟨later, hLater, hSame⟩)

theorem failsOnly_prepareMethods
    (h : ∀ parameter,
      Fallible.FailsOnly (·.isConfiguration = true)
        (Resolver.firstOf factory.resolvers parameter))
    (methods : List ServiceMethod)
    (descriptors : List MethodDescriptor) :
    Fallible.FailsOnly (·.isConfiguration = true)
      (factory.prepareMethods serviceName service methods
        descriptors) := by
  induction descriptors generalizing methods with
  | nil => exact Fallible.failsOnly_ok methods
  | cons descriptor rest ih =>
      refine Fallible.failsOnly_bind
        (ServiceMethod.failsOnly_ofDescriptor h)
        fun method => ?_
      change Fallible.FailsOnly _
        (if methods.any (·.name == descriptor.name) then
          _ else _)
      split
      · exact Fallible.failsOnly_error rfl
      · exact ih (methods ++ [method])

/- The record that is written does not matter. -/
theorem result_createProxy
    (factory : ProxyFactory)
    (serviceName : String)
    (service : ServiceDescriptor)
    (network : Network) :
    (factory.createProxy serviceName service network).result =
      factory.proxyOf serviceName service := by
  change (Run.bind (Run.lift (factory.proxyOf serviceName
    service)) _ network).result = _
  cases factory.proxyOf serviceName service <;> rfl

/- A proxy has the methods that were prepared. -/
theorem proxyOf_eq_ok_iff
    (factory : ProxyFactory)
    (serviceName : String)
    (service : ServiceDescriptor)
    (proxy : Proxy) :
    factory.proxyOf serviceName service = .ok proxy ↔
      ∃ methods,
        service.methods.mapM
          (ServiceMethod.ofDescriptor factory.resolvers
            factory.embeddedValues serviceName service) =
          .ok methods ∧
        (service.methods.map (·.name)).Nodup ∧
        proxy = {
          service := serviceName
          methods := methods
          adapter := factory.adapter
          processors := factory.processors
          defaultHeaders := factory.defaultHeaders } := by
  constructor
  · intro hProxy
    obtain ⟨methods, hPrepared, hMade⟩ :=
      Fallible.bind_eq_ok hProxy
    obtain ⟨prepared, hAll, hSplit, hNodup, _⟩ :=
      (prepareMethods_eq_ok_iff ..).mp hPrepared
    rw [hSplit] at hMade
    exact ⟨prepared, hAll, hNodup, (Except.ok.inj hMade).symm⟩
  · rintro ⟨methods, hAll, hNodup, hMade⟩
    have hPrepared :
        factory.prepareMethods serviceName service []
          service.methods = .ok methods :=
      (prepareMethods_eq_ok_iff ..).mpr
        ⟨methods, hAll, rfl, hNodup,
          fun _ _ hMem => (nomatch hMem)⟩
    unfold proxyOf
    rw [hPrepared, hMade]
    rfl

theorem exists_method_iff
    (proxy : Proxy)
    (name : String) :
    (∃ method, proxy.method name = .ok method) ↔
      name ∈ proxy.methods.map (·.name) := by
  unfold Proxy.method
  rw [List.mem_map]
  cases hFound : proxy.methods.find? (·.name == name) with
  | none =>
      rw [List.find?_eq_none] at hFound
      constructor
      · rintro ⟨method, hMethod⟩
        cases hMethod
      · rintro ⟨method, hMem, hName⟩
        exact absurd (beq_iff_eq.mpr hName)
          (hFound method hMem)
  | some method =>
      have hFits := List.find?_some hFound
      have hThere := List.mem_of_find?_eq_some hFound
      exact ⟨fun _ => ⟨method, hThere, beq_iff_eq.mp hFits⟩,
        fun _ => ⟨method, rfl⟩⟩

/- A method that is called by its name is the declared one. -/
theorem ofDescriptor_of_method
    {proxy : Proxy}
    (hProxy : factory.proxyOf serviceName service = .ok proxy)
    (hMem : descriptor ∈ service.methods)
    {method : ServiceMethod}
    (hMethod : proxy.method descriptor.name = .ok method) :
    ServiceMethod.ofDescriptor factory.resolvers
      factory.embeddedValues serviceName service descriptor =
        .ok method := by
  obtain ⟨methods, hAll, hNodup, hMade⟩ :=
    (factory.proxyOf_eq_ok_iff ..).mp hProxy
  unfold Proxy.method at hMethod
  split at hMethod
  · next found hFound =>
      cases hMethod
      have hFits := List.find?_some hFound
      have hName : method.name = descriptor.name :=
        beq_iff_eq.mp hFits
      have hThere := List.mem_of_find?_eq_some hFound
      rw [hMade] at hThere
      obtain ⟨origin, hOrigin, hResult⟩ :=
        Fallible.exists_of_mem_mapM hAll hThere
      have hSame : origin = descriptor := by
        apply List.inj_on_of_nodup_map hNodup hOrigin hMem
        rw [← hName]
        exact (ServiceMethod.name_of_ofDescriptor hResult).symm
      rw [← hSame]
      exact hResult
  · cases hMethod

/-
  A proxy is made exactly if all methods are ready and have
  names of their own; it has the methods that are declared.
  What a factory without resolvers of its own refuses is not
  set up as it should be.
-/
theorem created_iff
    [DomainNames]
    (factory : ProxyFactory)
    (serviceName : String)
    (service : ServiceDescriptor)
    (network : Network) :
    let created :=
      (factory.createProxy serviceName service network).result
    ((∃ proxy, created = .ok proxy) ↔
      (service.methods.map (·.name)).Nodup ∧
      ∀ descriptor ∈ service.methods,
        descriptor.Ready factory.resolvers
          factory.embeddedValues service) ∧
    (∀ proxy, created = .ok proxy →
      ∀ name,
        (∃ method, proxy.method name = .ok method) ↔
          name ∈ service.methods.map (·.name)) ∧
    (∀ supports,
      factory.resolvers = Resolver.chain [] supports →
        ∀ error, created = .error error →
          error.isConfiguration = true) := by
  intro created
  have hCreated :
      created = factory.proxyOf serviceName service :=
    factory.result_createProxy serviceName service network
  rw [hCreated]
  have hReady := Fallible.exists_mapM_ok
    (ServiceMethod.ofDescriptor factory.resolvers
      factory.embeddedValues serviceName service)
    service.methods
  simp only [ServiceMethod.exists_ofDescriptor_iff] at hReady
  refine ⟨?_, ?_, ?_⟩
  · rw [← hReady]
    constructor
    · rintro ⟨proxy, hProxy⟩
      obtain ⟨methods, hAll, hNodup, _⟩ :=
        (factory.proxyOf_eq_ok_iff ..).mp hProxy
      exact ⟨hNodup, methods, hAll⟩
    · rintro ⟨hNodup, methods, hAll⟩
      exact ⟨_, (factory.proxyOf_eq_ok_iff ..).mpr
        ⟨methods, hAll, hNodup, rfl⟩⟩
  · intro proxy hProxy name
    obtain ⟨methods, hAll, _, hMade⟩ :=
      (factory.proxyOf_eq_ok_iff ..).mp hProxy
    have hNames := Fallible.map_of_mapM
      (fun _ _ => ServiceMethod.name_of_ofDescriptor) hAll
    rw [exists_method_iff, ← hNames, hMade]
  · intro supports hChain
    refine Fallible.failsOnly_bind
      (failsOnly_prepareMethods ?_ [] service.methods)
      fun _ => Fallible.failsOnly_ok _
    intro parameter
    rw [hChain]
    exact Resolver.failsOnly_chain supports parameter

open PlainNames CommonMedia

/- A factory that knows where the host is. -/
def hostFactory : ProxyFactory where
  adapter := .ofClient
    { base? := none
      defaultHeaders := .empty
      defaultCookies := []
      interceptors := []
      transport := .given }
  resolvers := Resolver.chain [] true
  processors := []
  defaultHeaders := .empty
  embeddedValues := some fun name =>
    if name = "host" then some "http://localhost" else none

/- A service with one method, below the host. -/
def usersService : ServiceDescriptor where
  url := some "$\x7bhost\x7d/users"
  contentType := none
  accept := []
  methods :=
    [(MethodDescriptor.exchange "find" .get
      "/\x7bid\x7d").addParameter
        (Parameter.ofRole .pathVariable "id")]

theorem usersService_ready :
    ∀ descriptor ∈ usersService.methods,
      descriptor.Ready hostFactory.resolvers
        hostFactory.embeddedValues usersService := by
  intro descriptor hMem
  rw [List.mem_singleton.mp hMem]
  refine ⟨.inl (by decide), ?_, ?_, ?_⟩
  · intro parameter hParameter
    rw [List.mem_singleton.mp hParameter]
    exact ⟨_, (Resolver.firstOf_eq_some_iff ..).mp rfl⟩
  · intro values hValues url hUrl
    cases hValues
    cases hUrl
    exact ⟨.placeholder [] "host".toList
      (.plain "/users".toList), by decide, by decide, trivial,
      by decide⟩
  · intro values hValues url hUrl
    cases hValues
    cases hUrl
    exact ⟨.plain "/\x7bid\x7d".toList, by decide, by decide,
      trivial, by decide⟩

/- The proxy of users has their method. -/
theorem created_users :
    ∃ proxy,
      (hostFactory.createProxy "Users" usersService
        (fun _ _ => .ok ⟨200, .empty, []⟩)).result =
        .ok proxy ∧
      ∃ method, proxy.method "find" = .ok method := by
  have hCreated := hostFactory.created_iff "Users" usersService
    (fun _ _ => .ok ⟨200, .empty, []⟩)
  obtain ⟨proxy, hProxy⟩ :=
    hCreated.1.mpr ⟨by decide, usersService_ready⟩
  exact ⟨proxy, hProxy,
    (hCreated.2.1 proxy hProxy "find").mpr (by decide)⟩

end ProxyFactory

end ServiceCalls
