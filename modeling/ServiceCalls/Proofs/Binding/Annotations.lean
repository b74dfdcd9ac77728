import ServiceCalls.Proofs.Calls.Methods

/-
  Parameters that say what they are used for.

  The chain leaves such a parameter to the resolver of its
  binding: the resolver binds it, or it is refused as not
  set up as it should be.  The exception are parameters that
  ask for an attribute where attributes are not supported.
  No resolver is there for them, and those that bind by type
  take over what has the type of a URL, a request method, or
  a file with a name.  Whatever has not is refused when the
  proxy is made; for the rest the binding is as if it were
  not there.

  Key definitions include:
    * `Binding.Decides`
    * `Parameter.TakenByType`
    * `ServiceDescriptor.withoutAttributes`

  Main declarations:
    * `Resolver.exists_byType_iff`
    * `Binding.decides_iff`
    * `ProxyFactory.createProxy_withoutAttributes`
    * `FactoryConfig.annotations_decide_iff`
-/

namespace ServiceCalls

/- The resolver of a binding. -/
def Binding.resolver : Binding → Resolver
  | .named role _ => Resolver.ofRole role
  | .body _ => Resolver.body

/-
  A parameter is bound as the resolver of a binding binds
  it, or refused as not set up as it should be.
-/
def Binding.Decides
    (binding : Binding)
    (resolvers : List Resolver)
    (parameter : Parameter) :
    Prop :=
  ∀ serviceName name,
    (∃ binder,
      ServiceMethod.findBinder resolvers serviceName name
        parameter = .ok binder ∧
      binding.resolver parameter = .ok (some binder)) ∨
    ∃ error,
      ServiceMethod.findBinder resolvers serviceName name
        parameter = .error error ∧
      error.isConfiguration = true

namespace Parameter

/- A parameter that is to be an attribute. -/
def AsksForAttribute (parameter : Parameter) : Prop :=
  ∃ value,
    parameter.binding = some (.named .attribute value)

/- A parameter of a type that some resolver binds. -/
def HasBindingType (parameter : Parameter) : Prop :=
  parameter.type = .uri ∨ parameter.type = .method ∨
    parameter.type = .file ∧ parameter.name ≠ none

/-
  A parameter that is to be an attribute, but is bound by
  its type, as attributes are not supported.
-/
def TakenByType
    (supportsAttributes : Bool)
    (parameter : Parameter) :
    Prop :=
  supportsAttributes = false ∧
    parameter.AsksForAttribute ∧ parameter.HasBindingType

end Parameter

------------------------------------------------------------
-- Bindings That Decide
------------------------------------------------------------

variable {supports : Bool}
variable {parameter : Parameter}
variable {binder : Binder}

namespace Resolver

theorem exists_byType_iff
    [DomainNames]
    (parameter : Parameter) :
    (∃ binder, byType parameter = .ok (some binder)) ↔
      parameter.HasBindingType := by
  obtain ⟨index, name, type, binding⟩ := parameter
  unfold Parameter.HasBindingType
  cases type with
  | uri => simp [byType]
  | method => simp [byType]
  | file =>
      -- Without a name the rule of files fails.
      cases name with
      | none =>
          simp [byType, ValueRule.bind,
            ValueRule.effectiveName, NamedValue.unnamed,
            Except.map]
      | some name =>
          simp [byType, ValueRule.bind,
            ValueRule.effectiveName, NamedValue.unnamed,
            Except.map]
  | _ => simp [byType]

/- A rule records what it adds under its label. -/
theorem records_of_bind
    {rule : ValueRule}
    {value : NamedValue}
    (hBinder : rule.bind value parameter = .ok binder)
    (hType : parameter.type ≠ .map) :
    ∃ name rest,
      (binder (.bytes []) .empty).records =
        ValueRule.addingRecord rule.label name (.bytes []) ::
          rest := by
  unfold ValueRule.bind at hBinder
  rw [if_neg hType] at hBinder
  obtain ⟨name, _, rfl⟩ := Fallible.map_eq_ok hBinder
  exact ⟨name, _, rfl⟩

/- What a type is bound to is not an attribute. -/
theorem attribute_ne_byType
    [DomainNames]
    (hType : byType parameter = .ok (some binder))
    (value : NamedValue) :
    (Role.rule .attribute).bind value parameter ≠
      .ok binder := by
  intro hBinder
  have hHas : parameter.HasBindingType :=
    (exists_byType_iff parameter).mp ⟨binder, hType⟩
  have hNotMap : parameter.type ≠ .map := by
    rcases hHas with hUri | hMethod | ⟨hFile, _⟩
    · rw [hUri]
      decide
    · rw [hMethod]
      decide
    · rw [hFile]
      decide
  obtain ⟨name, rest, hRecords⟩ :=
    records_of_bind hBinder hNotMap
  unfold byType at hType
  rcases hHas with hUri | hMethod | ⟨hFile, _⟩
  · rw [hUri] at hType
    cases hType
    cases hRecords
  · rw [hMethod] at hType
    cases hType
    cases hRecords
  · rw [hFile] at hType
    obtain ⟨made, hMade, hSame⟩ := Fallible.map_eq_ok hType
    cases hSame
    obtain ⟨other, others, hOther⟩ :=
      records_of_bind hMade hNotMap
    -- Two rules are told apart by their labels.
    rw [hOther] at hRecords
    simp [ValueRule.addingRecord, ValueRule.file, Role.rule]
      at hRecords

end Resolver

theorem Binding.resolver_named
    {role : Role}
    {value : NamedValue}
    (h : parameter.binding = some (.named role value)) :
    (Binding.named role value).resolver parameter =
      (role.rule.bind value parameter).map some := by
  simp only [resolver, Resolver.ofRole,
    Resolver.valueInRole?, h, if_true]

section

variable [DomainNames]

/- What the chain binds is bound by the binding or by type. -/
theorem Binding.of_chain
    {binding : Binding}
    (hBinding : parameter.binding = some binding)
    (hBinder : Resolver.firstOf (Resolver.chain [] supports)
      parameter = .ok (some binder)) :
    binding.resolver parameter = .ok (some binder) ∨
      parameter.TakenByType supports := by
  rw [Resolver.firstOf_chain] at hBinder
  unfold Resolver.byBinding at hBinder
  rw [hBinding] at hBinder
  cases binding with
  | body required =>
      refine .inl (Eq.trans ?_ hBinder)
      simp only [resolver, Resolver.body, hBinding]
  | named role value =>
      dsimp only at hBinder
      split at hBinder
      · next hOff =>
          rw [hOff.1] at hBinding
          exact .inr ⟨hOff.2, ⟨value, hBinding⟩,
            (Resolver.exists_byType_iff parameter).mp
              ⟨binder, hBinder⟩⟩
      · exact .inl ((resolver_named hBinding).trans hBinder)

theorem Binding.not_decides_of_takenByType
    {binding : Binding}
    (hBinding : parameter.binding = some binding)
    (hTaken : parameter.TakenByType supports) :
    ¬ binding.Decides (Resolver.chain [] supports)
      parameter := by
  obtain ⟨hOff, ⟨value, hAsks⟩, hHas⟩ := hTaken
  cases hBinding.symm.trans hAsks
  obtain ⟨binder, hType⟩ :=
    (Resolver.exists_byType_iff parameter).mpr hHas
  have hFound (serviceName name : String) :
      ServiceMethod.findBinder (Resolver.chain [] supports)
        serviceName name parameter = .ok binder := by
    rw [ServiceMethod.findBinder_eq_ok_iff,
      Resolver.firstOf_chain,
      Resolver.byBinding_of_boundByType
        (.inr ⟨hOff, value, hAsks⟩)]
    exact hType
  intro hDecides
  rcases hDecides "" "" with
    ⟨other, hOther, hBinds⟩ | ⟨error, hError, _⟩
  · cases (hFound "" "").symm.trans hOther
    rw [resolver_named hAsks] at hBinds
    obtain ⟨made, hMade, hSame⟩ := Fallible.map_eq_ok hBinds
    cases hSame
    exact Resolver.attribute_ne_byType hType value hMade
  · cases (hFound "" "").symm.trans hError

/- A binding decides unless the type takes over. -/
theorem Binding.decides_iff
    {binding : Binding}
    (hBinding : parameter.binding = some binding)
    (supports : Bool) :
    binding.Decides (Resolver.chain [] supports) parameter ↔
      ¬ parameter.TakenByType supports := by
  constructor
  · intro hDecides hTaken
    exact not_decides_of_takenByType hBinding hTaken hDecides
  · intro hFree serviceName name
    cases hFound : ServiceMethod.findBinder
        (Resolver.chain [] supports) serviceName name
        parameter with
    | error error =>
        exact .inr ⟨error, rfl,
          ServiceMethod.failsOnly_findBinder
            (Resolver.failsOnly_chain supports parameter)
            name error hFound⟩
    | ok binder =>
        rw [ServiceMethod.findBinder_eq_ok_iff] at hFound
        rcases of_chain hBinding hFound with hBinds | hTaken
        · exact .inl ⟨binder, rfl, hBinds⟩
        · exact absurd hTaken hFree

end

------------------------------------------------------------
-- Services Without Attributes
------------------------------------------------------------

/- A parameter without the wish to be an attribute. -/
def Parameter.withoutAttribute (parameter : Parameter) :
    Parameter :=
  match parameter.binding with
  | some (.named .attribute _) =>
      { parameter with binding := none }
  | _ => parameter

/- A method whose parameters are no attributes. -/
def MethodDescriptor.withoutAttributes
    (descriptor : MethodDescriptor) :
    MethodDescriptor :=
  { descriptor with
    parameters :=
      descriptor.parameters.map Parameter.withoutAttribute }

/- A service whose methods have no attributes. -/
def ServiceDescriptor.withoutAttributes
    (service : ServiceDescriptor) :
    ServiceDescriptor :=
  { service with
    methods :=
      service.methods.map MethodDescriptor.withoutAttributes }

theorem Parameter.type_withoutAttribute
    (parameter : Parameter) :
    parameter.withoutAttribute.type = parameter.type := by
  unfold withoutAttribute
  split <;> rfl

theorem Parameter.describe_withoutAttribute
    (parameter : Parameter) :
    parameter.withoutAttribute.describe =
      parameter.describe := by
  unfold withoutAttribute
  split <;> rfl

theorem Resolver.firstOf_withoutAttribute
    [DomainNames]
    (parameter : Parameter) :
    firstOf (chain [] false) parameter.withoutAttribute =
      firstOf (chain [] false) parameter := by
  rw [firstOf_chain, firstOf_chain]
  unfold Parameter.withoutAttribute
  split
  · next value hAsks =>
      rw [byBinding_of_boundByType (.inl rfl),
        byBinding_of_boundByType
          (.inr ⟨rfl, value, hAsks⟩)]
      rfl
  · rfl

theorem MethodDescriptor.declaresExchange_withoutAttributes
    (descriptor : MethodDescriptor) :
    descriptor.withoutAttributes.declaresExchange =
      descriptor.declaresExchange := by
  simp only [declaresExchange, withoutAttributes,
    List.any_map, Function.comp_def,
    Parameter.type_withoutAttribute]

namespace ServiceMethod

theorem findBinder_withoutAttribute
    [DomainNames]
    (serviceName name : String)
    (parameter : Parameter) :
    findBinder (Resolver.chain [] false) serviceName name
        parameter.withoutAttribute =
      findBinder (Resolver.chain [] false) serviceName name
        parameter := by
  unfold findBinder unresolved
  rw [Resolver.firstOf_withoutAttribute,
    Parameter.describe_withoutAttribute]

theorem ofDescriptor_withoutAttributes
    [DomainNames]
    (values? : Option EmbeddedValues)
    (serviceName : String)
    (service : ServiceDescriptor)
    (descriptor : MethodDescriptor) :
    ofDescriptor (Resolver.chain [] false) values?
        serviceName service.withoutAttributes
        descriptor.withoutAttributes =
      ofDescriptor (Resolver.chain [] false) values?
        serviceName service descriptor := by
  have hBinders :
      descriptor.withoutAttributes.parameters.mapM
          (findBinder (Resolver.chain [] false) serviceName
            descriptor.name) =
        descriptor.parameters.mapM
          (findBinder (Resolver.chain [] false) serviceName
            descriptor.name) := by
    simp only [MethodDescriptor.withoutAttributes,
      List.mapM_map, Function.comp_def,
      findBinder_withoutAttribute]
  unfold ofDescriptor
  rw [descriptor.declaresExchange_withoutAttributes]
  change (if _ then
    (descriptor.withoutAttributes.parameters.mapM
      (findBinder (Resolver.chain [] false) serviceName
        descriptor.name) >>= _) else _) = _
  rw [hBinders]
  rfl

end ServiceMethod

------------------------------------------------------------
-- Proxies Without Attributes
------------------------------------------------------------

namespace ProxyFactory

variable {factory : ProxyFactory}

variable [DomainNames]

theorem prepareMethods_withoutAttributes
    (hChain : factory.resolvers = Resolver.chain [] false)
    (serviceName : String)
    (service : ServiceDescriptor)
    (methods : List ServiceMethod)
    (descriptors : List MethodDescriptor) :
    factory.prepareMethods serviceName
        service.withoutAttributes methods
        (descriptors.map MethodDescriptor.withoutAttributes) =
      factory.prepareMethods serviceName service methods
        descriptors := by
  induction descriptors generalizing methods with
  | nil => rfl
  | cons descriptor rest ih =>
      rw [List.map_cons]
      unfold prepareMethods
      rw [hChain,
        ServiceMethod.ofDescriptor_withoutAttributes]
      simp only [ih]
      rfl

/- A binding that asks for attributes is not looked at. -/
theorem createProxy_withoutAttributes
    (hChain : factory.resolvers = Resolver.chain [] false)
    (serviceName : String)
    (service : ServiceDescriptor) :
    factory.createProxy serviceName
        service.withoutAttributes =
      factory.createProxy serviceName service := by
  have hProxy :
      factory.proxyOf serviceName service.withoutAttributes =
        factory.proxyOf serviceName service := by
    unfold proxyOf
    exact congrArg (· >>= _)
      (prepareMethods_withoutAttributes hChain serviceName
        service [] service.methods)
  unfold createProxy
  rw [hProxy]

/- Attributes of a service with a proxy have other uses. -/
theorem hasBindingType_of_proxyOf
    (hChain : factory.resolvers = Resolver.chain [] false)
    {serviceName : String}
    {service : ServiceDescriptor}
    {proxy : Proxy}
    (hProxy : factory.proxyOf serviceName service = .ok proxy)
    {descriptor : MethodDescriptor}
    (hMethod : descriptor ∈ service.methods)
    (hMem : parameter ∈ descriptor.parameters)
    (hAsks : parameter.AsksForAttribute) :
    parameter.HasBindingType := by
  obtain ⟨methods, hAll, _⟩ :=
    (factory.proxyOf_eq_ok_iff ..).mp hProxy
  obtain ⟨method, hReady⟩ :=
    (Fallible.exists_mapM_ok ..).mp ⟨methods, hAll⟩
      descriptor hMethod
  obtain ⟨_, binders, _, hBinders, _⟩ :=
    (ServiceMethod.ofDescriptor_eq_ok_iff method).mp hReady
  obtain ⟨binder, hFound⟩ :=
    (Fallible.exists_mapM_ok ..).mp ⟨binders, hBinders⟩
      parameter hMem
  obtain ⟨value, hBinding⟩ := hAsks
  rw [ServiceMethod.findBinder_eq_ok_iff, hChain,
    Resolver.firstOf_chain,
    Resolver.byBinding_of_boundByType
      (.inr ⟨rfl, value, hBinding⟩)] at hFound
  exact (Resolver.exists_byType_iff parameter).mp
    ⟨binder, hFound⟩

end ProxyFactory

/-
  In a factory without resolvers of its own, a binding
  decides exactly if its parameter is not taken by its type.
  Without support for attributes no proxy is made of a
  service that asks for one in a parameter of another type;
  for the rest the service might as well not ask.
-/
theorem FactoryConfig.annotations_decide_iff
    [DomainNames]
    {config : FactoryConfig}
    (hResolvers : config.resolvers = [])
    {factory : ProxyFactory}
    (hBuild : config.build = .ok factory) :
    let supports := factory.adapter.supportsAttributes
    (∀ (parameter : Parameter) (binding : Binding),
      parameter.binding = some binding →
      (binding.Decides factory.resolvers parameter ↔
        ¬ parameter.TakenByType supports)) ∧
    (supports = false →
      ∀ (serviceName : String) (service : ServiceDescriptor),
        ((∃ descriptor ∈ service.methods,
            ∃ parameter ∈ descriptor.parameters,
              parameter.AsksForAttribute ∧
                ¬ parameter.TakenByType supports) →
          ∀ network, ∃ error,
            (factory.createProxy serviceName service
              network).result = .error error ∧
            error.isConfiguration = true) ∧
        factory.createProxy serviceName service =
          factory.createProxy serviceName
            service.withoutAttributes) := by
  intro supports
  have hChain :
      factory.resolvers = Resolver.chain [] supports := by
    rw [← hResolvers]
    exact (FactoryConfig.of_build hBuild).1
  rw [hChain]
  refine ⟨fun parameter binding hBinding =>
    Binding.decides_iff hBinding supports, ?_⟩
  intro hOff serviceName service
  rw [hOff] at hChain ⊢
  constructor
  · rintro ⟨descriptor, hMethod, parameter, hMem, hAsks,
      hFree⟩ network
    rw [factory.result_createProxy]
    cases hProxy : factory.proxyOf serviceName service with
    | ok proxy =>
        have hHas := ProxyFactory.hasBindingType_of_proxyOf
          hChain hProxy hMethod hMem hAsks
        exact absurd ⟨rfl, hAsks, hHas⟩ hFree
    | error error =>
        refine ⟨error, rfl, ?_⟩
        refine Fallible.failsOnly_bind
          (factory.failsOnly_prepareMethods ?_ []
            service.methods)
          (fun _ => Fallible.failsOnly_ok _) error hProxy
        intro parameter
        rw [hChain]
        exact Resolver.failsOnly_chain false parameter
  · exact (ProxyFactory.createProxy_withoutAttributes hChain
      serviceName service).symm

------------------------------------------------------------
-- A Tenant That Is to Be an Attribute
------------------------------------------------------------

namespace FactoryConfig

/- An adapter that sends nothing and has no attributes. -/
def silentAdapter : Adapter where
  supportsAttributes := false
  exchange := fun _ => Run.pure ()
  headers := fun _ => Run.pure .empty
  body := fun _ _ => Run.pure none
  entity := fun _ _ => Run.pure ⟨204, .empty, none⟩
  bodilessEntity := fun _ => Run.pure ⟨204, .empty, none⟩

open PlainNames

/- The factory of that adapter. -/
def silentFactory : ProxyFactory where
  adapter := silentAdapter
  resolvers := Resolver.chain [] false
  processors := []
  defaultHeaders := .empty
  embeddedValues := none

/- A parameter that asks for an attribute. -/
def tenant (type : ParameterType) : Parameter :=
  (Parameter.named "tenant" type).withBinding
    (.named .attribute .unnamed)

/- A service with one method, which takes the parameter. -/
def tenantService (type : ParameterType) :
    ServiceDescriptor :=
  { ServiceDescriptor.empty with
    methods :=
      [(MethodDescriptor.exchange "find" .get
        "/items").addParameter (tenant type)] }

/- A plain value is refused, a URL is not left to its binding. -/
theorem annotations_decide_tenant :
    (∃ error,
      (silentFactory.createProxy "Items"
        (tenantService .value)
        (fun _ _ => .ok ⟨200, .empty, []⟩)).result =
          .error error ∧
      error.isConfiguration = true) ∧
    ¬ (Binding.named .attribute .unnamed).Decides
      silentFactory.resolvers (tenant .uri) := by
  have hBuild :
      (FactoryConfig.ofAdapter silentAdapter).build =
        .ok silentFactory :=
    rfl
  obtain ⟨hDecides, hCreates⟩ :=
    annotations_decide_iff rfl hBuild
  constructor
  · apply (hCreates rfl "Items" (tenantService .value)).1
    refine ⟨_, List.mem_singleton.mpr rfl, _,
      List.mem_singleton.mpr rfl, ⟨.unnamed, rfl⟩, ?_⟩
    rintro ⟨_, _, hUri | hMethod | ⟨hFile, _⟩⟩
    · cases hUri
    · cases hMethod
    · cases hFile
  · rw [hDecides (tenant .uri) _ rfl, not_not]
    exact ⟨rfl, ⟨.unnamed, rfl⟩, .inl rfl⟩

/-
  A parameter of the type of URLs that asks for an attribute
  becomes the target, and a proxy is made of its service.
-/
theorem annotations_not_always_decide :
    (¬ ∀ (supports : Bool) (parameter : Parameter)
        (binding : Binding),
      parameter.binding = some binding →
      binding.Decides (Resolver.chain [] supports)
        parameter) ∧
    (¬ ∀ (config : FactoryConfig) (factory : ProxyFactory),
      config.resolvers = [] →
      config.build = .ok factory →
      factory.adapter.supportsAttributes = false →
      ∀ (serviceName : String) (service : ServiceDescriptor),
        (∃ descriptor ∈ service.methods,
          ∃ parameter ∈ descriptor.parameters,
            parameter.AsksForAttribute) →
        ∀ network, ∃ error,
          (factory.createProxy serviceName service
            network).result = .error error) := by
  constructor
  · intro hAlways
    exact Binding.not_decides_of_takenByType rfl
      ⟨rfl, ⟨.unnamed, rfl⟩, .inl rfl⟩
      (hAlways false (tenant .uri) _ rfl)
  · intro hAlways
    obtain ⟨error, hError⟩ := hAlways
      (.ofAdapter silentAdapter) silentFactory rfl rfl rfl
      "Items" (tenantService .uri)
      ⟨_, List.mem_singleton.mpr rfl, _,
        List.mem_singleton.mpr rfl, .unnamed, rfl⟩
      (fun _ _ => .ok ⟨200, .empty, []⟩)
    cases hError

end FactoryConfig

end ServiceCalls
