import ServiceCalls.Proofs.Binding.BuiltIn
import ServiceCalls.Proofs.Calls.Creation
import ServiceCalls.Proofs.Calls.HeaderPrecedence
import ServiceCalls.Proofs.Request.BodyShapes

/-
  Which accepted methods have a request method when called.

  A declaration is accepted when some parameter is of the
  type of methods.  The argument of such a parameter becomes
  the request method only if the parameter is bound by its
  type; with a binding of its own it goes elsewhere, and a
  call is left without a method.  Nothing else that a call
  lacks was up to the declaration.

  Key definitions include:
    * `Parameter.BringsMethod`
    * `ServiceMethod.Accepts`
    * `PlainProxy`

  Main declarations:
    * `Resolver.method_binder_iff`
    * `ServiceMethod.method_contributions`
    * `PlainProxy.misconfigured_iff`
    * `PlainProxy.calls_not_always_configured`
-/

namespace ServiceCalls

------------------------------------------------------------
-- Parameters for Methods
------------------------------------------------------------

/-
  A parameter of the type of methods that no binding takes
  away.
-/
def Parameter.BringsMethod
    (supportsAttributes : Bool)
    (parameter : Parameter) :
    Prop :=
  parameter.type = .method ∧
    (parameter.binding = none ∨
      supportsAttributes = false ∧
        ∃ value,
          parameter.binding = some (.named .attribute value))

theorem ParameterType.field?_eq_method_iff
    (type : ParameterType) :
    type.field? = some .method ↔ type = .method := by
  cases type <;> simp [field?]

theorem Parameter.bringsMethod_iff
    (supports : Bool)
    (parameter : Parameter) :
    parameter.BringsMethod supports ↔
      parameter.field? supports = some .method := by
  unfold BringsMethod field?
  cases parameter.binding with
  | none =>
      simp [ParameterType.field?_eq_method_iff]
  | some binding =>
      cases binding with
      | body required => simp
      | named role value =>
          cases role <;> cases supports <;>
            simp [Role.field,
              ParameterType.field?_eq_method_iff]

namespace Resolver

variable {supports : Bool}
variable {parameter : Parameter}
variable {binder : Binder}

theorem binder_of_bringsMethod
    [DomainNames]
    (h : parameter.BringsMethod supports)
    (hBinder : firstOf (chain [] supports) parameter =
      .ok (some binder)) :
    binder = contributeMethod := by
  obtain ⟨hType, hBound⟩ := h
  rw [firstOf_chain, byBinding_of_boundByType hBound]
    at hBinder
  unfold byType at hBinder
  rw [hType] at hBinder
  cases hBinder
  rfl

theorem keeps_of_not_bringsMethod
    [DomainNames]
    (h : ¬ parameter.BringsMethod supports)
    (hBinder : firstOf (chain [] supports) parameter =
      .ok (some binder))
    (argument : Argument) :
    (binder argument).Keeps RequestDraft.method := by
  apply keeps_of_chain hBinder
  intro field hField
  apply RequestDraft.hides_method
  intro hMethod
  rw [hMethod] at hField
  exact h ((parameter.bringsMethod_iff supports).mpr hField)

/- A method that is there and accepted is set. -/
theorem method_contributeMethod
    {argument : Argument}
    (hPresent : argument.isNull = false)
    {draft : RequestDraft}
    (hOk : (contributeMethod argument draft).result = .ok ()) :
    (contributeMethod argument draft).draft.method ≠ none := by
  cases argument with
  | null => cases hPresent
  | method m => exact Option.some_ne_none m
  | text s =>
      unfold contributeMethod at hOk ⊢
      cases hParse : Method.parse? (upperAscii s) with
      | none =>
          simp only [hParse] at hOk
          cases hOk
      | some m =>
          simp only [hParse]
          exact Option.some_ne_none m
  | _ => cases hOk

/-
  A draft has a method after one contribution if it had one,
  or if the parameter brings it.
-/
theorem method_binder_iff
    [DomainNames]
    (hBinder : firstOf (chain [] supports) parameter =
      .ok (some binder))
    {argument : Argument}
    (hPresent : argument.isNull = false)
    {draft : RequestDraft}
    (hOk : (binder argument draft).result = .ok ()) :
    (binder argument draft).draft.method ≠ none ↔
      draft.method ≠ none ∨
        parameter.BringsMethod supports := by
  by_cases hBrings : parameter.BringsMethod supports
  · have hSame := binder_of_bringsMethod hBrings hBinder
    subst hSame
    have hSet := method_contributeMethod hPresent hOk
    exact ⟨fun _ => .inr hBrings, fun _ => hSet⟩
  · have hKept :=
      keeps_of_not_bringsMethod hBrings hBinder argument draft
    rw [hKept, or_iff_left hBrings]

end Resolver

------------------------------------------------------------
-- Contributions
------------------------------------------------------------

namespace ServiceMethod

/-
  A draft has a method after contributions that succeed if
  it had one, or if one of the parameters brings it.
-/
theorem method_contributions
    [DomainNames]
    {supports : Bool}
    {serviceName name : String}
    {parameters : List Parameter}
    {binders : List Binder}
    (hBinders : parameters.mapM
      (findBinder (Resolver.chain [] supports) serviceName
        name) = .ok binders)
    {arguments : List Argument}
    (hCount : arguments.length = parameters.length)
    (hPresent : ∀ argument ∈ arguments,
      argument.isNull = false)
    {draft : RequestDraft}
    (hOk : (Edit.all (List.zipWith
      (fun binder argument => binder argument)
        binders arguments) draft).result = .ok ()) :
    (Edit.all (List.zipWith
      (fun binder argument => binder argument)
        binders arguments) draft).draft.method ≠ none ↔
      draft.method ≠ none ∨
        ∃ parameter ∈ parameters,
          parameter.BringsMethod supports := by
  induction parameters generalizing binders arguments draft with
  | nil =>
      cases hBinders
      simp [Edit.all, Edit.pure]
  | cons parameter rest ih =>
      obtain ⟨binder, others, hBinder, hOthers, rfl⟩ :=
        (Fallible.mapM_cons_eq_ok_iff ..).mp hBinders
      rw [findBinder_eq_ok_iff] at hBinder
      cases arguments with
      | nil => cases hCount
      | cons argument later =>
          rw [List.forall_mem_cons] at hPresent
          rw [List.zipWith_cons_cons, Edit.all] at hOk ⊢
          cases hFirst : (binder argument draft).result with
          | error error =>
              rw [Edit.bind_of_error hFirst] at hOk
              cases hOk
          | ok _ =>
              rw [Edit.bind_of_ok hFirst] at hOk ⊢
              -- The rest starts from the draft that the first
              -- contribution leaves.
              have hRest := ih hOthers (Nat.succ.inj hCount)
                hPresent.2 hOk
              have hStep := Resolver.method_binder_iff hBinder
                hPresent.1 hFirst
              rw [hRest, hStep, List.exists_mem_cons_iff,
                or_assoc]

------------------------------------------------------------
-- What Is Declared
------------------------------------------------------------

/- What is declared besides the request method. -/
def declaredContent (method : ServiceMethod) : Edit Unit :=
  Edit.bind (RequestDraft.setTemplate method.url) fun _ =>
    Edit.bind (match method.contentType with
      | some mediaType =>
          RequestDraft.setContentType mediaType
      | none => Edit.pure ()) fun _ =>
        if method.accept.isEmpty then Edit.pure ()
        else RequestDraft.setAccept method.accept

theorem declared_eq (method : ServiceMethod) :
    method.declared =
      Edit.bind (match method.method with
        | some m => RequestDraft.setMethod m
        | none => Edit.pure ())
        fun _ => method.declaredContent := by
  unfold declared declaredContent
  cases method.method <;> cases method.contentType <;> rfl

theorem keeps_declaredContent
    {γ : Type}
    {view : RequestDraft → γ}
    (hTarget : RequestDraft.Hides view .target)
    (hHeaders : RequestDraft.Hides view .headers)
    (method : ServiceMethod) :
    method.declaredContent.Keeps view := by
  refine Edit.keeps_bind
    (Edit.keeps_modify fun _ => hTarget _ _ _)
    fun _ => Edit.keeps_bind ?_ fun _ => ?_
  · split
    · exact RequestDraft.keeps_insertHeader hHeaders _ _
    · exact Edit.keeps_pure ()
  · split
    · exact Edit.keeps_pure ()
    · exact RequestDraft.keeps_setAccept hHeaders _

theorem keeps_declared
    {γ : Type}
    {view : RequestDraft → γ}
    (hMethod : RequestDraft.Hides view .method)
    (hTarget : RequestDraft.Hides view .target)
    (hHeaders : RequestDraft.Hides view .headers)
    (method : ServiceMethod) :
    method.declared.Keeps view := by
  rw [declared_eq]
  refine Edit.keeps_bind ?_ fun _ =>
    method.keeps_declaredContent hTarget hHeaders
  split
  · exact Edit.keeps_modify fun _ => hMethod _ _
  · exact Edit.keeps_pure ()

theorem method_declared (method : ServiceMethod) :
    (method.declared .empty).draft.method = method.method := by
  have hKeeps :
      method.declaredContent.Keeps RequestDraft.method :=
    method.keeps_declaredContent (fun _ _ _ => rfl)
      fun _ _ => rfl
  rw [declared_eq]
  cases method.method with
  | none => exact hKeeps _
  | some m => exact hKeeps _

/- Only header values can be wrong in what is declared. -/
theorem failsOnly_declared (method : ServiceMethod) :
    method.declared.FailsOnly
      (·.isConfiguration = false) := by
  have hInsert (name : HeaderName) (value : String) :
      (RequestDraft.insertHeader name value).FailsOnly
        (·.isConfiguration = false) := by
    refine Edit.failsOnly_bind (fun _ => ?_)
      fun _ => Edit.failsOnly_modify _
    change Fallible.FailsOnly _ (HeaderValue.read value)
    unfold HeaderValue.read
    split
    · exact Fallible.failsOnly_ok _
    · exact Fallible.failsOnly_error rfl
  rw [declared_eq]
  refine Edit.failsOnly_bind ?_ fun _ =>
    Edit.failsOnly_bind (Edit.failsOnly_modify _) fun _ =>
      Edit.failsOnly_bind ?_ fun _ => ?_
  · split
    · exact Edit.failsOnly_modify _
    · exact Edit.failsOnly_pure ()
  · split
    · exact hInsert .contentType _
    · exact Edit.failsOnly_pure ()
  · split
    · exact Edit.failsOnly_pure ()
    · unfold RequestDraft.setAccept
      split
      · exact Edit.failsOnly_modify _
      · exact hInsert .accept _

------------------------------------------------------------
-- Calls
------------------------------------------------------------

/-
  Contributions that succeed, if what is declared does so
  that they are reached.
-/
def Accepts
    (method : ServiceMethod)
    (arguments : List Argument) :
    Prop :=
  (method.declared .empty).result = .ok () →
    (method.contributions arguments
      (method.declared .empty).draft).result = .ok ()

variable {method : ServiceMethod}
variable {arguments : List Argument}

theorem call_eq
    (hCount : arguments.length = method.binders.length) :
    method.call arguments =
      Edit.bind method.declared fun _ =>
        method.contributions arguments :=
  if_pos hCount

/- A call that succeeds has as many arguments as it takes. -/
theorem length_of_call
    (hOk : (method.call arguments .empty).result = .ok ()) :
    arguments.length = method.binders.length := by
  unfold call at hOk
  split at hOk
  · next hCount => exact hCount
  · cases hOk

/- Both steps of a call that succeeds do so in order. -/
theorem steps_of_call
    (hOk : (method.call arguments .empty).result = .ok ()) :
    (method.declared .empty).result = .ok () ∧
      (method.contributions arguments
        (method.declared .empty).draft).result = .ok () ∧
      (method.call arguments .empty).draft =
        (method.contributions arguments
          (method.declared .empty).draft).draft := by
  have hCall := call_eq (length_of_call hOk)
  rw [hCall] at hOk ⊢
  cases hDeclared : (method.declared .empty).result with
  | error error =>
      rw [Edit.bind_of_error hDeclared] at hOk
      cases hOk
  | ok _ =>
      rw [Edit.bind_of_ok hDeclared] at hOk ⊢
      exact ⟨rfl, hOk, rfl⟩

/- With accepted arguments only what is declared can fail. -/
theorem result_call
    (hCount : arguments.length = method.binders.length)
    (hAccepts : method.Accepts arguments) :
    (method.call arguments .empty).result =
      (method.declared .empty).result := by
  rw [call_eq hCount]
  cases hDeclared : (method.declared .empty).result with
  | error error => rw [Edit.bind_of_error hDeclared]
  | ok _ =>
      rw [Edit.bind_of_ok hDeclared]
      exact hAccepts hDeclared

theorem method_call_eq_none_iff
    [DomainNames]
    {supports : Bool}
    {serviceName name : String}
    {parameters : List Parameter}
    (hBinders : parameters.mapM
      (findBinder (Resolver.chain [] supports) serviceName
        name) = .ok method.binders)
    (hCount : arguments.length = parameters.length)
    (hPresent : ∀ argument ∈ arguments,
      argument.isNull = false)
    (hOk : (method.call arguments .empty).result = .ok ()) :
    (method.call arguments .empty).draft.method = none ↔
      method.method = none ∧
        ∀ parameter ∈ parameters,
          ¬ parameter.BringsMethod supports := by
  obtain ⟨_, hContributed, hDraft⟩ := steps_of_call hOk
  have hSet := method_contributions hBinders hCount
    hPresent hContributed
  rw [method_declared] at hSet
  rw [hDraft, ← not_iff_not]
  refine hSet.trans ?_
  simp only [not_and_or, not_forall, not_not, exists_prop]

end ServiceMethod

------------------------------------------------------------
-- Prepared Requests
------------------------------------------------------------

namespace Proxy

variable {proxy : Proxy}
variable {method : ServiceMethod}
variable {arguments : List Argument}

/- A request is prepared from the draft that is left. -/
theorem result_prepare
    (proxy : Proxy)
    (method : ServiceMethod)
    (arguments : List Argument)
    (network : Network) :
    (proxy.prepare method arguments network).result =
      ((proxy.edits method arguments).apply .empty).bind
        RequestDraft.build := by
  have hEdit :
      (Run.edit (proxy.edits method arguments) .empty
        network).result =
        (proxy.edits method arguments).apply .empty := rfl
  unfold prepare
  cases hApply :
      (proxy.edits method arguments).apply .empty with
  | error error =>
      rw [Run.bind_of_error (hEdit.trans hApply)]
      rfl
  | ok draft =>
      rw [Run.bind_of_ok (hEdit.trans hApply)]
      rfl

theorem apply_edits_of_error
    {error : ServiceError}
    (h : (method.call arguments .empty).result =
      .error error) :
    (proxy.edits method arguments).apply .empty =
      .error error := by
  change (Edit.bind (method.call arguments) _).apply _ = _
  unfold Edit.apply
  rw [Edit.bind_of_error h]
  rfl

/- Without processors, only headers are added to a call. -/
theorem apply_edits_of_ok
    (hProcessors : proxy.processors = [])
    (hNames : ∀ name ∈ proxy.defaultHeaders.names,
      HeaderName.parse? name.text = some name)
    (h : (method.call arguments .empty).result = .ok ()) :
    ∃ headers,
      (proxy.edits method arguments).apply .empty =
        .ok { (method.call arguments .empty).draft with
          headers := headers } := by
  obtain ⟨headers, hAdded, _⟩ := addDefaults_values
    proxy.defaultHeaders hNames
    (method.call arguments .empty).draft
  refine ⟨headers, ?_⟩
  have hResult :
      (addDefaults proxy.defaultHeaders
        (method.call arguments .empty).draft).result =
        .ok () := by
    rw [hAdded]
  change (Edit.bind (method.call arguments) fun _ =>
    Edit.bind (addDefaults proxy.defaultHeaders) fun _ =>
      Edit.all (proxy.processors.map fun process =>
        process method.name)).apply _ = _
  unfold Edit.apply
  rw [Edit.bind_of_ok h, Edit.bind_of_ok hResult, hProcessors]
  dsimp only
  rw [hAdded]
  rfl

end Proxy

------------------------------------------------------------
-- Misconfigured Calls
------------------------------------------------------------

/- A request that is not set up as it should be. -/
theorem RequestDraft.build_misconfigured_iff
    (draft : RequestDraft) :
    (∃ error, draft.build = .error error ∧
      error.isConfiguration = true) ↔
      draft.method = none := by
  cases hMethod : draft.method with
  | none =>
      have hBuild : draft.build = .error methodRequired := by
        unfold build
        rw [hMethod]
      exact ⟨fun _ => rfl, fun _ => ⟨_, hBuild, rfl⟩⟩
  | some method =>
      constructor
      · rintro ⟨error, hError, hKind⟩
        rcases build_cases ⟨method, hMethod⟩ with
          ⟨_, finished, hBuild, _⟩ |
          ⟨_, _, finished, hBuild, _⟩ | ⟨_, _, hBuild⟩
        · cases hBuild.symm.trans hError
        · cases hBuild.symm.trans hError
        · cases hBuild.symm.trans hError
          cases hKind
      · intro hNone
        cases hNone

/- What a configuration hands on to its factory. -/
theorem FactoryConfig.of_build
    [DomainNames]
    {config : FactoryConfig}
    {factory : ProxyFactory}
    (h : config.build = .ok factory) :
    factory.resolvers = Resolver.chain config.resolvers
        factory.adapter.supportsAttributes ∧
      factory.processors = config.processors ∧
      ∀ name ∈ factory.defaultHeaders.names,
        HeaderName.parse? name.text = some name := by
  obtain ⟨_, hResolvers, hProcessors, hHeaders⟩ :=
    parts_of_build h
  refine ⟨hResolvers, hProcessors, fun name hMem => ?_⟩
  rw [Headers.mem_names, hHeaders] at hMem
  exact Headers.parse?_of_registered hMem

/-
  A proxy that was made of a service by a factory without
  resolvers and processors of its own.
-/
structure PlainProxy [DomainNames] where
  config : FactoryConfig
  noResolvers : config.resolvers = []
  noProcessors : config.processors = []
  factory : ProxyFactory
  factoryBuilt : config.build = .ok factory
  serviceName : String
  service : ServiceDescriptor
  proxy : Proxy
  proxyMade : factory.proxyOf serviceName service = .ok proxy

namespace PlainProxy

section

variable [DomainNames]
variable (plain : PlainProxy)

/- What a proxy takes over from its factory. -/
theorem proxy_of_factory :
    plain.proxy.processors = [] ∧
      plain.proxy.defaultHeaders =
        plain.factory.defaultHeaders := by
  obtain ⟨_, hProcessors, _⟩ :=
    FactoryConfig.of_build plain.factoryBuilt
  obtain ⟨methods, _, _, hMade⟩ :=
    (plain.factory.proxyOf_eq_ok_iff ..).mp plain.proxyMade
  rw [hMade]
  exact ⟨hProcessors.trans plain.noProcessors, rfl⟩

/-
  A call with arguments that are all accepted is not set up
  as it should be exactly if its method declares no request
  method and has no parameter that brings one.
-/
theorem misconfigured_iff
    {descriptor : MethodDescriptor}
    (hMem : descriptor ∈ plain.service.methods)
    {method : ServiceMethod}
    (hMethod :
      plain.proxy.method descriptor.name = .ok method)
    {arguments : List Argument}
    (hCount :
      arguments.length = descriptor.parameters.length)
    (hPresent : ∀ argument ∈ arguments,
      argument.isNull = false)
    (hAccepts : method.Accepts arguments)
    (network : Network) :
    (∃ error,
      (plain.proxy.prepare method arguments network).result =
        .error error ∧
      error.isConfiguration = true) ↔
      (method.declared .empty).result = .ok () ∧
        descriptor.method = none ∧
        ∀ parameter ∈ descriptor.parameters,
          ¬ parameter.BringsMethod
            plain.factory.adapter.supportsAttributes := by
  obtain ⟨hResolvers, _, hNames⟩ :=
    FactoryConfig.of_build plain.factoryBuilt
  rw [plain.noResolvers] at hResolvers
  obtain ⟨hProcessors, hDefaults⟩ := plain.proxy_of_factory
  rw [← hDefaults] at hNames
  have hPrepared := ProxyFactory.ofDescriptor_of_method
    plain.proxyMade hMem hMethod
  obtain ⟨_, binders, url, hBinders, _, hMade⟩ :=
    (ServiceMethod.ofDescriptor_eq_ok_iff method).mp hPrepared
  rw [hResolvers] at hBinders
  have hOwnBinders :
      descriptor.parameters.mapM
        (ServiceMethod.findBinder
          (Resolver.chain []
            plain.factory.adapter.supportsAttributes)
          plain.serviceName descriptor.name) =
        .ok method.binders := by
    rw [hBinders, hMade]
  have hOwnMethod : method.method = descriptor.method := by
    rw [hMade]
  have hResult := ServiceMethod.result_call
    (hCount.trans (Fallible.length_of_mapM hOwnBinders).symm)
    hAccepts
  rw [Proxy.result_prepare, ← hOwnMethod]
  cases hCall : (method.call arguments .empty).result with
  | error error =>
      rw [hCall] at hResult
      have hKind : error.isConfiguration = false :=
        method.failsOnly_declared .empty error hResult.symm
      rw [Proxy.apply_edits_of_error hCall, ← hResult]
      constructor
      · rintro ⟨_, hSame, hOther⟩
        cases hSame
        exact absurd hOther (Bool.eq_false_iff.mp hKind)
      · rintro ⟨hOk, _⟩
        cases hOk
  | ok _ =>
      obtain ⟨headers, hApplied⟩ :=
        Proxy.apply_edits_of_ok hProcessors hNames hCall
      rw [hApplied, ← hResult, hCall,
        ← ServiceMethod.method_call_eq_none_iff hOwnBinders
          hCount hPresent hCall]
      refine (RequestDraft.build_misconfigured_iff _).trans ?_
      exact (and_iff_right rfl).symm

end

/- A service whose method takes its request method. -/
def sendService (binding : Option Binding) :
    ServiceDescriptor :=
  { ServiceDescriptor.empty with
    methods :=
      [{ MethodDescriptor.bare "send" with
          parameters :=
            [⟨0, some "method", .method, binding⟩] }] }

/- The method, with a binder for what it takes. -/
def sendMethod (binder : Binder) : ServiceMethod where
  service := "Items"
  name := "send"
  method := none
  url := ""
  contentType := none
  accept := []
  binders := [binder]
  returns := .nothing

open PlainNames CommonMedia

/- The proxy of the service. -/
def sendProxy (binder : Binder) : Proxy where
  service := "Items"
  methods := [sendMethod binder]
  adapter := ProxyFactory.hostFactory.adapter
  processors := []
  defaultHeaders := .empty

/- The configuration of the factory. -/
def hostConfig : FactoryConfig :=
  { FactoryConfig.ofAdapter
      ProxyFactory.hostFactory.adapter with
    embeddedValues := ProxyFactory.hostFactory.embeddedValues }

/- The argument becomes the request method. -/
def unbound : PlainProxy where
  config := hostConfig
  noResolvers := rfl
  noProcessors := rfl
  factory := ProxyFactory.hostFactory
  factoryBuilt := rfl
  serviceName := "Items"
  service := sendService none
  proxy := sendProxy Resolver.contributeMethod
  proxyMade := rfl

/- The argument becomes a header. -/
def headed : PlainProxy where
  config := hostConfig
  noResolvers := rfl
  noProcessors := rfl
  factory := ProxyFactory.hostFactory
  factoryBuilt := rfl
  serviceName := "Items"
  service := sendService (some (.named .header .unnamed))
  proxy := sendProxy
    (Role.header.rule.addValue ⟨"method", true, none⟩)
  proxyMade := rfl

/- With a method for an argument, all is set up. -/
theorem configured_unbound :
    ¬ ∃ error,
      (unbound.proxy.prepare
        (sendMethod Resolver.contributeMethod)
        [.method .get]
        (fun _ _ => .ok ⟨200, .empty, []⟩)).result =
        .error error ∧
      error.isConfiguration = true := by
  have hPresent :
      ∀ argument ∈ [Argument.method .get],
        argument.isNull = false := by
    intro argument hMem
    rw [List.mem_singleton.mp hMem]
    rfl
  rw [unbound.misconfigured_iff (List.mem_singleton.mpr rfl)
    rfl rfl hPresent (fun _ => rfl)]
  rintro ⟨_, _, hNone⟩
  exact hNone _ (List.mem_singleton.mpr rfl) ⟨rfl, .inl rfl⟩

/-
  A method that is taken as a header is accepted, and calls
  have none.
-/
theorem calls_not_always_configured :
    ¬ ∀ (plain : PlainProxy),
      ∀ descriptor ∈ plain.service.methods,
      ∀ method,
        plain.proxy.method descriptor.name = .ok method →
      ∀ arguments : List Argument,
        arguments.length = descriptor.parameters.length →
        (∀ argument ∈ arguments, argument.isNull = false) →
        method.Accepts arguments →
      ∀ network error,
        (plain.proxy.prepare method arguments
          network).result = .error error →
        error.isConfiguration = false := by
  intro hAlways
  have hPresent :
      ∀ argument ∈ [Argument.text "GET"],
        argument.isNull = false := by
    intro argument hMem
    rw [List.mem_singleton.mp hMem]
    rfl
  have hConfigured := hAlways headed _
    (List.mem_singleton.mpr rfl) _ rfl [.text "GET"] rfl
    hPresent (fun _ => rfl)
    (fun _ _ => .ok ⟨200, .empty, []⟩)
    RequestDraft.methodRequired rfl
  cases hConfigured

end PlainProxy

end ServiceCalls
