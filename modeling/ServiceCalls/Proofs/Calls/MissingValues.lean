import ServiceCalls.Proofs.Binding.Absence
import ServiceCalls.Proofs.Binding.Contributions
import ServiceCalls.Proofs.Calls.Methods

/-
  Calls that lack a required value.

  A call that passes null for a required named value fails
  for that value before anything is sent.  Maps are bound by
  their entries, and null has none, so that a required map
  is not missed; neither is a value whose parameter is bound
  by its type to the target or the method of the request.

  Key definitions include:
    * `Parameter.IsRequired` and `Parameter.Misses`
    * `Run.Fails`
    * `NullCall`

  Main declarations:
    * `Resolver.null_of_required`
    * `Edit.result_all_of_fails`
    * `ProxyFunction.run_fails`
    * `NullCall.misses_iff`
-/

namespace ServiceCalls

------------------------------------------------------------
-- Required Values
------------------------------------------------------------

/-
  A parameter whose named value has to be there: it is
  declared so and has no default, or it is a file that no
  binding takes away from its type.
-/
inductive Parameter.IsRequired (parameter : Parameter) :
    Prop where
| named
    {role : Role}
    {value : NamedValue}
    (hBinding :
      parameter.binding = some (.named role value))
    (hRequired : value.required = true)
    (hDefault : value.default? = none)
| file
    (hBinding : parameter.binding = none)
    (hType : parameter.type = .file)

/- The error of a parameter whose value is not there. -/
def Parameter.Misses
    (parameter : Parameter)
    (error : ServiceError) :
    Prop :=
  ∃ (kind : NamedKind) (value : NamedValue) (name : String),
    kind.Declares parameter value ∧
      NamedKind.nameOf? value parameter = some name ∧
      error = .missingValue kind.label name

variable {supports : Bool}
variable {parameter : Parameter}
variable {binder : Binder}

theorem NamedKind.misses_of_bind
    {kind : NamedKind}
    {value : NamedValue}
    (hDeclares : kind.Declares parameter value)
    (hRequired : value.required = true)
    (hDefault : value.default? = none)
    (hType : parameter.type ≠ .map)
    (hBinder : kind.rule.bind value parameter =
      .ok binder) :
    ∃ error, parameter.Misses error ∧
      ∀ draft, binder .null draft =
        ⟨draft, [], .error error⟩ := by
  unfold ValueRule.bind at hBinder
  rw [if_neg hType] at hBinder
  rcases Fallible.map_eq_ok hBinder with ⟨name, hName, rfl⟩
  refine ⟨.missingValue kind.label name,
    ⟨kind, value, name, hDeclares,
      ValueRule.nameOf?_of_effectiveName hName, rfl⟩,
    fun draft => ?_⟩
  rw [← label_rule]
  simp [ValueRule.addValue, ValueRule.items?,
    ValueRule.addOne, Argument.isNull, hRequired, hDefault,
    Edit.fail]

namespace Resolver

variable [DomainNames]

/- A file that is bound by its type is missed. -/
theorem missed_byType
    (hBinder : byType parameter = .ok (some binder))
    (hType : parameter.type = .file) :
    ∃ error, parameter.Misses error ∧
      ∀ draft, binder .null draft =
        ⟨draft, [], .error error⟩ := by
  unfold byType at hBinder
  rw [hType] at hBinder
  rcases Fallible.map_eq_ok hBinder with
    ⟨made, hMade, hSame⟩
  cases hSame
  refine NamedKind.misses_of_bind (.file hType) rfl rfl ?_
    hMade
  rw [hType]
  exact ParameterType.noConfusion

/- Null is missed unless its two forms are told apart. -/
theorem missed_of_required
    (hRequired : parameter.IsRequired)
    (hBinder : firstOf (chain [] supports) parameter =
      .ok (some binder))
    (hAlike : ¬ parameter.TellsNullsApart supports) :
    ∃ error, parameter.Misses error ∧
      ∀ draft, binder .null draft =
        ⟨draft, [], .error error⟩ := by
  rw [firstOf_chain] at hBinder
  cases hRequired with
  | file hBinding hType =>
      rw [byBinding_of_boundByType (.inl hBinding)] at hBinder
      exact missed_byType hBinder hType
  | @named role value hBinding hValue hDefault =>
      by_cases hOff : role = .attribute ∧ supports = false
      · rw [hOff.1] at hBinding
        have hBound : parameter.BoundByType supports :=
          .inr ⟨hOff.2, value, hBinding⟩
        rw [byBinding_of_boundByType hBound] at hBinder
        rcases null_byType hBinder .empty with
          ⟨hFile, _⟩ | ⟨hTarget, _⟩
        · exact missed_byType hBinder hFile
        · exact absurd (.inr ⟨hTarget, hBound⟩) hAlike
      · unfold byBinding at hBinder
        rw [hBinding] at hBinder
        dsimp only at hBinder
        rw [if_neg hOff] at hBinder
        rcases Fallible.map_eq_ok hBinder with
          ⟨made, hMade, hSame⟩
        cases hSame
        have hType : parameter.type ≠ .map := fun hMap =>
          hAlike (.inl ⟨hMap, role, value, hBinding⟩)
        have hDeclares : (NamedKind.ofRole role).Declares
            parameter value := .ofRole hBinding
        exact NamedKind.misses_of_bind hDeclares hValue
          hDefault hType hMade

/-
  A required value is missed for every null argument, or its
  parameter takes null for nothing and refuses JSON null.
-/
theorem null_of_required
    (hRequired : parameter.IsRequired)
    (hBinder : firstOf (chain [] supports) parameter =
      .ok (some binder)) :
    (¬ parameter.TellsNullsApart supports ∧
      ∃ error, parameter.Misses error ∧
        ∀ argument : Argument, argument.isNull = true →
          ∀ draft, binder argument draft =
            ⟨draft, [], .error error⟩) ∨
    (parameter.TellsNullsApart supports ∧
      ∀ draft, Binder.RefusesJsonNull binder draft) := by
  by_cases hApart : parameter.TellsNullsApart supports
  · refine .inr ⟨hApart, fun draft => ?_⟩
    rcases null_of_chain hBinder draft with
      ⟨hAlike, _⟩ | ⟨_, hRefuses⟩
    · exact absurd hApart hAlike
    · exact hRefuses
  · rcases missed_of_required hRequired hBinder hApart with
      ⟨error, hError, hMissed⟩
    refine .inl ⟨hApart, error, hError, ?_⟩
    intro argument hNull draft
    rcases (Argument.isNull_iff argument).mp hNull with
      rfl | rfl
    · exact hMissed draft
    · rcases null_of_chain hBinder draft with
        ⟨_, hSame⟩ | ⟨hTold, _⟩
      · rw [hSame]
        exact hMissed draft
      · exact absurd hTold hApart

end Resolver

------------------------------------------------------------
-- Steps in Order
------------------------------------------------------------

namespace Edit

/-
  A step that fails on every draft ends the steps, at the
  latest; its own failure shows if it is reached.
-/
theorem result_all_of_fails
    {steps : List (Edit Unit)}
    {position : Nat}
    {step : Edit Unit}
    (hStep : steps[position]? = some step)
    {error : ServiceError}
    (hFails : ∀ draft, (step draft).result = .error error)
    (draft : RequestDraft) :
    (∃ other,
      (Edit.all steps draft).result = .error other) ∧
    ((Edit.all (steps.take position) draft).result =
        .ok () →
      (Edit.all steps draft).result = .error error) := by
  induction steps generalizing position draft with
  | nil => cases hStep
  | cons first rest ih =>
      cases position with
      | zero =>
          cases hStep
          have hAll :
              (Edit.all (step :: rest) draft).result =
                .error error := by
            rw [Edit.all, bind_of_error (hFails draft)]
          exact ⟨⟨error, hAll⟩, fun _ => hAll⟩
      | succ next =>
          rw [List.getElem?_cons_succ] at hStep
          rw [List.take_succ_cons, Edit.all, Edit.all]
          cases hFirst : (first draft).result with
          | error other =>
              rw [bind_of_error hFirst, bind_of_error hFirst]
              refine ⟨⟨other, rfl⟩, fun hEarlier => ?_⟩
              cases hEarlier
          | ok _ =>
              rw [bind_of_ok hFirst, bind_of_ok hFirst]
              exact ih hStep (first draft).draft

/- A step that does nothing can be left out. -/
theorem all_eraseIdx
    {steps : List (Edit Unit)}
    {position : Nat}
    (hStep : steps[position]? = some (Edit.pure ())) :
    Edit.all (steps.eraseIdx position) = Edit.all steps := by
  induction steps generalizing position with
  | nil => cases hStep
  | cons first rest ih =>
      cases position with
      | zero =>
          cases hStep
          funext draft
          rfl
      | succ next =>
          rw [List.getElem?_cons_succ] at hStep
          rw [List.eraseIdx_cons_succ, Edit.all, Edit.all,
            ih hStep]

end Edit

------------------------------------------------------------
-- Runs That Fail
------------------------------------------------------------

namespace Run

variable {α β : Type}

/- A run that sends nothing and fails in one way. -/
def Fails (run : Run α) (error : ServiceError) : Prop :=
  ∀ network, (run network).executions = [] ∧
    (run network).result = .error error

/- Nothing comes after a failure. -/
theorem Fails.bind
    {first : Run α}
    {error : ServiceError}
    (h : first.Fails error)
    (next : α → Run β) :
    (first >>= next).Fails error := by
  intro network
  rcases h network with ⟨hEvents, hResult⟩
  rw [bind_of_error hResult]
  exact ⟨hEvents, rfl⟩

/- What precedes a failure without sending anything. -/
theorem Yields.fails
    {first : Run α}
    {next : α → Run β}
    {a : α}
    (hFirst : first.Yields (.ok a))
    {error : ServiceError}
    (h : (next a).Fails error) :
    (first >>= next).Fails error := by
  intro network
  rcases hFirst network with ⟨hEvents, hResult⟩
  rcases h network with ⟨hLater, hFailed⟩
  rw [bind_of_ok hResult]
  refine ⟨?_, hFailed⟩
  rw [executions_append, hEvents, hLater, List.append_nil]

theorem fails_edit
    {step : Edit Unit}
    {draft : RequestDraft}
    {error : ServiceError}
    (h : step.apply draft = .error error) :
    (Run.edit step draft).Fails error := by
  -- The stage that a failure is put down to does not show.
  have hApply : step.apply draft =
      Except.mapError Failure.error
        (.error ⟨.contribution, error⟩) := h
  exact Yields.edit hApply

end Run

/- A call whose edits fail is not handed to the adapter. -/
theorem Proxy.start_fails
    (proxy : Proxy)
    {method : ServiceMethod}
    {arguments : List Argument}
    {error : ServiceError}
    (h : (method.call arguments .empty).result =
      .error error) :
    (proxy.start method arguments).Fails error := by
  have hEdits : (Run.edit (proxy.edits method arguments)
      .empty).Fails error :=
    Run.fails_edit (Proxy.apply_edits_of_error h)
  exact (hEdits.bind _).bind _

namespace ProxyFunction

/-
  A call that cannot be started fails for that, whatever the
  function; but a function that does not fit what the method
  is declared to return fails before.
-/
theorem run_fails
    (function : ProxyFunction)
    {proxy : Proxy}
    {name : String}
    {method : ServiceMethod}
    (hMethod : proxy.method name = .ok method)
    {arguments : List Argument}
    {error : ServiceError}
    (hStart :
      (proxy.start method arguments).Fails error) :
    (function.run proxy name arguments).Fails
      (if function.accepts method.returns then error
        else proxy.notReturned name function.expected) := by
  have hLookup :
      (Run.lift (proxy.method name)).Yields (.ok method) := by
    rw [hMethod]
    exact Run.Yields.lift .lookup _
  have hRefused {α : Type} (other : ServiceError) :
      (Run.fail other : Run α).Fails other :=
    fun _ => ⟨rfl, rfl⟩
  cases function with
  | invoke => exact hLookup.fails (hStart.bind _)
  | exchange =>
      refine hLookup.fails ?_
      cases method.returns with
      | nothing => exact hStart.bind _
      | _ => exact hRefused _
  | headers =>
      refine hLookup.fails ?_
      cases method.returns with
      | headers => exact hStart.bind _
      | _ => exact hRefused _
  | body schema =>
      refine hLookup.fails ?_
      cases method.returns with
      | body type => exact hStart.bind _
      | _ => exact hRefused _
  | entity schema =>
      refine hLookup.fails ?_
      cases method.returns with
      | entity type => exact hStart.bind _
      | _ => exact hRefused _
  | bodilessEntity =>
      refine hLookup.fails ?_
      cases method.returns with
      | bodilessEntity => exact hStart.bind _
      | _ => exact hRefused _

end ProxyFunction

------------------------------------------------------------
-- Calls With Null
------------------------------------------------------------

/- Resolvers that decline a parameter do not change it. -/
theorem Resolver.firstOf_chain_of_declined
    [DomainNames]
    {custom : List Resolver}
    (hDeclined : ∀ resolver ∈ custom,
      resolver parameter = .ok none)
    (supports : Bool) :
    firstOf (chain custom supports) parameter =
      firstOf (chain [] supports) parameter := by
  induction custom with
  | nil => rfl
  | cons resolver rest ih =>
      rw [List.forall_mem_cons] at hDeclined
      rw [← ih hDeclined.2]
      change firstOf (resolver :: chain rest supports) _ = _
      rw [firstOf, hDeclined.1]

/-
  A call of a declared method that passes null for one of
  its parameters, which no custom resolver binds.  Whatever
  the adapter does, all it has to tell is whether it
  supports attributes.
-/
structure NullCall
    [DomainNames]
    (supports : Bool)
    (parameter : Parameter) where
  config : FactoryConfig
  declined : ∀ resolver ∈ config.resolvers,
    resolver parameter = .ok none
  factory : ProxyFactory
  factoryBuilt : config.build = .ok factory
  supported : factory.adapter.supportsAttributes = supports
  serviceName : String
  service : ServiceDescriptor
  proxy : Proxy
  proxyMade : factory.proxyOf serviceName service = .ok proxy
  descriptor : MethodDescriptor
  listed : descriptor ∈ service.methods
  position : Nat
  located : descriptor.parameters[position]? = some parameter
  method : ServiceMethod
  found : proxy.method descriptor.name = .ok method
  function : ProxyFunction
  arguments : List Argument
  argument : Argument
  passed : arguments[position]? = some argument
  isNull : argument.isNull = true

namespace NullCall

section

variable [DomainNames]

/- What is done by a call. -/
def run (call : NullCall supports parameter) :
    Run call.function.Result :=
  call.function.run call.proxy call.descriptor.name
    call.arguments

/- What the arguments add, one after the other. -/
def steps (call : NullCall supports parameter) :
    List (Edit Unit) :=
  List.zipWith (fun binder argument => binder argument)
    call.method.binders call.arguments

/- A call that does not fail before it comes to the null. -/
structure Reached (call : NullCall supports parameter) :
    Prop where
  accepted :
    call.function.accepts call.method.returns = true
  counted :
    call.arguments.length = call.method.binders.length
  declared : (call.method.declared .empty).result = .ok ()
  earlier :
    (Edit.all (call.steps.take call.position)
      (call.method.declared .empty).draft).result = .ok ()

/- A call that fails for the value, and sends nothing. -/
def Misses (call : NullCall supports parameter) : Prop :=
  ∃ error, parameter.Misses error ∧ call.run.Fails error

variable (call : NullCall supports parameter)

/- The null is bound as the chain binds its parameter. -/
theorem exists_step :
    ∃ binder : Binder,
      Resolver.firstOf (Resolver.chain [] supports)
          parameter = .ok (some binder) ∧
        call.steps[call.position]? =
          some (binder call.argument) := by
  have hPrepared := ProxyFactory.ofDescriptor_of_method
    call.proxyMade call.listed call.found
  rcases (ServiceMethod.ofDescriptor_eq_ok_iff call.method).mp
    hPrepared with
    ⟨_, binders, url, hBinders, _, hMade⟩
  rcases Fallible.getElem?_of_mapM hBinders call.located with
    ⟨binder, hThere, hFound⟩
  rw [ServiceMethod.findBinder_eq_ok_iff,
    (FactoryConfig.of_build call.factoryBuilt).1,
    call.supported,
    Resolver.firstOf_chain_of_declined call.declined]
    at hFound
  refine ⟨binder, hFound, ?_⟩
  unfold steps
  rw [List.getElem?_zipWith, hMade, hThere, call.passed]

/- A step that fails for sure fails the call it is part of. -/
theorem result_of_step
    {step : Edit Unit}
    (hStep : call.steps[call.position]? = some step)
    {error : ServiceError}
    (hFails : ∀ draft, (step draft).result = .error error) :
    (∃ other,
      (call.method.call call.arguments .empty).result =
        .error other) ∧
      (call.Reached →
        (call.method.call call.arguments .empty).result =
          .error error) := by
  by_cases hCount :
      call.arguments.length = call.method.binders.length
  · have hSteps := Edit.result_all_of_fails hStep hFails
      (call.method.declared .empty).draft
    rw [ServiceMethod.call_eq hCount]
    cases hDeclared :
        (call.method.declared .empty).result with
    | error other =>
        refine ⟨⟨other, ?_⟩, fun hReached => ?_⟩
        · rw [Edit.bind_of_error hDeclared]
        · rw [hReached.declared] at hDeclared
          cases hDeclared
    | ok _ =>
        rw [Edit.bind_of_ok hDeclared]
        exact ⟨hSteps.1,
          fun hReached => hSteps.2 hReached.earlier⟩
  · refine ⟨⟨call.method.wrongCount call.arguments.length,
      ?_⟩, fun hReached => absurd hReached.counted hCount⟩
    unfold ServiceMethod.call
    rw [if_neg hCount]
    rfl

theorem run_fails_of_step
    {step : Edit Unit}
    (hStep : call.steps[call.position]? = some step)
    {error : ServiceError}
    (hFails : ∀ draft, (step draft).result = .error error) :
    (∃ other, call.run.Fails other) ∧
      (call.Reached → call.run.Fails error) := by
  rcases call.result_of_step hStep hFails with
    ⟨⟨other, hOther⟩, hError⟩
  refine ⟨⟨_, call.function.run_fails call.found
    (call.proxy.start_fails hOther)⟩, fun hReached => ?_⟩
  have hRun := call.function.run_fails call.found
    (call.proxy.start_fails (hError hReached))
  rw [if_pos hReached.accepted] at hRun
  exact hRun

------------------------------------------------------------
-- A Call of One Parameter and a Target
------------------------------------------------------------

/- A method of a parameter and of the target. -/
def findDescriptor (parameter : Parameter) :
    MethodDescriptor :=
  { MethodDescriptor.bare "find" with
    method := some .get
    parameters := [parameter, ⟨1, none, .uri, none⟩] }

/- A service with this method alone. -/
def findService (parameter : Parameter) :
    ServiceDescriptor :=
  { ServiceDescriptor.empty with
    methods := [findDescriptor parameter] }

/- The method with its parameters bound. -/
def findMethod (binder : Binder) : ServiceMethod where
  service := "Items"
  name := "find"
  method := some .get
  url := ""
  contentType := none
  accept := []
  binders := [binder, Resolver.contributeUri]
  returns := .nothing

theorem findMethod_made
    (hBinder :
      Resolver.firstOf (Resolver.chain [] supports)
        parameter = .ok (some binder)) :
    (findService parameter).methods.mapM
        (ServiceMethod.ofDescriptor
          (Resolver.chain [] supports) none "Items"
          (findService parameter)) =
      .ok [findMethod binder] := by
  have hFound := (ServiceMethod.findBinder_eq_ok_iff
    (Resolver.chain [] supports) "Items" "find" parameter
    binder).mpr hBinder
  have hTarget := (ServiceMethod.findBinder_eq_ok_iff
    (Resolver.chain [] supports) "Items" "find"
    ⟨1, none, .uri, none⟩ Resolver.contributeUri).mpr
      (Resolver.firstOf_chain supports _)
  have hBinders :
      (findDescriptor parameter).parameters.mapM
        (ServiceMethod.findBinder
          (Resolver.chain [] supports) "Items" "find") =
        .ok [binder, Resolver.contributeUri] := by
    refine (Fallible.mapM_cons_eq_ok_iff ..).mpr
      ⟨binder, _, hFound, ?_, rfl⟩
    exact (Fallible.mapM_cons_eq_ok_iff ..).mpr
      ⟨_, [], hTarget, rfl, rfl⟩
  exact (Fallible.mapM_cons_eq_ok_iff ..).mpr
    ⟨_, [], (ServiceMethod.ofDescriptor_eq_ok_iff _).mpr
      ⟨rfl, _, "", hBinders, rfl, rfl⟩, rfl, rfl⟩

/- The call that passes a null for the parameter. -/
def find
    (adapter : Adapter)
    (hBinder :
      Resolver.firstOf
          (Resolver.chain [] adapter.supportsAttributes)
        parameter = .ok (some binder))
    (argument : Argument)
    (hNull : argument.isNull = true) :
    NullCall adapter.supportsAttributes parameter where
  config := .ofAdapter adapter
  declined := fun _ hMem => nomatch hMem
  factory :=
    { adapter := adapter
      resolvers :=
        Resolver.chain [] adapter.supportsAttributes
      processors := []
      defaultHeaders := .empty
      embeddedValues := none }
  factoryBuilt := rfl
  supported := rfl
  serviceName := "Items"
  service := findService parameter
  proxy :=
    { service := "Items"
      methods := [findMethod binder]
      adapter := adapter
      processors := []
      defaultHeaders := .empty }
  proxyMade := (ProxyFactory.proxyOf_eq_ok_iff ..).mpr
    ⟨_, findMethod_made hBinder, List.nodup_singleton _,
      rfl⟩
  descriptor := findDescriptor parameter
  listed := List.mem_singleton.mpr rfl
  position := 0
  located := rfl
  method := findMethod binder
  found := rfl
  function := .exchange
  arguments := [argument, .uri ProxyFunction.remoteTarget]
  argument := argument
  passed := rfl
  isNull := hNull

theorem find_reached
    (adapter : Adapter)
    (hBinder :
      Resolver.firstOf
          (Resolver.chain [] adapter.supportsAttributes)
        parameter = .ok (some binder))
    (argument : Argument)
    (hNull : argument.isNull = true) :
    (find adapter hBinder argument hNull).Reached :=
  ⟨rfl, rfl, rfl, rfl⟩

/- An adapter that sends nothing and gives back nothing. -/
def silentAdapter (supports : Bool) : Adapter where
  supportsAttributes := supports
  exchange := fun _ => Run.pure ()
  headers := fun _ => Run.pure .empty
  body := fun _ _ => Run.pure none
  entity := fun _ _ => Run.pure ⟨200, .empty, none⟩
  bodilessEntity := fun _ => Run.pure ⟨200, .empty, none⟩

/- A call that takes null for nothing comes to an end. -/
theorem result_find
    (hBinder :
      Resolver.firstOf (Resolver.chain [] supports)
        parameter = .ok (some binder))
    (hNothing : binder .null = Edit.pure ())
    (network : Network) :
    ((find (silentAdapter supports) hBinder .null
      rfl).run network).result = .ok () := by
  let call := find (silentAdapter supports) hBinder .null rfl
  have hEdits :
      call.proxy.edits (findMethod binder) call.arguments =
        Edit.bind
          (Edit.bind (findMethod binder).declared fun _ =>
            Edit.all [binder .null,
              Resolver.contributeUri
                (.uri ProxyFunction.remoteTarget)])
          fun _ => Edit.bind (Proxy.addDefaults .empty)
            fun _ => Edit.all [] :=
    rfl
  rw [hNothing] at hEdits
  have hStart : ∃ values,
      (call.proxy.start (findMethod binder) call.arguments
        network).result = .ok values := by
    unfold Proxy.start Proxy.prepare
    rw [hEdits]
    exact ⟨_, rfl⟩
  rcases hStart with ⟨values, hValues⟩
  change (Run.bind (call.proxy.start (findMethod binder)
    call.arguments) call.proxy.adapter.exchange
      network).result = _
  exact congrArg Outcome.result
    (Run.bind_of_ok hValues call.proxy.adapter.exchange)

------------------------------------------------------------
-- Missed Values
------------------------------------------------------------

/-
  Every call that comes to the null of a required parameter
  misses its value, exactly if the parameter does not tell
  nulls apart.  Then no call with a null sends anything.  A
  parameter that does takes null for nothing: the call goes
  on as it would without the argument.
-/
theorem misses_iff
    (hRequired : parameter.IsRequired)
    (hBound : ∃ binder,
      Resolver.firstOf (Resolver.chain [] supports)
        parameter = .ok (some binder)) :
    ((∀ call : NullCall supports parameter,
        call.Reached → call.Misses) ↔
      ¬ parameter.TellsNullsApart supports) ∧
    (¬ parameter.TellsNullsApart supports →
      ∀ call : NullCall supports parameter,
        ∃ error, call.run.Fails error) ∧
    (parameter.TellsNullsApart supports →
      ∀ call : NullCall supports parameter,
        call.argument = .null →
          call.method.contributions call.arguments =
            Edit.all (call.steps.eraseIdx
              call.position)) := by
  have hMissed
      (hAlike : ¬ parameter.TellsNullsApart supports)
      (call : NullCall supports parameter) :
      ∃ error, parameter.Misses error ∧
        (∃ other, call.run.Fails other) ∧
        (call.Reached → call.run.Fails error) := by
    rcases call.exists_step with ⟨binder, hBinder, hStep⟩
    rcases Resolver.null_of_required hRequired hBinder with
      ⟨_, error, hError, hNull⟩ | ⟨hApart, _⟩
    · refine ⟨error, hError, call.run_fails_of_step hStep
        fun draft => ?_⟩
      rw [hNull call.argument call.isNull draft]
    · exact absurd hApart hAlike
  refine ⟨⟨?_, ?_⟩, ?_, ?_⟩
  · intro hAll hApart
    rcases hBound with ⟨binder, hBinder⟩
    rcases Resolver.null_of_required hRequired hBinder with
      ⟨hAlike, _⟩ | ⟨_, hRefuses⟩
    · exact hAlike hApart
    · have hNothing : binder .null = Edit.pure () :=
        funext fun draft => (hRefuses draft).1
      have hReached := find_reached (silentAdapter supports)
        hBinder .null rfl
      rcases hAll _ hReached with ⟨error, _, hFails⟩
      have hEnds := result_find hBinder hNothing
        fun _ _ => .ok ⟨200, .empty, []⟩
      cases (hFails _).2.symm.trans hEnds
  · intro hAlike call hReached
    rcases hMissed hAlike call with
      ⟨error, hError, _, hFails⟩
    exact ⟨error, hError, hFails hReached⟩
  · intro hAlike call
    rcases hMissed hAlike call with ⟨_, _, hFails, _⟩
    exact hFails
  · intro hApart call hNull
    rcases call.exists_step with ⟨binder, hBinder, hStep⟩
    rcases Resolver.null_of_required hRequired hBinder with
      ⟨hAlike, _⟩ | ⟨_, hRefuses⟩
    · exact absurd hApart hAlike
    · have hNothing : binder .null = Edit.pure () :=
        funext fun draft => (hRefuses draft).1
      rw [hNull, hNothing] at hStep
      exact (Edit.all_eraseIdx hStep).symm

end

------------------------------------------------------------
-- A Map That Is Not Missed
------------------------------------------------------------

open PlainNames CommonMedia

/- A client that needs no base. -/
def remoteClient : Client where
  base? := none
  defaultHeaders := .empty
  defaultCookies := []
  interceptors := []
  transport := .given

/- A required cookie. -/
def sessionCookie : Parameter :=
  Parameter.ofRole .cookie "session"

/- A JSON null for the cookie. -/
def sessionCall : NullCall true sessionCookie :=
  find (.ofClient remoteClient) rfl (.json .null) rfl

/- The cookie is missed, and nothing is sent without it. -/
theorem session_missed : sessionCall.Misses := by
  have hAlike :
      ¬ sessionCookie.TellsNullsApart true := by
    simp [Parameter.TellsNullsApart, Parameter.BoundByType,
      sessionCookie, Parameter.ofRole, Parameter.named,
      Parameter.withBinding]
  have hMissed := misses_iff (.named rfl rfl rfl)
    ⟨_, Resolver.firstOf_chain true sessionCookie⟩
  exact hMissed.1.mpr hAlike sessionCall
    (find_reached (.ofClient remoteClient) rfl _ rfl)

/- Required headers, given as a map. -/
def filterHeaders : Parameter :=
  (Parameter.ofRole .header "filters").ofType .map

/- No map for the headers. -/
def filtersCall : NullCall true filterHeaders :=
  find (.ofClient remoteClient) rfl .null rfl

/- A request is sent although a required map is null. -/
theorem required_not_always_missed :
    ¬∀ (supports : Bool)
        (parameter : Parameter)
        (call : NullCall supports parameter),
      parameter.IsRequired → call.Reached → call.Misses := by
  intro hAll
  rcases hAll true filterHeaders
    filtersCall (.named rfl rfl rfl)
    (find_reached (.ofClient remoteClient) rfl _ rfl) with
    ⟨error, _, hFails⟩
  have hSent :
      (filtersCall.run
        fun _ _ => .ok ⟨200, .empty, []⟩).executions =
        [(.given,
          ⟨.get, ProxyFunction.remoteTarget, .empty,
            none⟩)] :=
    rfl
  cases (hFails _).1.symm.trans hSent

end NullCall

end ServiceCalls
