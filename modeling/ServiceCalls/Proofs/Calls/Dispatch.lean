import ServiceCalls.Proofs.Calls.Stages

/-
  A call hands at most one request to a transport.

  Up to the last hook a call sends nothing, and what it
  comes to does not depend on the network.  Then it sends
  one request, and nothing after that.

  Key definitions include:
    * `Outcome.executions`
    * `Run.Yields`
    * `Run.Dispatches`

  Main declarations:
    * `Run.Yields.bind` and `Run.Dispatches.after`
    * `Proxy.start_yields`
    * `Client.send_dispatches`
    * `ProxyFunction.run_dispatches`
    * `ProxyFunction.executions_of_call`
-/

namespace ServiceCalls

/- A stage adds nothing to an error but its own name. -/
theorem Stage.mapError_run
    {α : Type}
    (stage : Stage)
    (result : Except ServiceError α) :
    (stage.run result).mapError Failure.error = result := by
  cases result <;> rfl

------------------------------------------------------------
-- Executions
------------------------------------------------------------

/- The transport and the request of an execution. -/
def Event.execution? : Event → Option (Transport × Request)
  | .wrote _ => none
  | .notified _ _ _ => none
  | .sent transport request => some (transport, request)

/- All requests that were handed to transports, in order. -/
def Outcome.executions
    {α : Type}
    (outcome : Outcome α) :
    List (Transport × Request) :=
  outcome.events.filterMap Event.execution?

theorem executions_append
    {α β : Type}
    (first : Outcome α)
    (later : Outcome β) :
    Outcome.executions
        ⟨first.events ++ later.events, later.result⟩ =
      first.executions ++ later.executions :=
  List.filterMap_append

namespace Run

variable {α β : Type}

theorem bind_of_error
    {first : Run α}
    {network : Network}
    {error : ServiceError}
    (h : (first network).result = .error error)
    (next : α → Run β) :
    (first >>= next) network =
      ⟨(first network).events, .error error⟩ := by
  change Run.bind first next network = _
  simp only [Run.bind, h]

theorem bind_of_ok
    {first : Run α}
    {network : Network}
    {a : α}
    (h : (first network).result = .ok a)
    (next : α → Run β) :
    (first >>= next) network =
      ⟨(first network).events ++ (next a network).events,
        (next a network).result⟩ := by
  change Run.bind first next network = _
  simp only [Run.bind, h]

------------------------------------------------------------
-- Runs That Send Nothing
------------------------------------------------------------

/-
  A run that sends nothing and comes to a result whatever
  the network answers.
-/
def Yields
    (run : Run α)
    (result : Except Failure α) : Prop :=
  ∀ network, (run network).executions = [] ∧
    (run network).result = result.mapError Failure.error

namespace Yields

theorem pure (a : α) :
    (Pure.pure a : Run α).Yields (.ok a) :=
  fun _ => ⟨rfl, rfl⟩

theorem lift
    (stage : Stage)
    (result : Except ServiceError α) :
    (Run.lift result).Yields (stage.run result) :=
  fun _ => ⟨rfl, (stage.mapError_run result).symm⟩

theorem fail
    (stage : Stage)
    (error : ServiceError) :
    (Run.fail error : Run α).Yields
      (.error ⟨stage, error⟩) :=
  fun _ => ⟨rfl, rfl⟩

theorem write (record : LogRecord) :
    (Run.write record).Yields (.ok ()) :=
  fun _ => ⟨rfl, rfl⟩

theorem bind
    {first : Run α}
    {next : α → Run β}
    {a : Except Failure α}
    {b : α → Except Failure β}
    (hFirst : first.Yields a)
    (hNext : ∀ x, (next x).Yields (b x)) :
    (first >>= next).Yields (a >>= b) := by
  intro network
  obtain ⟨hEvents, hResult⟩ := hFirst network
  cases a with
  | error failure =>
      rw [bind_of_error hResult]
      exact ⟨hEvents, rfl⟩
  | ok x =>
      obtain ⟨hLater, hOutcome⟩ := hNext x network
      rw [bind_of_ok hResult]
      refine ⟨?_, hOutcome⟩
      rw [executions_append, hEvents, hLater,
        List.append_nil]

end Yields

/- A run that sends nothing, whatever it comes to. -/
def Quiet (run : Run α) : Prop :=
  ∀ network, (run network).executions = []

theorem Yields.quiet
    {run : Run α}
    {result : Except Failure α}
    (h : run.Yields result) :
    run.Quiet :=
  fun network => (h network).1

theorem quiet_bind
    {first : Run α}
    {next : α → Run β}
    (hFirst : first.Quiet)
    (hNext : ∀ x, (next x).Quiet) :
    (first >>= next).Quiet := by
  intro network
  cases hResult : (first network).result with
  | error error =>
      rw [bind_of_error hResult]
      exact hFirst network
  | ok x =>
      rw [bind_of_ok hResult, executions_append,
        hFirst network, hNext x network, List.append_nil]

theorem quiet_pure (a : α) :
    (Pure.pure a : Run α).Quiet :=
  fun _ => rfl

theorem quiet_lift (result : Except ServiceError α) :
    (Run.lift result).Quiet :=
  fun _ => rfl

------------------------------------------------------------
-- Runs That Send One Request
------------------------------------------------------------

/- One request was sent, or none and there is a failure. -/
def Sent
    (transport : Transport)
    (outcome : Outcome α) :
    Except Failure Request → Prop
  | .error failure =>
      outcome.executions = [] ∧
        outcome.result = .error failure.error
  | .ok request =>
      outcome.executions = [(transport, request)]

theorem Sent.congr
    {transport : Transport}
    {outcome outcome' : Outcome α}
    {result : Except Failure Request}
    (h : Sent transport outcome' result)
    (hExecutions :
      outcome.executions = outcome'.executions)
    (hResult : outcome.result = outcome'.result) :
    Sent transport outcome result := by
  cases result with
  | error failure =>
      exact ⟨hExecutions.trans h.1, hResult.trans h.2⟩
  | ok request => exact hExecutions.trans h

/-
  A run that sends the one request it comes to, and nothing
  when it fails before that.
-/
def Dispatches
    (run : Run α)
    (transport : Transport)
    (result : Except Failure Request) : Prop :=
  ∀ network, Sent transport (run network) result

namespace Dispatches

variable {transport : Transport}

/- What is done before the request is sent. -/
theorem after
    {first : Run α}
    {next : α → Run β}
    {a : Except Failure α}
    {b : α → Except Failure Request}
    (hFirst : first.Yields a)
    (hNext : ∀ x, (next x).Dispatches transport (b x)) :
    (first >>= next).Dispatches transport (a >>= b) := by
  intro network
  obtain ⟨hEvents, hResult⟩ := hFirst network
  cases a with
  | error failure =>
      rw [bind_of_error hResult]
      exact ⟨hEvents, rfl⟩
  | ok x =>
      have hLater := hNext x network
      rw [bind_of_ok hResult]
      change Sent transport _ (b x)
      refine hLater.congr ?_ rfl
      rw [executions_append, hEvents, List.nil_append]

/- What is done with what comes back. -/
theorem andThen
    {first : Run α}
    {next : α → Run β}
    {result : Except Failure Request}
    (hFirst : first.Dispatches transport result)
    (hNext : ∀ x, (next x).Quiet) :
    (first >>= next).Dispatches transport result := by
  intro network
  have hSent := hFirst network
  cases result with
  | error failure =>
      rw [bind_of_error hSent.2]
      exact ⟨hSent.1, rfl⟩
  | ok request =>
      cases hResult : (first network).result with
      | error error =>
          rw [bind_of_error hResult]
          exact hSent
      | ok x =>
          have hLater := hNext x network
          rw [bind_of_ok hResult]
          change Outcome.executions _ = _
          rw [executions_append, hLater, List.append_nil]
          exact hSent

/- What is sent is the request that a run comes to. -/
theorem eq_ok_of_sent
    {run : Run α}
    {result : Except Failure Request}
    (h : run.Dispatches transport result)
    {network : Network}
    {used : Transport}
    {request : Request}
    (hSent : (used, request) ∈ (run network).executions) :
    result = .ok request := by
  have hRun := h network
  cases result with
  | error failure =>
      rw [hRun.1] at hSent
      cases hSent
  | ok made =>
      have hOne :
          (run network).executions = [(transport, made)] :=
        hRun
      rw [hOne, List.mem_singleton] at hSent
      cases hSent
      rfl

/- A run that fails for sure sends nothing. -/
theorem of_yields
    {run : Run α}
    {failure : Failure}
    (h : run.Yields (.error failure)) :
    run.Dispatches transport (.error failure) :=
  h

end Dispatches

end Run

------------------------------------------------------------
-- Drafts
------------------------------------------------------------

namespace Edit

/-
  An edit that leaves the drafts given, or fails as they do.
-/
def Leaves
    (edit : Edit Unit)
    (drafts : RequestDraft → Except Failure RequestDraft) :
    Prop :=
  ∀ draft, edit.apply draft =
    (drafts draft).mapError Failure.error

theorem leaves_bind
    {first next : Edit Unit}
    {a b : RequestDraft → Except Failure RequestDraft}
    (hFirst : first.Leaves a)
    (hNext : next.Leaves b) :
    (Edit.bind first fun _ => next).Leaves
      fun draft => a draft >>= b := by
  intro draft
  have hApply := hFirst draft
  cases hResult : (first draft).result with
  | error error =>
      simp only [Edit.apply, Edit.bind, hResult]
        at hApply ⊢
      cases hA : a draft with
      | error failure => rw [hA] at hApply; exact hApply
      | ok left => rw [hA] at hApply; cases hApply
  | ok _ =>
      have hLater := hNext (first draft).draft
      simp only [Edit.apply, Edit.bind, hResult]
        at hApply hLater ⊢
      cases hA : a draft with
      | error failure => rw [hA] at hApply; cases hApply
      | ok left =>
          rw [hA] at hApply
          cases hApply
          exact hLater

/- Edits in order leave what they leave one by one. -/
theorem leaves_all
    (stage : Stage)
    (edits : List (Edit Unit)) :
    (Edit.all edits).Leaves (stage.edit edits) := by
  induction edits with
  | nil => exact fun _ => rfl
  | cons edit rest ih =>
      have hEdit :
          edit.Leaves fun draft =>
            stage.run (edit.apply draft) := by
        intro draft
        rw [Stage.mapError_run]
      exact leaves_bind hEdit ih

theorem leaves_single
    (stage : Stage)
    (edit : Edit Unit) :
    edit.Leaves (stage.edit [edit]) := by
  intro draft
  have hStage :
      stage.edit [edit] draft =
        stage.run (edit.apply draft) := by
    simp only [Stage.edit, List.foldlM_cons,
      List.foldlM_nil, bind_pure]
  rw [hStage, Stage.mapError_run]

end Edit

/- A call is refused for its arguments before all edits. -/
theorem ServiceMethod.call_leaves
    (method : ServiceMethod)
    (arguments : List Argument) :
    (method.call arguments).Leaves (fun draft => do
      Stage.argumentCount.run (method.checkCount arguments)
      let draft ←
        Stage.metadata.edit [method.declared] draft
      Stage.contribution.edit
        (List.zipWith (fun binder argument =>
          binder argument) method.binders arguments)
        draft) := by
  by_cases hCount :
      arguments.length = method.binders.length
  · have hCall :
        method.call arguments =
          Edit.bind method.declared fun _ =>
            method.contributions arguments :=
      if_pos hCount
    have hCheck : method.checkCount arguments = .ok () :=
      if_pos hCount
    rw [hCall, hCheck]
    exact Edit.leaves_bind
      (Edit.leaves_single .metadata method.declared)
      (Edit.leaves_all .contribution _)
  · have hCall :
        method.call arguments =
          Edit.fail (method.wrongCount arguments.length) :=
      if_neg hCount
    have hCheck :
        method.checkCount arguments =
          .error (method.wrongCount arguments.length) :=
      if_neg hCount
    rw [hCall, hCheck]
    exact fun _ => rfl

theorem Proxy.edits_leaves
    (proxy : Proxy)
    (method : ServiceMethod)
    (arguments : List Argument) :
    (proxy.edits method arguments).apply .empty =
      Except.mapError Failure.error (do
        Stage.argumentCount.run
          (method.checkCount arguments)
        proxy.drafted method arguments) := by
  have hDefaults := Edit.leaves_single .defaultHeaders
    (Proxy.addDefaults proxy.defaultHeaders)
  have hProcessors := Edit.leaves_all .processor
    (proxy.processors.map fun process =>
      process method.name)
  have hEdits := Edit.leaves_bind
    (method.call_leaves arguments)
    (Edit.leaves_bind hDefaults hProcessors) .empty
  simp only [Proxy.drafted]
  simp only [bind_assoc] at hEdits
  exact hEdits

------------------------------------------------------------
-- Finished Requests
------------------------------------------------------------

theorem Run.Yields.edit
    {step : Edit Unit}
    {draft : RequestDraft}
    {result : Except Failure RequestDraft}
    (h : step.apply draft =
      result.mapError Failure.error) :
    (Run.edit step draft).Yields result := by
  intro network
  refine ⟨?_, h⟩
  simp only [Outcome.executions, Run.edit,
    List.filterMap_map]
  exact List.filterMap_eq_nil_iff.2 fun _ _ => rfl

theorem Proxy.prepare_yields
    (proxy : Proxy)
    (method : ServiceMethod)
    (arguments : List Argument) :
    (proxy.prepare method arguments).Yields (do
      Stage.argumentCount.run (method.checkCount arguments)
      let draft ← proxy.drafted method arguments
      Stage.build.run draft.build) := by
  have hPrepare :=
    Run.Yields.bind
      (Run.Yields.edit (proxy.edits_leaves method arguments))
      fun draft => Run.Yields.lift .build draft.build
  simp only [bind_assoc] at hPrepare
  exact hPrepare

theorem Proxy.start_yields
    (proxy : Proxy)
    (method : ServiceMethod)
    (arguments : List Argument) :
    (proxy.start method arguments).Yields (do
      Stage.argumentCount.run (method.checkCount arguments)
      let draft ← proxy.drafted method arguments
      Stage.build.run draft.build) := by
  have hWrite (values : RequestValues) :
      (do Run.write
            (proxy.invokingRecord method.name values)
          return values : Run RequestValues).Yields
        (pure values) :=
    Run.Yields.bind (Run.Yields.write _)
      fun _ => Run.Yields.pure values
  have hStart := Run.Yields.bind
    (proxy.prepare_yields method arguments) hWrite
  simp only [bind_pure] at hStart
  exact hStart

namespace Client

section

variable [DomainNames]

/- The target of a request, with its headers and cookies. -/
def headed
    (client : Client)
    (values : RequestValues) :
    Except Failure (Url × Headers) := do
  let url ← Stage.target.run (client.resolveTarget values)
  let headers ← Stage.cookies.run
    (addCookies
      (mergeCookies client.defaultCookies values.cookies)
      (mergeHeaders client.defaultHeaders values.headers))
  return (url, headers)

theorem headed_yields
    (client : Client)
    (values : RequestValues) :
    (Run.lift (client.assembleHead values)).Yields
      (client.headed values) := by
  refine fun _ => ⟨rfl, ?_⟩
  change client.assembleHead values = _
  unfold assembleHead headed
  cases client.resolveTarget values with
  | error error => rfl
  | ok url =>
      cases addCookies
        (mergeCookies client.defaultCookies values.cookies)
        (mergeHeaders client.defaultHeaders values.headers)
        with
      | error error => rfl
      | ok headers => rfl

theorem encoded_eq
    [KnownMedia]
    (client : Client)
    (values : RequestValues) :
    client.encoded values =
      client.headed values >>= fun parts =>
        Stage.encoding.run
            (assembleBody values.body parts.2) >>=
          fun made =>
            pure ⟨values.method, parts.1, made.1, made.2⟩ := by
  unfold encoded headed
  simp only [bind_assoc, pure_bind]

end

theorem noteAttributes_yields (values : RequestValues) :
    (noteAttributes values).Yields (.ok ()) := by
  unfold noteAttributes
  split
  · exact Run.Yields.pure ()
  · exact Run.Yields.write _

theorem assemble_yields
    [DomainNames]
    [KnownMedia]
    (client : Client)
    (values : RequestValues) :
    (client.assemble values).Yields
      (client.encoded values) := by
  have hTail (parts : Url × Headers) :=
    Run.Yields.bind (noteAttributes_yields values) fun _ =>
      Run.Yields.bind
        (Run.Yields.lift .encoding
          (assembleBody values.body parts.2))
        fun made => Run.Yields.pure
          (⟨values.method, parts.1, made.1, made.2⟩ :
            Request)
  rw [encoded_eq]
  exact Run.Yields.bind (client.headed_yields values) hTail

end Client

------------------------------------------------------------
-- Hooks
------------------------------------------------------------

namespace Interceptor

theorem notify_yields
    (interceptor : Interceptor)
    (index : Nat)
    (context : RequestContext)
    (notice : Notice) :
    (interceptor.notify index context notice).Yields
      (.ok ()) := by
  refine fun _ => ⟨?_, rfl⟩
  simp only [Outcome.executions, notify, Run.emit,
    List.filterMap_cons, Event.execution?,
    List.filterMap_map]
  exact List.filterMap_eq_nil_iff.2 fun _ _ => rfl

theorem prepareAll_yields
    (context : RequestContext)
    (index : Nat)
    (interceptors : List Interceptor)
    (request : Request) :
    (prepareAll context index interceptors request).Yields
      (hooked context interceptors request) := by
  induction interceptors generalizing index request with
  | nil => exact Run.Yields.pure request
  | cons interceptor rest ih =>
      exact Run.Yields.bind
        (interceptor.notify_yields index context
          (.beforeSend request))
        fun _ => Run.Yields.bind
          (Run.Yields.lift .beforeSend
            (interceptor.beforeSend context request))
          fun changed => ih (index + 1) changed

theorem acceptAll_quiet
    (context : RequestContext)
    (response : Response)
    (index : Nat)
    (interceptors : List Interceptor) :
    (acceptAll context response index
      interceptors).Quiet := by
  induction interceptors generalizing index with
  | nil => exact fun _ => rfl
  | cons interceptor rest ih =>
      exact Run.quiet_bind
        (interceptor.notify_yields index context
          (.response response)).quiet
        fun _ => Run.quiet_bind (Run.quiet_lift _)
          fun _ => ih (index + 1)

theorem notifyAll_quiet
    (context : RequestContext)
    (error : ServiceError)
    (index : Nat)
    (interceptors : List Interceptor) :
    (notifyAll context error index
      interceptors).Quiet := by
  induction interceptors generalizing index with
  | nil => exact fun _ => rfl
  | cons interceptor rest ih =>
      exact Run.quiet_bind
        (interceptor.notify_yields index context
          (.error error)).quiet
        fun _ => ih (index + 1)

end Interceptor

------------------------------------------------------------
-- Sending
------------------------------------------------------------

namespace Client

variable [DomainNames]

theorem failWith_quiet
    {α : Type}
    (client : Client)
    (context : RequestContext)
    (error : ServiceError) :
    (client.failWith context error : Run α).Quiet :=
  Run.quiet_bind
    (Interceptor.notifyAll_quiet context error 0
      client.interceptors)
    fun _ _ => rfl

/-
  Between the last hook before and the first hook after it
  there is one execution.
-/
theorem execute_dispatches
    (client : Client)
    (request : Request) :
    (client.execute request).Dispatches client.transport
      (Interceptor.hooked (contextOf request)
        client.interceptors request) := by
  have hSend (prepared : Request) :
      (Run.attempt (Run.send client.transport
        prepared)).Dispatches client.transport
          (.ok prepared) :=
    fun _ => rfl
  rw [← bind_pure (Interceptor.hooked _ _ _)]
  refine Run.Dispatches.after
    (Interceptor.prepareAll_yields (contextOf request) 0
      client.interceptors request) fun prepared => ?_
  refine Run.Dispatches.andThen (hSend prepared)
    fun answer => ?_
  cases answer with
  | error error => exact client.failWith_quiet _ error
  | ok response =>
      refine Run.quiet_bind
        (Interceptor.acceptAll_quiet (contextOf request)
          response 0 client.interceptors) fun _ => ?_
      split
      · exact client.failWith_quiet _ _
      · exact fun _ => rfl

theorem send_dispatches
    [KnownMedia]
    (client : Client)
    (values : RequestValues) :
    (client.send values).Dispatches client.transport
      (client.prepared values) :=
  Run.Dispatches.after (client.assemble_yields values)
    client.execute_dispatches

end Client

------------------------------------------------------------
-- Adapters
------------------------------------------------------------

namespace Adapter

variable [DomainNames] [KnownMedia]
variable (client : Client)
variable (values : RequestValues)

theorem exchange_dispatches :
    ((ofClient client).exchange values).Dispatches
      client.transport (client.prepared values) :=
  (client.send_dispatches values).andThen
    fun _ => Run.quiet_pure ()

theorem headers_dispatches :
    ((ofClient client).headers values).Dispatches
      client.transport (client.prepared values) :=
  (client.send_dispatches values).andThen
    fun response => Run.quiet_pure response.headers

theorem body_dispatches (type : BodyType) :
    ((ofClient client).body type values).Dispatches
      client.transport (client.prepared values) :=
  (client.send_dispatches values).andThen
    fun response => Run.quiet_lift (decode type response)

theorem entity_dispatches (type : BodyType) :
    ((ofClient client).entity type values).Dispatches
      client.transport (client.prepared values) :=
  (client.send_dispatches values).andThen
    fun response => Run.quiet_bind
      (Run.quiet_lift (decode type response))
      fun _ => Run.quiet_pure _

theorem bodilessEntity_dispatches :
    ((ofClient client).bodilessEntity values).Dispatches
      client.transport (client.prepared values) :=
  (client.send_dispatches values).andThen
    fun _ => Run.quiet_pure _

end Adapter

------------------------------------------------------------
-- Calls
------------------------------------------------------------

/- From the edits of a call to its execution. -/
theorem Proxy.start_dispatches
    [DomainNames]
    [KnownMedia]
    {α : Type}
    (client : Client)
    (proxy : Proxy)
    (method : ServiceMethod)
    (arguments : List Argument)
    (perform : RequestValues → Run α)
    (hPerform : ∀ values,
      (perform values).Dispatches client.transport
        (client.prepared values)) :
    (proxy.start method arguments >>=
        perform).Dispatches client.transport (do
      Stage.argumentCount.run (method.checkCount arguments)
      let draft ← proxy.drafted method arguments
      let values ← Stage.build.run draft.build
      client.prepared values) := by
  have hStart := Run.Dispatches.after
    (proxy.start_yields method arguments) hPerform
  simp only [bind_assoc] at hStart
  exact hStart

namespace ProxyFunction

/- A function that accepts the declared shape goes on. -/
theorem accepted_dispatches
    [DomainNames]
    [KnownMedia]
    {α : Type}
    {function : ProxyFunction}
    {client : Client}
    {proxy : Proxy}
    {name : String}
    {method : ServiceMethod}
    {arguments : List Argument}
    {perform : RequestValues → Run α}
    (hAccepts : function.accepts method.returns = true)
    (hPerform : ∀ values,
      (perform values).Dispatches client.transport
        (client.prepared values)) :
    (proxy.start method arguments >>=
        perform).Dispatches client.transport (do
      Stage.returnShape.run
        (function.checkReturns proxy name method)
      Stage.argumentCount.run (method.checkCount arguments)
      let draft ← proxy.drafted method arguments
      let values ← Stage.build.run draft.build
      client.prepared values) := by
  have hCheck :
      function.checkReturns proxy name method = .ok () :=
    if_pos hAccepts
  rw [hCheck]
  exact proxy.start_dispatches client method arguments
    perform hPerform

/- A function that does not accept it fails for that. -/
theorem refused_dispatches
    {α : Type}
    (function : ProxyFunction)
    {proxy : Proxy}
    {name : String}
    {method : ServiceMethod}
    {transport : Transport}
    {result : Except Failure Request}
    (hAccepts : function.accepts method.returns = false) :
    (Run.fail (proxy.notReturned name function.expected) :
        Run α).Dispatches transport (do
      Stage.returnShape.run
        (function.checkReturns proxy name method)
      result) := by
  have hCheck :
      function.checkReturns proxy name method =
        .error (proxy.notReturned name function.expected) :=
    if_neg (by rw [hAccepts]; exact Bool.false_ne_true)
  rw [hCheck]
  exact Run.Dispatches.of_yields
    (Run.Yields.fail .returnShape _)

/-
  Every function sends the request of the call, or fails
  with the failure of the call and sends none.  The cases
  are those of the functions and the declared shapes.
-/
theorem run_dispatches
    [DomainNames]
    [KnownMedia]
    (client : Client)
    (proxy : Proxy)
    (hAdapter : proxy.adapter = .ofClient client)
    (function : ProxyFunction)
    (name : String)
    (arguments : List Argument) :
    (function.run proxy name arguments).Dispatches
      client.transport
      (function.request client proxy name arguments) := by
  have hLookup :=
    Run.Yields.lift .lookup (proxy.method name)
  cases function with
  | invoke =>
      refine Run.Dispatches.after hLookup fun method => ?_
      refine accepted_dispatches (by rfl) fun values => ?_
      rw [hAdapter]
      cases method.returns with
      | nothing =>
          exact (Adapter.exchange_dispatches client
            values).andThen fun _ => Run.quiet_pure _
      | headers =>
          exact (Adapter.headers_dispatches client
            values).andThen fun _ => Run.quiet_pure _
      | body type =>
          exact (Adapter.body_dispatches client values
            type).andThen fun _ => Run.quiet_pure _
      | entity type =>
          exact (Adapter.entity_dispatches client values
            type).andThen fun _ => Run.quiet_pure _
      | bodilessEntity =>
          exact (Adapter.bodilessEntity_dispatches client
            values).andThen fun _ => Run.quiet_pure _
  | exchange =>
      refine Run.Dispatches.after hLookup fun method => ?_
      cases hReturns : method.returns with
      | nothing =>
          refine accepted_dispatches
            (by rw [hReturns]; rfl) fun values => ?_
          rw [hAdapter]
          exact Adapter.exchange_dispatches client values
      | _ =>
          exact refused_dispatches .exchange
            (by rw [hReturns]; rfl)
  | headers =>
      refine Run.Dispatches.after hLookup fun method => ?_
      cases hReturns : method.returns with
      | headers =>
          refine accepted_dispatches
            (by rw [hReturns]; rfl) fun values => ?_
          rw [hAdapter]
          exact Adapter.headers_dispatches client values
      | _ =>
          exact refused_dispatches .headers
            (by rw [hReturns]; rfl)
  | body schema =>
      refine Run.Dispatches.after hLookup fun method => ?_
      cases hReturns : method.returns with
      | body type =>
          refine accepted_dispatches
            (by rw [hReturns]; rfl) fun values => ?_
          rw [hAdapter]
          refine (Adapter.body_dispatches client values
            type).andThen fun body? => ?_
          cases body? with
          | none => exact Run.quiet_pure none
          | some body =>
              exact Run.quiet_bind
                (Run.quiet_lift (body.conform schema))
                fun _ => Run.quiet_pure _
      | _ =>
          exact refused_dispatches (.body schema)
            (by rw [hReturns]; rfl)
  | entity schema =>
      refine Run.Dispatches.after hLookup fun method => ?_
      cases hReturns : method.returns with
      | entity type =>
          refine accepted_dispatches
            (by rw [hReturns]; rfl) fun values => ?_
          rw [hAdapter]
          exact (Adapter.entity_dispatches client values
            type).andThen fun _ => Run.quiet_lift _
      | _ =>
          exact refused_dispatches (.entity schema)
            (by rw [hReturns]; rfl)
  | bodilessEntity =>
      refine Run.Dispatches.after hLookup fun method => ?_
      cases hReturns : method.returns with
      | bodilessEntity =>
          refine accepted_dispatches
            (by rw [hReturns]; rfl) fun values => ?_
          rw [hAdapter]
          exact Adapter.bodilessEntity_dispatches client
            values
      | _ =>
          exact refused_dispatches .bodilessEntity
            (by rw [hReturns]; rfl)

/-
  One call makes at most one execution.  It makes none and
  gives the failure of the first stage that fails, or it
  makes one, with the request that the last hook leaves,
  whatever comes of the answer.
-/
theorem executions_of_call
    [DomainNames]
    [KnownMedia]
    (client : Client)
    (proxy : Proxy)
    (hAdapter : proxy.adapter = .ofClient client)
    (function : ProxyFunction)
    (name : String)
    (arguments : List Argument)
    (network : Network) :
    (function.run proxy name arguments
        network).executions.length ≤ 1 ∧
      (∀ failure,
        function.request client proxy name arguments =
          .error failure →
        (function.run proxy name arguments
            network).executions = [] ∧
          (function.run proxy name arguments
            network).result = .error failure.error) ∧
      (∀ request,
        function.request client proxy name arguments =
          .ok request →
        (function.run proxy name arguments
            network).executions =
          [(client.transport, request)]) := by
  have hSent := run_dispatches client proxy hAdapter
    function name arguments network
  cases hRequest :
      function.request client proxy name arguments with
  | error failure =>
      rw [hRequest] at hSent
      refine ⟨?_, ?_, ?_⟩
      · rw [hSent.1]
        exact Nat.zero_le 1
      · intro other hOther
        cases hOther
        exact hSent
      · intro request hOther
        cases hOther
  | ok request =>
      rw [hRequest] at hSent
      have hOne :
          (function.run proxy name arguments
              network).executions =
            [(client.transport, request)] :=
        hSent
      refine ⟨?_, ?_, ?_⟩
      · rw [hOne]
        exact Nat.le_refl 1
      · intro failure hOther
        cases hOther
      · intro other hOther
        cases hOther
        exact hOne

/- A target that needs no base. -/
def remoteTarget : Url where
  scheme := "http"
  authority := some ⟨"", none, .name "host", none⟩
  path := .segments ["items"]
  query := none
  fragment := none

open PlainNames CommonMedia

/- A client whose second hook overrides the first. -/
def redirectingClient : Client where
  base? := none
  defaultHeaders := .empty
  defaultCookies := []
  interceptors :=
    [{ Interceptor.idle with
        beforeSend := fun _ request =>
          .ok { request with method := .put } },
      { Interceptor.idle with
        beforeSend := fun _ request =>
          .ok { request with method := .post } }]
  transport := .given

/- A service with a method that takes its target. -/
def remoteProxy : Proxy where
  service := "Items"
  methods :=
    [{ service := "Items"
       name := "list"
       method := some .get
       url := ""
       contentType := none
       accept := []
       binders := [Resolver.contributeUri]
       returns := .headers }]
  adapter := .ofClient redirectingClient
  processors := []
  defaultHeaders := .empty

/- A rejected answer does not lead to another attempt. -/
theorem executions_of_rejected :
    (ProxyFunction.headers.run remoteProxy "list"
        [.uri remoteTarget]
        (fun _ _ => .ok ⟨404, .empty, []⟩)).executions =
      [(.given, ⟨.post, remoteTarget, .empty, none⟩)] :=
  (executions_of_call redirectingClient remoteProxy rfl
    .headers "list" [.uri remoteTarget]
    (fun _ _ => .ok ⟨404, .empty, []⟩)).2.2
    ⟨.post, remoteTarget, .empty, none⟩ rfl

end ProxyFunction

end ServiceCalls
