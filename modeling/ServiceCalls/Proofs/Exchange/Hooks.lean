import ServiceCalls.Proofs.Calls.Dispatch
import ServiceCalls.Proofs.Fallible

/-
  The order of hooks and of the execution.

  A request goes through the hooks before it is sent, to the
  transport, and its answer goes through the hooks after it.
  Each of them may be the last, and what happens then is
  told by the place where the way ends.

  Key definitions include:
    * `Interceptor.told` and `Interceptor.toldEach`
    * `Interceptor.Edits`
    * `Client.Delivers`
    * `Client.Exchanged`

  Main declarations:
    * `Interceptor.prepareAll_of_edits`
    * `Interceptor.acceptAll_of_accepted`
    * `Client.execute_of_exchanged`
    * `Client.exists_exchanged`
    * `Client.exchanged_iff`
-/

namespace ServiceCalls

namespace Interceptor

------------------------------------------------------------
-- What Interceptors Are Told
------------------------------------------------------------

/- What happens when an interceptor is told of something. -/
def told
    (interceptor : Interceptor)
    (index : Nat)
    (context : RequestContext)
    (notice : Notice) :
    List Event :=
  .notified index context notice ::
    (interceptor.records context notice).map .wrote

/-
  What happens when interceptors are told in order, each of
  what concerns it.
-/
def toldEach
    (context : RequestContext)
    (index : Nat)
    (calls : List (Interceptor × Notice)) :
    List Event :=
  (calls.zipIdx index).flatMap fun (call, position) =>
    call.1.told position context call.2

theorem toldEach_append
    (context : RequestContext)
    (index : Nat)
    (before after : List (Interceptor × Notice)) :
    toldEach context index (before ++ after) =
      toldEach context index before ++
        toldEach context (index + before.length) after := by
  unfold toldEach
  rw [List.zipIdx_append, List.flatMap_append]

/- All interceptors are told of the same. -/
def toldAll
    (context : RequestContext)
    (notice : Notice)
    (interceptors : List Interceptor) :
    List Event :=
  toldEach context 0
    (interceptors.map fun interceptor =>
      (interceptor, notice))

/- Interceptors are told of the requests they are given. -/
def toldBefore
    (context : RequestContext)
    (calls : List (Interceptor × Request)) :
    List Event :=
  toldEach context 0
    (calls.map fun call => (call.1, .beforeSend call.2))

------------------------------------------------------------
-- Before the Execution
------------------------------------------------------------

/-
  Hooks that succeed one after the other, each with the
  request that the one before it made.
-/
inductive Edits (context : RequestContext) :
    List (Interceptor × Request) →
      Request → Request → Prop where
| nil
    (request : Request) :
    Edits context [] request request
| cons
    {interceptor : Interceptor}
    {request changed edited : Request}
    {calls : List (Interceptor × Request)}
    (edit :
      interceptor.beforeSend context request = .ok changed)
    (rest : Edits context calls changed edited) :
    Edits context ((interceptor, request) :: calls)
      request edited

/- After hooks that succeed, the others go on. -/
theorem prepareAll_of_edits
    {context : RequestContext}
    {calls : List (Interceptor × Request)}
    {request edited : Request}
    (h : Edits context calls request edited)
    (index : Nat)
    (later : List Interceptor)
    (network : Network) :
    prepareAll context index (calls.map Prod.fst ++ later)
        request network =
      let rest := prepareAll context
        (index + calls.length) later edited network
      ⟨toldEach context index (calls.map fun call =>
          (call.1, .beforeSend call.2)) ++ rest.events,
        rest.result⟩ := by
  induction h generalizing index with
  | nil request => rfl
  | @cons interceptor request changed edited calls edit rest
      ih =>
      have hNotify :
          (interceptor.notify index context
            (.beforeSend request) network).result = .ok () :=
        rfl
      have hLift :
          (Run.lift (interceptor.beforeSend context request)
            network).result = .ok changed :=
        edit
      have hLength :
          index + 1 + calls.length =
            index + ((interceptor, request) ::
              calls).length := by
        rw [List.length_cons]
        omega
      rw [List.map_cons, List.cons_append, prepareAll,
        Run.bind_of_ok hNotify, Run.bind_of_ok hLift,
        ih, hLength]
      simp only [List.map_cons, toldEach, List.zipIdx_cons,
        List.flatMap_cons, List.append_assoc]
      rfl

/- Either all hooks succeed, or there is a first that fails. -/
theorem exists_edits_or_refusal
    (context : RequestContext)
    (interceptors : List Interceptor)
    (request : Request) :
    (∃ calls edited,
      interceptors = calls.map Prod.fst ∧
        Edits context calls request edited) ∨
      ∃ calls edited interceptor later error,
        interceptors =
          calls.map Prod.fst ++ interceptor :: later ∧
        Edits context calls request edited ∧
        interceptor.beforeSend context edited =
          .error error := by
  induction interceptors generalizing request with
  | nil => exact .inl ⟨[], request, rfl, .nil request⟩
  | cons interceptor rest ih =>
      cases hEdit : interceptor.beforeSend context request with
      | error error =>
          exact .inr ⟨[], request, interceptor, rest, error,
            rfl, .nil request, hEdit⟩
      | ok changed =>
          rcases ih changed with
            ⟨calls, edited, hOrder, hEdits⟩ |
            ⟨calls, edited, last, later, error, hOrder,
              hEdits, hRefusal⟩
          · refine .inl ⟨(interceptor, request) :: calls,
              edited, ?_, .cons hEdit hEdits⟩
            rw [hOrder]
            rfl
          · refine .inr ⟨(interceptor, request) :: calls,
              edited, last, later, error, ?_,
              .cons hEdit hEdits, hRefusal⟩
            rw [hOrder]
            rfl

------------------------------------------------------------
-- After the Execution
------------------------------------------------------------

/- After hooks that accept, the others go on. -/
theorem acceptAll_of_accepted
    {context : RequestContext}
    {response : Response}
    {accepting : List Interceptor}
    (h : ∀ interceptor ∈ accepting,
      interceptor.onResponse context response = .ok ())
    (index : Nat)
    (later : List Interceptor)
    (network : Network) :
    acceptAll context response index (accepting ++ later)
        network =
      let rest := acceptAll context response
        (index + accepting.length) later network
      ⟨toldEach context index
          (accepting.map fun interceptor =>
            (interceptor, .response response)) ++
          rest.events,
        rest.result⟩ := by
  induction accepting generalizing index with
  | nil => rfl
  | cons interceptor others ih =>
      rw [List.forall_mem_cons] at h
      have hNotify :
          (interceptor.notify index context
            (.response response) network).result = .ok () :=
        rfl
      have hLift :
          (Run.lift (interceptor.onResponse context response)
            network).result = .ok () :=
        h.1
      have hLength :
          index + 1 + others.length =
            index + (interceptor :: others).length := by
        rw [List.length_cons]
        omega
      rw [List.cons_append, acceptAll,
        Run.bind_of_ok hNotify, Run.bind_of_ok hLift,
        ih h.2, hLength]
      simp only [List.map_cons, toldEach, List.zipIdx_cons,
        List.flatMap_cons, List.append_assoc]
      rfl

/- Either all hooks accept, or there is a first that fails. -/
theorem accepted_or_exists_rejection
    (context : RequestContext)
    (response : Response)
    (interceptors : List Interceptor) :
    (∀ interceptor ∈ interceptors,
      interceptor.onResponse context response = .ok ()) ∨
      ∃ accepting interceptor later error,
        interceptors = accepting ++ interceptor :: later ∧
        (∀ earlier ∈ accepting,
          earlier.onResponse context response = .ok ()) ∧
        interceptor.onResponse context response =
          .error error := by
  induction interceptors with
  | nil => exact .inl nofun
  | cons interceptor rest ih =>
      cases hHead :
          interceptor.onResponse context response with
      | error error =>
          exact .inr ⟨[], interceptor, rest, error, rfl,
            nofun, hHead⟩
      | ok _ =>
          rcases ih with hAll |
            ⟨accepting, last, later, error, hOrder, hEarlier,
              hLast⟩
          · exact .inl (List.forall_mem_cons.mpr
              ⟨hHead, hAll⟩)
          · refine .inr ⟨interceptor :: accepting, last,
              later, error, ?_,
              List.forall_mem_cons.mpr ⟨hHead, hEarlier⟩,
              hLast⟩
            rw [hOrder]
            rfl

theorem notifyAll_eq
    (context : RequestContext)
    (error : ServiceError)
    (index : Nat)
    (interceptors : List Interceptor)
    (network : Network) :
    notifyAll context error index interceptors network =
      ⟨toldEach context index
          (interceptors.map fun interceptor =>
            (interceptor, .error error)),
        .ok ()⟩ := by
  induction interceptors generalizing index with
  | nil => rfl
  | cons interceptor rest ih =>
      have hNotify :
          (interceptor.notify index context (.error error)
            network).result = .ok () :=
        rfl
      rw [notifyAll, Run.bind_of_ok hNotify, ih]
      rfl

end Interceptor

namespace Client

open Interceptor

------------------------------------------------------------
-- The Ways Out
------------------------------------------------------------

/-
  All hooks succeed, and the transport answers the request
  that they make.
-/
structure Delivers
    [DomainNames]
    (client : Client)
    (context : RequestContext)
    (network : Network)
    (request : Request)
    (calls : List (Interceptor × Request))
    (edited : Request)
    (answer : Except ServiceError Response) :
    Prop where
  order : client.interceptors = calls.map Prod.fst
  edits : Edits context calls request edited
  answered :
    (Run.send client.transport edited network).result =
      answer

/-
  What a request may come to, with everything that happens
  until then: a hook refuses it, the transport fails, a hook
  rejects the response, its status tells of a failure, or
  there is a response.
-/
inductive Exchanged
    [DomainNames]
    (client : Client)
    (context : RequestContext)
    (network : Network)
    (request : Request) :
    Outcome Response → Prop where
| refused
    {calls : List (Interceptor × Request)}
    {interceptor : Interceptor}
    {later : List Interceptor}
    {edited : Request}
    {error : ServiceError}
    (order : client.interceptors =
      calls.map Prod.fst ++ interceptor :: later)
    (edits : Edits context calls request edited)
    (refusal :
      interceptor.beforeSend context edited =
        .error error) :
    Exchanged client context network request
      ⟨toldBefore context (calls ++ [(interceptor, edited)]),
        .error error⟩
| undelivered
    {calls : List (Interceptor × Request)}
    {edited : Request}
    {error : ServiceError}
    (delivery : client.Delivers context network request
      calls edited (.error error)) :
    Exchanged client context network request
      ⟨toldBefore context calls ++
          .sent client.transport edited ::
          toldAll context (.error error)
            client.interceptors,
        .error error⟩
| rejected
    {calls : List (Interceptor × Request)}
    {edited : Request}
    {response : Response}
    {accepting : List Interceptor}
    {interceptor : Interceptor}
    {later : List Interceptor}
    {error : ServiceError}
    (delivery : client.Delivers context network request
      calls edited (.ok response))
    (order : client.interceptors =
      accepting ++ interceptor :: later)
    (accepted : ∀ earlier ∈ accepting,
      earlier.onResponse context response = .ok ())
    (rejection :
      interceptor.onResponse context response =
        .error error) :
    Exchanged client context network request
      ⟨toldBefore context calls ++
          .sent client.transport edited ::
          toldAll context (.response response)
            (accepting ++ [interceptor]),
        .error error⟩
| failed
    {calls : List (Interceptor × Request)}
    {edited : Request}
    {response : Response}
    {error : ServiceError}
    (delivery : client.Delivers context network request
      calls edited (.ok response))
    (accepted : ∀ interceptor ∈ client.interceptors,
      interceptor.onResponse context response = .ok ())
    (status :
      response.status / 100 = 4 ∨ response.status / 100 = 5)
    (failure : error =
      .api response.status
        (Text.decodeLenient response.body)) :
    Exchanged client context network request
      ⟨toldBefore context calls ++
          .sent client.transport edited ::
          (toldAll context (.response response)
              client.interceptors ++
            toldAll context (.error error)
              client.interceptors),
        .error error⟩
| answered
    {calls : List (Interceptor × Request)}
    {edited : Request}
    {response : Response}
    (delivery : client.Delivers context network request
      calls edited (.ok response))
    (accepted : ∀ interceptor ∈ client.interceptors,
      interceptor.onResponse context response = .ok ())
    (status :
      ¬(response.status / 100 = 4 ∨
        response.status / 100 = 5)) :
    Exchanged client context network request
      ⟨toldBefore context calls ++
          .sent client.transport edited ::
          toldAll context (.response response)
            client.interceptors,
        .ok response⟩

theorem isFailure_iff (response : Response) :
    response.isFailure = true ↔
      response.status / 100 = 4 ∨
        response.status / 100 = 5 := by
  unfold Response.isFailure
  rw [Bool.and_eq_true, decide_eq_true_eq,
    decide_eq_true_eq]
  omega

------------------------------------------------------------
-- Executions
------------------------------------------------------------

section

variable [DomainNames]

theorem failWith_eq
    {α : Type}
    (client : Client)
    (context : RequestContext)
    (error : ServiceError)
    (network : Network) :
    (client.failWith context error : Run α) network =
      ⟨toldAll context (.error error) client.interceptors,
        .error error⟩ := by
  have hTold := notifyAll_eq context error 0
    client.interceptors network
  have hResult :
      (notifyAll context error 0 client.interceptors
        network).result = .ok () := by
    rw [hTold]
  unfold failWith
  rw [Run.bind_of_ok hResult, hTold]
  change Outcome.mk (_ ++ []) _ = _
  rw [List.append_nil]
  rfl

/- What becomes of the answer to a request. -/
def finish
    (client : Client)
    (context : RequestContext) :
    Except ServiceError Response → Run Response
  | .error error => client.failWith context error
  | .ok response => do
      acceptAll context response 0 client.interceptors
      if response.isFailure then
        client.failWith context response.failure
      else Run.pure response

theorem finish_error
    (client : Client)
    (context : RequestContext)
    (error : ServiceError) :
    client.finish context (.error error) =
      client.failWith context error :=
  rfl

theorem finish_ok
    (client : Client)
    (context : RequestContext)
    (response : Response) :
    client.finish context (.ok response) =
      acceptAll context response 0 client.interceptors >>=
        fun _ =>
          if response.isFailure then
            client.failWith context response.failure
          else Run.pure response :=
  rfl

theorem execute_eq
    (client : Client)
    (request : Request) :
    client.execute request =
      prepareAll (contextOf request) 0 client.interceptors
          request >>=
        fun prepared =>
          Run.attempt (Run.send client.transport prepared) >>=
            client.finish (contextOf request) :=
  rfl

/- After the hooks, the transport answers, and that is it. -/
theorem execute_of_delivers
    {client : Client}
    {network : Network}
    {request edited : Request}
    {calls : List (Interceptor × Request)}
    {answer : Except ServiceError Response}
    (h : client.Delivers (contextOf request) network request
      calls edited answer) :
    client.execute request network =
      let rest :=
        client.finish (contextOf request) answer network
      ⟨toldBefore (contextOf request) calls ++
          .sent client.transport edited :: rest.events,
        rest.result⟩ := by
  have hPrepared :=
    prepareAll_of_edits h.edits 0 [] network
  rw [List.append_nil, ← h.order] at hPrepared
  have hResult :
      (prepareAll (contextOf request) 0 client.interceptors
        request network).result = .ok edited := by
    rw [hPrepared]
    rfl
  have hAnswer :
      (Run.attempt (Run.send client.transport edited)
        network).result = .ok answer :=
    congrArg Except.ok h.answered
  rw [execute_eq, Run.bind_of_ok hResult,
    Run.bind_of_ok hAnswer, hPrepared]
  change Outcome.mk ((_ ++ []) ++ ([_] ++ _)) _ = _
  rw [List.append_nil]
  rfl

/- A response that a hook rejects is not looked at. -/
theorem finish_of_rejected
    {client : Client}
    {context : RequestContext}
    {response : Response}
    {accepting later : List Interceptor}
    {interceptor : Interceptor}
    {error : ServiceError}
    (order : client.interceptors =
      accepting ++ interceptor :: later)
    (accepted : ∀ earlier ∈ accepting,
      earlier.onResponse context response = .ok ())
    (rejection :
      interceptor.onResponse context response =
        .error error)
    (network : Network) :
    client.finish context (.ok response) network =
      ⟨toldAll context (.response response)
          (accepting ++ [interceptor]),
        .error error⟩ := by
  have hAccepted := acceptAll_of_accepted accepted 0
    (interceptor :: later) network
  have hNotify :
      (interceptor.notify (0 + accepting.length) context
        (.response response) network).result = .ok () :=
    rfl
  have hLift :
      (Run.lift (interceptor.onResponse context response)
        network).result = .error error :=
    rejection
  rw [← order, acceptAll, Run.bind_of_ok hNotify,
    Run.bind_of_error hLift] at hAccepted
  have hResult :
      (acceptAll context response 0 client.interceptors
        network).result = .error error := by
    rw [hAccepted]
  rw [finish_ok, Run.bind_of_error hResult, hAccepted]
  unfold toldAll
  rw [List.map_append, toldEach_append, List.length_map]
  rfl

/- A response that all hooks accept is judged by its status. -/
theorem finish_of_accepted
    {client : Client}
    {context : RequestContext}
    {response : Response}
    (accepted : ∀ interceptor ∈ client.interceptors,
      interceptor.onResponse context response = .ok ())
    (network : Network) :
    client.finish context (.ok response) network =
      if response.isFailure then
        ⟨toldAll context (.response response)
              client.interceptors ++
            toldAll context (.error response.failure)
              client.interceptors,
          .error response.failure⟩
      else
        ⟨toldAll context (.response response)
            client.interceptors,
          .ok response⟩ := by
  have hAccepted :=
    acceptAll_of_accepted accepted 0 [] network
  rw [List.append_nil] at hAccepted
  have hResult :
      (acceptAll context response 0 client.interceptors
        network).result = .ok () := by
    rw [hAccepted]
    rfl
  rw [finish_ok, Run.bind_of_ok hResult, hAccepted]
  split
  · rw [failWith_eq]
    change Outcome.mk ((_ ++ []) ++ _) _ = _
    rw [List.append_nil]
    rfl
  · change Outcome.mk ((_ ++ []) ++ []) _ = _
    rw [List.append_nil, List.append_nil]
    rfl

/- Every way out is taken by the execution. -/
theorem execute_of_exchanged
    {client : Client}
    {network : Network}
    {request : Request}
    {outcome : Outcome Response}
    (h : client.Exchanged (contextOf request) network request
      outcome) :
    client.execute request network = outcome := by
  cases h with
  | @refused calls interceptor later edited error order edits
      refusal =>
      have hPrepared := prepareAll_of_edits edits 0
        (interceptor :: later) network
      have hNotify :
          (interceptor.notify (0 + calls.length)
            (contextOf request) (.beforeSend edited)
            network).result = .ok () :=
        rfl
      have hLift :
          (Run.lift (interceptor.beforeSend
            (contextOf request) edited) network).result =
            .error error :=
        refusal
      rw [← order, prepareAll, Run.bind_of_ok hNotify,
        Run.bind_of_error hLift] at hPrepared
      have hResult :
          (prepareAll (contextOf request) 0
            client.interceptors request network).result =
            .error error := by
        rw [hPrepared]
      rw [execute_eq, Run.bind_of_error hResult, hPrepared]
      unfold toldBefore
      rw [List.map_append, toldEach_append, List.length_map]
      rfl
  | undelivered delivery =>
      rw [execute_of_delivers delivery, finish_error,
        failWith_eq]
  | rejected delivery order accepted rejection =>
      rw [execute_of_delivers delivery,
        finish_of_rejected order accepted rejection]
  | @failed _ _ response _ delivery accepted status
      failure =>
      rw [execute_of_delivers delivery,
        finish_of_accepted accepted,
        if_pos ((isFailure_iff response).mpr status),
        failure]
      rfl
  | @answered _ _ response delivery accepted status =>
      rw [execute_of_delivers delivery,
        finish_of_accepted accepted, if_neg]
      exact fun hFailure =>
        status ((isFailure_iff response).mp hFailure)

/- One of the ways out is always open. -/
theorem exists_exchanged
    (client : Client)
    (context : RequestContext)
    (network : Network)
    (request : Request) :
    ∃ outcome,
      client.Exchanged context network request outcome := by
  rcases exists_edits_or_refusal context client.interceptors
      request with
    ⟨calls, edited, order, edits⟩ |
    ⟨calls, edited, interceptor, later, error, order, edits,
      refusal⟩
  · cases answered :
        (Run.send client.transport edited network).result with
    | error error =>
        exact ⟨_, .undelivered ⟨order, edits, answered⟩⟩
    | ok response =>
        have delivery : client.Delivers context network
            request calls edited (.ok response) :=
          ⟨order, edits, answered⟩
        rcases accepted_or_exists_rejection context response
            client.interceptors with
          accepted |
          ⟨accepting, interceptor, later, error, order,
            accepted, rejection⟩
        · by_cases status :
              response.status / 100 = 4 ∨
                response.status / 100 = 5
          · exact ⟨_, .failed delivery accepted status rfl⟩
          · exact ⟨_, .answered delivery accepted status⟩
        · exact ⟨_, .rejected delivery order accepted
            rejection⟩
  · exact ⟨_, .refused order edits refusal⟩

/- Hooks are in the order in which they were registered. -/
theorem interceptors_of_build
    {config : ClientConfig}
    {client : Client}
    (h : config.build = .ok client) :
    client.interceptors = config.interceptors ++
      if config.logging then [.logging] else [] := by
  unfold ClientConfig.build at h
  rcases Fallible.bind_eq_ok h with ⟨base?, _, hRest⟩
  rcases Fallible.bind_eq_ok hRest with ⟨headers, _, hLast⟩
  rcases Fallible.bind_eq_ok hLast with
    ⟨transport, _, hClient⟩
  rw [← Except.ok.inj hClient]
  rfl

/-
  A client sends a request exactly as the ways out tell,
  with the method and the URL from before the first hook for
  all hooks.  Hooks are in the order in which they were
  registered, and logging is behind them.
-/
theorem exchanged_iff
    (client : Client)
    (request : Request)
    (network : Network) :
    (∀ outcome,
      client.Exchanged
          ⟨request.method, request.url.render⟩ network
          request outcome ↔
        client.execute request network = outcome) ∧
      ∀ config : ClientConfig,
        config.build = .ok client →
        client.interceptors = config.interceptors ++
          if config.logging then [.logging] else [] := by
  refine ⟨fun outcome => ?_,
    fun _ hBuild => interceptors_of_build hBuild⟩
  constructor
  · exact execute_of_exchanged
  · intro hOutcome
    rcases client.exists_exchanged
        ⟨request.method, request.url.render⟩ network request
      with ⟨taken, hTaken⟩
    have hSame := execute_of_exchanged hTaken
    rw [← hOutcome, hSame]
    exact hTaken

end

/- A hook that makes every request a post. -/
def posting : Interceptor :=
  { Interceptor.idle with
    beforeSend := fun _ request =>
      .ok { request with method := .post } }

/- A configuration with one hook and with logging. -/
def postingConfig : ClientConfig :=
  { ClientConfig.ofSettings ⟨none, none, none, none⟩ with
    interceptors := [posting]
    logging := true
    transport := some .given }

open PlainNames

/- The client of the configuration. -/
def postingClient : Client where
  base? := none
  defaultHeaders := .empty
  defaultCookies := []
  interceptors := [posting, .logging]
  transport := .given

/- A request as a caller makes it. -/
def getting : Request :=
  ⟨.get, ProxyFunction.remoteTarget, .empty, none⟩

/- A response that tells of a failure in no valid text. -/
def missing : Response :=
  ⟨404, .empty, [0xFF]⟩

/-
  All hooks are told of the request as it was, though a post
  is sent, and of the response before they are told of the
  failure.
-/
theorem exchanged_missing :
    postingClient.interceptors = [posting, .logging] ∧
      missing.failure = .api 404 "\uFFFD" ∧
      postingClient.Exchanged (contextOf getting)
        (fun _ _ => .ok missing) getting
        (let context := contextOf getting
          let posted := { getting with method := .post }
          let failure := missing.failure
          let logged (notice : Notice) :=
            Event.wrote (loggingRecord context notice)
          ⟨[.notified 0 context (.beforeSend getting),
              .notified 1 context (.beforeSend posted),
              logged (.beforeSend posted),
              .sent .given posted,
              .notified 0 context (.response missing),
              .notified 1 context (.response missing),
              logged (.response missing),
              .notified 0 context (.error failure),
              .notified 1 context (.error failure),
              logged (.error failure)],
            .error failure⟩) := by
  have hAll := exchanged_iff postingClient getting
    fun _ _ => .ok missing
  exact ⟨hAll.2 postingConfig rfl, by cbv,
    (hAll.1 _).mpr rfl⟩

end Client

end ServiceCalls
