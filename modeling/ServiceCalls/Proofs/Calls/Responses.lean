import ServiceCalls.Proofs.Calls.HeaderPrecedence
import ServiceCalls.Proofs.Exchange.Hooks
import ServiceCalls.Proofs.Group.Entries

/-
  What a call makes of the response to its request.

  A status that tells of a failure is one, whatever shape is
  declared and whatever the body is.  Every other response
  is presented in the declared shape, and it makes no
  difference which of the other statuses it has.

  Key definitions include:
    * `ProxyFunction.present`
    * `Client.AcceptsResponse`

  Main declarations:
    * `Client.result_finish`
    * `ProxyFunction.result_run`
    * `ProxyFunction.result_of_request`
    * `ProxyFunction.responses_of_call`
-/

namespace ServiceCalls

------------------------------------------------------------
-- Responses to Requests
------------------------------------------------------------

namespace Client

variable [DomainNames]

/- All hooks let a response pass. -/
def AcceptsResponse
    (client : Client)
    (response : Response) :
    Prop :=
  ∀ interceptor ∈ client.interceptors, ∀ context,
    interceptor.onResponse context response = .ok ()

/- A response that hooks let pass is judged by its status. -/
theorem result_finish
    {client : Client}
    {response : Response}
    (hAccepts : client.AcceptsResponse response)
    (context : RequestContext)
    (network : Network) :
    (client.finish context (.ok response) network).result =
      if response.status / 100 = 4 ∨
          response.status / 100 = 5 then
        .error (.api response.status
          (Text.decodeLenient response.body))
      else .ok response := by
  rw [finish_of_accepted fun interceptor hMem =>
    hAccepts interceptor hMem context]
  by_cases hFailure : response.isFailure = true
  · rw [if_pos hFailure,
      if_pos ((isFailure_iff response).mp hFailure)]
    rfl
  · rw [if_neg hFailure,
      if_neg (mt (isFailure_iff response).mpr hFailure)]

/- What is returned is a response whose status is none. -/
theorem answered_of_finish
    {client : Client}
    {context : RequestContext}
    {answer : Except ServiceError Response}
    {network : Network}
    {response : Response}
    (h : (client.finish context answer network).result =
      .ok response) :
    answer = .ok response ∧
      ¬(response.status / 100 = 4 ∨
        response.status / 100 = 5) := by
  cases answer with
  | error error =>
      rw [finish_error, failWith_eq] at h
      cases h
  | ok given =>
      rw [finish_ok] at h
      rcases Run.bind_eq_ok h with ⟨_, _, hJudged⟩
      split at hJudged
      · rw [failWith_eq] at hJudged
        cases hJudged
      · next hOther =>
          cases hJudged
          exact ⟨rfl, mt (isFailure_iff response).mpr hOther⟩

/- The execution of a request that the hooks have changed. -/
theorem result_execute
    {client : Client}
    {request prepared : Request}
    (hHooked :
      Interceptor.hooked (contextOf request)
        client.interceptors request = .ok prepared)
    (network : Network) :
    (client.execute request network).result =
      (client.finish (contextOf request)
        (Run.send client.transport prepared network).result
        network).result := by
  have hPrepared :=
    (Interceptor.prepareAll_yields (contextOf request) 0
      client.interceptors request network).2
  rw [hHooked] at hPrepared
  rw [execute_eq, Run.result_bind, hPrepared]
  change ((Run.attempt (Run.send client.transport prepared) >>=
    client.finish (contextOf request)) network).result = _
  rw [Run.result_bind]
  rfl

/- What comes of finished values whose request is sent. -/
theorem result_send
    [KnownMedia]
    {client : Client}
    {values : RequestValues}
    {encoded prepared : Request}
    (hEncoded : client.encoded values = .ok encoded)
    (hHooked :
      Interceptor.hooked (contextOf encoded)
        client.interceptors encoded = .ok prepared)
    (network : Network) :
    (client.send values network).result =
      (client.finish (contextOf encoded)
        (Run.send client.transport prepared network).result
        network).result := by
  have hAssembled := (client.assemble_yields values network).2
  rw [hEncoded] at hAssembled
  unfold send
  rw [Run.result_bind, hAssembled]
  exact result_execute hHooked network

end Client

------------------------------------------------------------
-- Functions of an Adapter
------------------------------------------------------------

namespace Adapter

variable [DomainNames] [KnownMedia]
variable (client : Client)
variable (values : RequestValues)
variable (network : Network)

theorem result_exchange :
    ((ofClient client).exchange values network).result =
      (client.send values network).result >>=
        fun _ => .ok () :=
  Run.result_bind _ _ network

theorem result_headers :
    ((ofClient client).headers values network).result =
      (client.send values network).result >>=
        fun response => .ok response.headers :=
  Run.result_bind _ _ network

theorem result_body (type : BodyType) :
    ((ofClient client).body type values network).result =
      (client.send values network).result >>=
        decode type :=
  Run.result_bind _ _ network

theorem result_entity (type : BodyType) :
    ((ofClient client).entity type values network).result =
      (client.send values network).result >>=
        fun response => decode type response >>=
          fun content => .ok
            ⟨response.status, response.headers, content⟩ := by
  refine (Run.result_bind _ _ network).trans ?_
  congr 1
  funext response
  exact Run.result_bind _ _ network

theorem result_bodilessEntity :
    ((ofClient client).bodilessEntity values
        network).result =
      (client.send values network).result >>=
        fun response => .ok
          ⟨response.status, response.headers, none⟩ :=
  Run.result_bind _ _ network

end Adapter

------------------------------------------------------------
-- Functions of a Proxy
------------------------------------------------------------

namespace ProxyFunction

/-
  What a function makes of a response, by the shape that is
  declared.
-/
def present
    (proxy : Proxy)
    (name : String)
    (returns : ReturnShape)
    (response : Response) :
    (function : ProxyFunction) →
      Except ServiceError function.Result
  | .invoke =>
      match returns with
      | .nothing => .ok .nothing
      | .headers => .ok (.headers response.headers)
      | .body type =>
          (Adapter.decode type response).map .body
      | .entity type =>
          (Adapter.decode type response).map fun content =>
            .entity
              ⟨response.status, response.headers, content⟩
      | .bodilessEntity =>
          .ok (.bodilessEntity
            ⟨response.status, response.headers, none⟩)
  | .exchange =>
      match returns with
      | .nothing => .ok ()
      | _ => .error (proxy.notReturned name "nothing")
  | .headers =>
      match returns with
      | .headers => .ok response.headers
      | _ => .error (proxy.notReturned name "headers")
  | .body schema =>
      match returns with
      | .body type => do
          match ← Adapter.decode type response with
          | none => return none
          | some content =>
              return some (← content.conform schema)
      | _ => .error (proxy.notReturned name "a body")
  | .entity schema =>
      match returns with
      | .entity type => do
          let content ← Adapter.decode type response
          let given : ResponseEntity ResponseBody :=
            ⟨response.status, response.headers, content⟩
          given.mapBody (·.conform schema)
      | _ => .error (proxy.notReturned name "an entity")
  | .bodilessEntity =>
      match returns with
      | .bodilessEntity =>
          .ok ⟨response.status, response.headers, none⟩
      | _ =>
          .error (proxy.notReturned name "a bodiless entity")

section

variable [DomainNames] [KnownMedia]

/- The stages of a call whose request was made. -/
structure Prepared
    (function : ProxyFunction)
    (client : Client)
    (proxy : Proxy)
    (name : String)
    (arguments : List Argument)
    (request : Request)
    (method : ServiceMethod)
    (values : RequestValues)
    (encoded : Request) :
    Prop where
  method_eq : proxy.method name = .ok method
  accepts : function.accepts method.returns = true
  values_eq : ∀ network,
    (proxy.start method arguments network).result =
      .ok values
  encoded_eq : client.encoded values = .ok encoded
  hooked_eq :
    Interceptor.hooked (Client.contextOf encoded)
      client.interceptors encoded = .ok request

/- A request is made by a function for what is declared. -/
theorem accepts_of_request
    {function : ProxyFunction}
    {client : Client}
    {proxy : Proxy}
    {name : String}
    {arguments : List Argument}
    {request : Request}
    {method : ServiceMethod}
    (hMethod : proxy.method name = .ok method)
    (h : function.request client proxy name arguments =
      .ok request) :
    function.accepts method.returns = true := by
  unfold ProxyFunction.request at h
  rw [hMethod] at h
  rcases Fallible.bind_eq_ok h with ⟨_, ⟨⟩, hShape⟩
  rcases Fallible.bind_eq_ok hShape with ⟨_, hReturns, _⟩
  have hChecked := Fallible.mapError_eq_ok hReturns
  unfold checkReturns at hChecked
  split at hChecked
  · next hAccepts => exact hAccepts
  · cases hChecked

theorem exists_prepared
    {function : ProxyFunction}
    {client : Client}
    {proxy : Proxy}
    {name : String}
    {arguments : List Argument}
    {request : Request}
    (h : function.request client proxy name arguments =
      .ok request) :
    ∃ method values encoded,
      function.Prepared client proxy name arguments request
        method values encoded := by
  rcases stages_of_request h with
    ⟨method, draft, values, encoded, hMethod, hCount,
      hDrafted, hBuilt, hEncoded, hHooked⟩
  refine ⟨method, values, encoded, hMethod,
    accepts_of_request hMethod h, fun network => ?_,
    hEncoded, hHooked⟩
  rw [(proxy.start_yields method arguments network).2,
    hCount]
  change (proxy.drafted method arguments >>= _).mapError _ =
    _
  rw [hDrafted]
  change (Stage.build.run draft.build).mapError _ = _
  rw [hBuilt]
  rfl

end

variable {proxy : Proxy}
variable {name : String}
variable {arguments : List Argument}
variable {method : ServiceMethod}
variable {values : RequestValues}
variable {network : Network}

theorem result_looked
    {α : Type}
    (hMethod : proxy.method name = .ok method)
    (next : ServiceMethod → Run α)
    (network : Network) :
    ((Run.lift (proxy.method name) >>= next)
        network).result =
      (next method network).result := by
  rw [Run.result_bind]
  change (proxy.method name >>= _) = _
  rw [hMethod]
  rfl

theorem result_started
    {α : Type}
    (hValues :
      (proxy.start method arguments network).result =
        .ok values)
    (perform : RequestValues → Run α) :
    ((proxy.start method arguments >>= perform)
        network).result =
      (perform values network).result := by
  rw [Run.result_bind, hValues]
  rfl

section

variable [DomainNames] [KnownMedia]
variable {client : Client}

/- The declared shape is what is made of the response. -/
theorem result_invoke
    (hAdapter : proxy.adapter = .ofClient client)
    (hMethod : proxy.method name = .ok method)
    (hValues :
      (proxy.start method arguments network).result =
        .ok values) :
    (proxy.invoke name arguments network).result =
      (client.send values network).result >>= fun response =>
        present proxy name method.returns response
          .invoke := by
  unfold Proxy.invoke
  rw [result_looked hMethod, result_started hValues,
    hAdapter]
  cases method.returns with
  | nothing =>
      rw [Run.result_bind, Adapter.result_exchange]
      cases (client.send values network).result <;> rfl
  | headers =>
      rw [Run.result_bind, Adapter.result_headers]
      cases (client.send values network).result <;> rfl
  | body type =>
      rw [Run.result_bind, Adapter.result_body, bind_assoc]
      rfl
  | entity type =>
      rw [Run.result_bind, Adapter.result_entity]
      cases (client.send values network).result with
      | error error => rfl
      | ok response =>
          change (Adapter.decode type response >>= _) >>= _ =
            (Adapter.decode type response).map _
          cases Adapter.decode type response <;> rfl
  | bodilessEntity =>
      rw [Run.result_bind, Adapter.result_bodilessEntity]
      cases (client.send values network).result <;> rfl

/- A body is read as it is declared, then as it is wanted. -/
theorem result_exchangeForBody
    (hAdapter : proxy.adapter = .ofClient client)
    (hMethod : proxy.method name = .ok method)
    (schema : Schema)
    (hAccepts :
      (ProxyFunction.body schema).accepts method.returns =
        true)
    (hValues :
      (proxy.start method arguments network).result =
        .ok values) :
    (proxy.exchangeForBody schema name arguments
        network).result =
      (client.send values network).result >>= fun response =>
        present proxy name method.returns response
          (.body schema) := by
  unfold Proxy.exchangeForBody
  rw [result_looked hMethod]
  cases hReturns : method.returns with
  | body type =>
      dsimp only
      rw [result_started hValues, hAdapter, Run.result_bind,
        Adapter.result_body]
      cases (client.send values network).result with
      | error error => rfl
      | ok response =>
          change Adapter.decode type response >>= _ =
            Adapter.decode type response >>= _
          congr 1
          funext content?
          cases content? with
          | none => rfl
          | some content => exact Run.result_bind _ _ network
  | _ =>
      rw [hReturns] at hAccepts
      cases hAccepts

theorem result_exchangeForEntity
    (hAdapter : proxy.adapter = .ofClient client)
    (hMethod : proxy.method name = .ok method)
    (schema : Schema)
    (hAccepts :
      (ProxyFunction.entity schema).accepts method.returns =
        true)
    (hValues :
      (proxy.start method arguments network).result =
        .ok values) :
    (proxy.exchangeForEntity schema name arguments
        network).result =
      (client.send values network).result >>= fun response =>
        present proxy name method.returns response
          (.entity schema) := by
  unfold Proxy.exchangeForEntity
  rw [result_looked hMethod]
  cases hReturns : method.returns with
  | entity type =>
      dsimp only
      rw [result_started hValues, hAdapter, Run.result_bind,
        Adapter.result_entity, bind_assoc]
      cases (client.send values network).result with
      | error error => rfl
      | ok response =>
          change (Adapter.decode type response >>= _) >>= _ =
            Adapter.decode type response >>= _
          cases Adapter.decode type response <;> rfl
  | _ =>
      rw [hReturns] at hAccepts
      cases hAccepts

/-
  What a call comes to is what its function makes of the
  response, as it is declared.  The cases are those of the
  functions, each of which looks for a shape of its own.
-/
theorem result_run
    (hAdapter : proxy.adapter = .ofClient client)
    (hMethod : proxy.method name = .ok method)
    {function : ProxyFunction}
    (hAccepts : function.accepts method.returns = true)
    (hValues :
      (proxy.start method arguments network).result =
        .ok values) :
    (function.run proxy name arguments network).result =
      (client.send values network).result >>= fun response =>
        present proxy name method.returns response
          function := by
  cases function with
  | invoke => exact result_invoke hAdapter hMethod hValues
  | exchange =>
      change (Proxy.exchange proxy name arguments
        network).result = _
      unfold Proxy.exchange
      rw [result_looked hMethod]
      cases hReturns : method.returns with
      | nothing =>
          dsimp only
          rw [result_started hValues, hAdapter,
            Adapter.result_exchange]
          rfl
      | _ =>
          rw [hReturns] at hAccepts
          cases hAccepts
  | headers =>
      change (Proxy.exchangeForHeaders proxy name arguments
        network).result = _
      unfold Proxy.exchangeForHeaders
      rw [result_looked hMethod]
      cases hReturns : method.returns with
      | headers =>
          dsimp only
          rw [result_started hValues, hAdapter,
            Adapter.result_headers]
          rfl
      | _ =>
          rw [hReturns] at hAccepts
          cases hAccepts
  | body schema =>
      exact result_exchangeForBody hAdapter hMethod schema
        hAccepts hValues
  | entity schema =>
      exact result_exchangeForEntity hAdapter hMethod schema
        hAccepts hValues
  | bodilessEntity =>
      change (Proxy.exchangeForBodilessEntity proxy name
        arguments network).result = _
      unfold Proxy.exchangeForBodilessEntity
      rw [result_looked hMethod]
      cases hReturns : method.returns with
      | bodilessEntity =>
          dsimp only
          rw [result_started hValues, hAdapter,
            Adapter.result_bodilessEntity]
          rfl
      | _ =>
          rw [hReturns] at hAccepts
          cases hAccepts

/- A request that was made is answered and presented. -/
theorem result_of_request
    (hAdapter : proxy.adapter = .ofClient client)
    {function : ProxyFunction}
    {request : Request}
    (h : function.request client proxy name arguments =
      .ok request)
    (network : Network) :
    ∃ method context,
      proxy.method name = .ok method ∧
        (function.run proxy name arguments network).result =
          (client.finish context
            (Run.send client.transport request network).result
            network).result >>= fun response =>
              present proxy name method.returns response
                function := by
  rcases exists_prepared h with
    ⟨method, values, encoded, hPrepared⟩
  refine ⟨method, Client.contextOf encoded,
    hPrepared.method_eq, ?_⟩
  rw [result_run hAdapter hPrepared.method_eq
      hPrepared.accepts (hPrepared.values_eq network),
    Client.result_send hPrepared.encoded_eq
      hPrepared.hooked_eq]

/- What returns something was answered without a failure. -/
theorem answered_of_run
    (hAdapter : proxy.adapter = .ofClient client)
    {function : ProxyFunction}
    {value : function.Result}
    (h : (function.run proxy name arguments network).result =
      .ok value) :
    ∃ request response,
      (function.run proxy name arguments
          network).executions =
          [(client.transport, request)] ∧
        (Run.send client.transport request network).result =
          .ok response ∧
        ¬(response.status / 100 = 4 ∨
          response.status / 100 = 5) := by
  have hSent := run_dispatches client proxy hAdapter function
    name arguments network
  cases hRequest :
      function.request client proxy name arguments with
  | error failure =>
      rw [hRequest] at hSent
      have hFailed := hSent.2.symm.trans h
      cases hFailed
  | ok request =>
      rw [hRequest] at hSent
      rcases result_of_request hAdapter hRequest network with
        ⟨method, context, _, hResult⟩
      rcases Fallible.bind_eq_ok (hResult.symm.trans h) with
        ⟨response, hFinished, _⟩
      rcases Client.answered_of_finish hFinished with
        ⟨hAnswer, hStatus⟩
      exact ⟨request, response, hSent, hAnswer, hStatus⟩

/- What was answered is judged, and presented if it may be. -/
theorem result_of_answered
    (hAdapter : proxy.adapter = .ofClient client)
    {function : ProxyFunction}
    {request : Request}
    {response : Response}
    (hSent : (client.transport, request) ∈
      (function.run proxy name arguments
        network).executions)
    (hAnswer :
      (Run.send client.transport request network).result =
        .ok response)
    (hAccepts : client.AcceptsResponse response) :
    ∃ method,
      proxy.method name = .ok method ∧
        (function.run proxy name arguments network).result =
          if response.status / 100 = 4 ∨
              response.status / 100 = 5 then
            .error (.api response.status
              (Text.decodeLenient response.body))
          else
            present proxy name method.returns response
              function := by
  have hRequest := (run_dispatches client proxy hAdapter
    function name arguments).eq_ok_of_sent hSent
  rcases result_of_request hAdapter hRequest network with
    ⟨method, context, hMethod, hResult⟩
  refine ⟨method, hMethod, hResult.trans ?_⟩
  rw [hAnswer, Client.result_finish hAccepts]
  split
  · rfl
  · rfl

/-
  A call returns something only after its one request was
  answered with a response whose status tells of no failure,
  that is, is neither of the 4xx nor of the 5xx.  A response
  with such a status that all hooks let pass is the failure
  of the call, with the status and the text of the response,
  and every other one is presented as the method declares.
-/
theorem responses_of_call
    (client : Client)
    (proxy : Proxy)
    (hAdapter : proxy.adapter = .ofClient client)
    (function : ProxyFunction)
    (name : String)
    (arguments : List Argument)
    (network : Network) :
    let outcome := function.run proxy name arguments network
    let answer (request : Request) :=
      (Run.send client.transport request network).result
    (∀ value, outcome.result = .ok value →
      ∃ request response,
        outcome.executions = [(client.transport, request)] ∧
          answer request = .ok response ∧
          ¬(response.status / 100 = 4 ∨
            response.status / 100 = 5)) ∧
      ∀ request response,
        (client.transport, request) ∈ outcome.executions →
        answer request = .ok response →
        client.AcceptsResponse response →
        ∃ method,
          proxy.method name = .ok method ∧
            outcome.result =
              if response.status / 100 = 4 ∨
                  response.status / 100 = 5 then
                .error (.api response.status
                  (Text.decodeLenient response.body))
              else
                present proxy name method.returns response
                  function := by
  intro outcome answer
  exact ⟨fun _ hValue => answered_of_run hAdapter hValue,
    fun _ _ hSent hAnswer hAccepts =>
      result_of_answered hAdapter hSent hAnswer hAccepts⟩

end

open PlainNames CommonMedia

/- No hook of the client looks at responses. -/
theorem accepts_redirecting (response : Response) :
    redirectingClient.AcceptsResponse response := by
  intro interceptor hMem context
  rcases List.mem_pair.mp hMem with rfl | rfl
  · rfl
  · rfl

/- A response without content, in no valid text. -/
def refusal (status : Nat) : Response :=
  ⟨status, .empty, [0xFF]⟩

/- A page that is missing is not the headers of a page. -/
theorem responses_of_missing :
    (ProxyFunction.headers.run remoteProxy "list"
        [.uri remoteTarget]
        (fun _ _ => .ok (refusal 404))).result =
      .error (.api 404 "\uFFFD") := by
  have hText : Text.decodeLenient [0xFF] = "\uFFFD" := by
    decide +kernel
  rcases (responses_of_call redirectingClient remoteProxy rfl
      .headers "list" [.uri remoteTarget]
      (fun _ _ => .ok (refusal 404))).2
      ⟨.post, remoteTarget, .empty, none⟩ (refusal 404)
      (List.mem_singleton.mpr rfl) rfl
      (accepts_redirecting _) with ⟨method, _, hResult⟩
  rw [hResult, if_pos (by decide)]
  unfold refusal
  rw [hText]

/- A status that is no success can be one of a result. -/
theorem results_not_always_successes :
    ¬∀ (client : Client)
        (proxy : Proxy)
        (function : ProxyFunction)
        (name : String)
        (arguments : List Argument)
        (network : Network)
        (request : Request)
        (response : Response)
        (value : function.Result),
      proxy.adapter = .ofClient client →
      client.AcceptsResponse response →
      let outcome :=
        function.run proxy name arguments network
      (client.transport, request) ∈ outcome.executions →
      (Run.send client.transport request network).result =
        .ok response →
      outcome.result = .ok value →
      response.status / 100 = 2 := by
  intro hAll
  have hStatus := hAll redirectingClient remoteProxy .headers
    "list" [.uri remoteTarget]
    (fun _ _ => .ok (refusal 304))
    ⟨.post, remoteTarget, .empty, none⟩ (refusal 304) .empty
    rfl (accepts_redirecting _) (List.mem_singleton.mpr rfl)
    rfl rfl
  exact absurd hStatus (by decide)

end ProxyFunction

end ServiceCalls
