import ServiceCalls.Proofs.Exchange.Cookies
import ServiceCalls.Proofs.Exchange.Hooks
import ServiceCalls.Proofs.Text.Base64

/-
  Credentials that are read back from the requests they are
  added to.

  A request that has no credentials gets those of the client,
  as one value of printable characters.  Its digits are the
  user name and the password with a colon between them, so
  that what is read back are the same credentials exactly
  when the user name has no colon.

  Key definitions include:
    * `Interceptor.Credentials.headerValue`
    * `Interceptor.Credentials.read?`
    * `Interceptor.Retains`

  Main declarations:
    * `Interceptor.read_text`
    * `Interceptor.Credentials.read?_headerValue_iff`
    * `Interceptor.beforeSend_basicAuth`
    * `Client.authorization_of_execution`
-/

namespace ServiceCalls

------------------------------------------------------------
-- Printable Texts
------------------------------------------------------------

/- Characters that every field value may hold. -/
def IsPrintable (c : Char) : Prop :=
  0x20 ≤ c.toNat ∧ c.toNat < 0x7F

instance (c : Char) : Decidable (IsPrintable c) :=
  inferInstanceAs (Decidable (_ ∧ _))

theorem isReadableOctet_of_isPrintable
    {c : Char}
    (h : IsPrintable c) :
    HeaderValue.isReadableOctet (UInt8.ofNat c.toNat) =
      true := by
  have hNat : (UInt8.ofNat c.toNat).toNat = c.toNat :=
    Nat.mod_eq_of_lt (Nat.lt_trans h.2 (by decide))
  unfold HeaderValue.isReadableOctet
  rw [Bool.or_eq_true, Bool.and_eq_true, decide_eq_true_eq,
    decide_eq_true_eq, UInt8.le_iff_toNat_le,
    UInt8.lt_iff_toNat_lt, hNat]
  exact .inl h

/- A printable text is the text of a field value. -/
theorem text?_of_printable
    {s : String}
    (h : ∀ c ∈ s.toList, IsPrintable c) :
    (HeaderValue.mk (Text.encode s)).text? = some s := by
  refine (HeaderValue.text?_eq_some_iff _ s).mpr ⟨?_, ?_⟩
  · refine List.all_eq_true.mpr fun b hByte => ?_
    rcases List.mem_flatMap.mp hByte with ⟨c, hMem, hOctet⟩
    have hLow : c.toNat < 0x80 :=
      Nat.lt_trans (h c hMem).2 (by decide)
    rw [Text.utf8EncodeChar_of_lt hLow,
      List.mem_singleton] at hOctet
    rw [hOctet]
    exact isReadableOctet_of_isPrintable (h c hMem)
  · exact (Text.decodeLenient_encode s).symm

theorem Text.base64Digit_printable (n : Nat) :
    IsPrintable (base64Digit n) := by
  by_cases hLow : n < 64
  · revert n
    decide
  · have hLast : base64Digit n = '/' := by
      unfold base64Digit
      rw [if_neg (by omega), if_neg (by omega),
        if_neg (by omega), if_neg (by omega)]
    rw [hLast]
    decide

theorem Text.base64Encode_printable
    (bytes : Bytes) :
    ∀ c ∈ base64Encode bytes, IsPrintable c := by
  have hPad : IsPrintable '=' := by decide
  fun_induction base64Encode bytes with
  | case1 => exact nofun
  | case2 a n =>
      simp [hPad, base64Digit_printable]
  | case3 a b n =>
      simp [hPad, base64Digit_printable]
  | case4 a b c rest n ih =>
      simpa [base64Digit_printable] using ih

namespace Interceptor

namespace Credentials

------------------------------------------------------------
-- Credentials as a Field Value
------------------------------------------------------------

/- What the digits of credentials stand for. -/
def pair (credentials : Credentials) : String :=
  credentials.username ++ ":" ++ credentials.password

/- The digits of credentials. -/
def digits (credentials : Credentials) : List Char :=
  Text.base64Encode (Text.encode credentials.pair)

/- The field value of credentials. -/
def headerValue (credentials : Credentials) : HeaderValue :=
  ⟨Text.encode credentials.text⟩

theorem text_eq (credentials : Credentials) :
    credentials.text =
      "Basic " ++ String.ofList credentials.digits := by
  unfold text
  rw [String.ofList_append, String.ofList_toList]
  rfl

theorem text?_headerValue (credentials : Credentials) :
    credentials.headerValue.text? =
      some credentials.text := by
  refine text?_of_printable fun c hMem => ?_
  rw [text_eq, String.toList_append,
    List.mem_append] at hMem
  rcases hMem with hScheme | hDigit
  · have hAll :
        ("Basic ".toList.all (IsPrintable ·)) = true := by
      decide
    exact of_decide_eq_true
      (List.all_eq_true.mp hAll c hScheme)
  · rw [String.toList_ofList] at hDigit
    exact Text.base64Encode_printable
      (Text.encode credentials.pair) c hDigit

/- Credentials always make a field value. -/
theorem read_text (credentials : Credentials) :
    HeaderValue.read credentials.text =
      .ok credentials.headerValue := by
  unfold HeaderValue.read
  rw [HeaderValue.ofText?_of_text?
    credentials.text?_headerValue]

------------------------------------------------------------
-- Reading Credentials
------------------------------------------------------------

/- The digits of a field value. -/
def digits? (value : HeaderValue) : Option (List Char) := do
  match (← value.text?).toList with
  | 'B' :: 'a' :: 's' :: 'i' :: 'c' :: ' ' :: digits =>
      some digits
  | _ => none

/-
  The credentials of a field value.  Its digits stand for a
  text, and the first colon of that text ends the user name.
-/
def read? (value : HeaderValue) : Option Credentials := do
  let digits ← digits? value
  let octets ← Text.base64Decode? digits
  let pair ← Text.decode? octets
  let parts ← Text.splitOnce [':'] pair.toList
  return ⟨String.ofList parts.1, String.ofList parts.2⟩

theorem digits?_headerValue (credentials : Credentials) :
    digits? credentials.headerValue =
      some credentials.digits := by
  have hText :
      credentials.text.toList =
        'B' :: 'a' :: 's' :: 'i' :: 'c' :: ' ' ::
          credentials.digits := by
    unfold text
    rw [String.toList_ofList]
    rfl
  unfold digits?
  rw [text?_headerValue, Option.bind_eq_bind,
    Option.bind_some, hText]
  rfl

theorem pair_toList (credentials : Credentials) :
    credentials.pair.toList =
      credentials.username.toList ++
        ':' :: credentials.password.toList := by
  unfold pair
  rw [String.toList_append, String.toList_append,
    List.append_assoc]
  rfl

theorem read?_headerValue (credentials : Credentials) :
    read? credentials.headerValue =
      (Text.splitOnce [':'] credentials.pair.toList).map
        fun parts =>
          ⟨String.ofList parts.1,
            String.ofList parts.2⟩ := by
  unfold read?
  rw [digits?_headerValue, Option.bind_eq_bind,
    Option.bind_some, digits, Text.base64Decode?_base64Encode,
    Option.bind_eq_bind, Option.bind_some,
    Text.decode?_encode, Option.bind_eq_bind,
    Option.bind_some]
  cases Text.splitOnce [':'] credentials.pair.toList <;> rfl

/-
  Credentials are read back exactly when the colon after the
  user name is the first one.
-/
theorem read?_headerValue_iff (credentials : Credentials) :
    read? credentials.headerValue = some credentials ↔
      ':' ∉ credentials.username.toList := by
  rw [← Text.splitOnce_cons_iff ':'
      credentials.username.toList
      credentials.password.toList,
    read?_headerValue, pair_toList]
  constructor
  · intro hRead
    rcases Option.map_eq_some_iff.mp hRead with
      ⟨parts, hSplit, hSame⟩
    rw [hSplit, ← hSame, String.toList_ofList,
      String.toList_ofList]
  · intro hSplit
    rw [hSplit, Option.map_some, String.ofList_toList,
      String.ofList_toList]

end Credentials

------------------------------------------------------------
-- Hooks
------------------------------------------------------------

/- A hook that leaves the values of a header that has some. -/
def Retains
    (header : HeaderName)
    (interceptor : Interceptor) : Prop :=
  ∀ context request changed,
    interceptor.beforeSend context request = .ok changed →
      request.headers.values header ≠ [] →
      changed.headers.values header =
        request.headers.values header

theorem Keeps.retains
    {header : HeaderName}
    {interceptor : Interceptor}
    (h : interceptor.Keeps header) :
    interceptor.Retains header :=
  fun context request changed hChanged _ =>
    h context request changed hChanged

/- What is there stays there, through all hooks. -/
theorem values_hooked_retained
    {header : HeaderName}
    {interceptors : List Interceptor}
    (hRetain : ∀ interceptor ∈ interceptors,
      interceptor.Retains header)
    {context : RequestContext}
    {request prepared : Request}
    (h : hooked context interceptors request =
      .ok prepared)
    (hSome : request.headers.values header ≠ []) :
    prepared.headers.values header =
      request.headers.values header := by
  induction interceptors generalizing request with
  | nil =>
      cases h
      rfl
  | cons interceptor rest ih =>
      rcases Fallible.bind_eq_ok h with
        ⟨changed, hChanged, hRest⟩
      have hStep := hRetain interceptor List.mem_cons_self
        context request changed
        (Fallible.mapError_eq_ok hChanged) hSome
      rw [← hStep] at hSome ⊢
      exact ih (fun hook hMem =>
        hRetain hook (List.mem_cons_of_mem _ hMem)) hRest
          hSome

/- Credentials are added to requests that have none. -/
theorem beforeSend_basicAuth
    (credentials : Credentials)
    (context : RequestContext)
    (request : Request) :
    (basicAuth credentials).beforeSend context request =
      .ok (if request.headers.values .authorization = [] then
        { request with
          headers := request.headers.insert .authorization
            credentials.headerValue }
      else request) := by
  change (authorize credentials request.headers).map _ = _
  unfold authorize
  by_cases hNone :
      request.headers.values .authorization = []
  · have hContains :
        ¬request.headers.contains .authorization = true := by
      rw [Headers.contains_iff, not_not]
      exact hNone
    rw [if_neg hContains, if_pos hNone,
      credentials.read_text]
    rfl
  · rw [if_pos ((Headers.contains_iff _ _).mpr hNone),
      if_neg hNone]
    rfl

/- The values after credentials were added. -/
theorem values_basicAuth
    {credentials : Credentials}
    {context : RequestContext}
    {request changed : Request}
    (h : (basicAuth credentials).beforeSend context request =
      .ok changed) :
    changed.headers.values .authorization =
      if request.headers.values .authorization = [] then
        [credentials.headerValue]
      else request.headers.values .authorization := by
  rw [beforeSend_basicAuth] at h
  rw [← Except.ok.inj h]
  split
  · exact Headers.values_insert_self _ _ _
  · rfl

/- After the hook a request has credentials. -/
theorem authorized_of_basicAuth
    {credentials : Credentials}
    {context : RequestContext}
    {request changed : Request}
    (h : (basicAuth credentials).beforeSend context request =
      .ok changed) :
    changed.headers.values .authorization ≠ [] := by
  rw [values_basicAuth h]
  split
  · exact List.cons_ne_nil _ _
  · next hOwn => exact hOwn

theorem basicAuth_retains (credentials : Credentials) :
    (basicAuth credentials).Retains .authorization := by
  intro context request changed hChanged hSome
  rw [values_basicAuth hChanged, if_neg hSome]

theorem hooked_cons_of_ok
    {context : RequestContext}
    {interceptor : Interceptor}
    {request changed : Request}
    (h : interceptor.beforeSend context request =
      .ok changed)
    (later : List Interceptor) :
    hooked context (interceptor :: later) request =
      hooked context later changed := by
  unfold hooked
  rw [List.foldlM_cons, h]
  rfl

/- The values after earlier hooks, credentials, and others. -/
theorem authorization_hooked
    {credentials : Credentials}
    {earlier later : List Interceptor}
    (hEarlier : ∀ interceptor ∈ earlier,
      interceptor.Keeps .authorization)
    (hLater : ∀ interceptor ∈ later,
      interceptor.Retains .authorization)
    {context : RequestContext}
    {request prepared : Request}
    (h : hooked context
        (earlier ++ basicAuth credentials :: later) request =
      .ok prepared) :
    prepared.headers.values .authorization =
      if request.headers.values .authorization = [] then
        [credentials.headerValue]
      else request.headers.values .authorization := by
  unfold hooked at h
  rw [List.foldlM_append] at h
  rcases Fallible.bind_eq_ok h with
    ⟨reached, hReached, hRest⟩
  rcases Fallible.bind_eq_ok hRest with
    ⟨changed, hChanged, hLast⟩
  have hHook := Fallible.mapError_eq_ok hChanged
  rw [values_hooked_retained hLater hLast
      (authorized_of_basicAuth hHook),
    values_basicAuth hHook, values_hooked hEarlier hReached]

end Interceptor

namespace Client

open Interceptor

------------------------------------------------------------
-- Credentials of a Client
------------------------------------------------------------

/- What the hooks make of a request is sent. -/
theorem sent_of_hooked
    [DomainNames]
    {client : Client}
    {request made : Request}
    (h : hooked (contextOf request) client.interceptors
      request = .ok made)
    (network : Network) :
    (client.transport, made) ∈
      (client.execute request network).executions := by
  have hSent := client.execute_dispatches request network
  rw [h] at hSent
  have hOne :
      (client.execute request network).executions =
        [(client.transport, made)] :=
    hSent
  rw [hOne]
  exact List.mem_singleton.mpr rfl

/- The hook that logs leaves credentials as they are. -/
theorem retains_logged
    {interceptors : List Interceptor}
    (h : ∀ interceptor ∈ interceptors,
      interceptor.Retains .authorization)
    (logging : Bool) :
    ∀ interceptor ∈
      interceptors ++ (if logging then [.logging] else []),
      interceptor.Retains .authorization := by
  intro interceptor hMem
  rcases List.mem_append.mp hMem with hOwn | hLogging
  · exact h interceptor hOwn
  · split at hLogging
    · rw [List.mem_singleton.mp hLogging]
      exact (logging_keeps .authorization).retains
    · cases hLogging

section

variable [DomainNames]

/- The credentials of what a client sends. -/
theorem authorization_of_sent
    {username password : String}
    {config earlier : ClientConfig}
    {later : List Interceptor}
    {client : Client}
    (hConfig : config.interceptors =
      (earlier.basicAuth username password).interceptors ++
        later)
    (hBuild : config.build = .ok client)
    (hEarlier : ∀ interceptor ∈ earlier.interceptors,
      interceptor.Keeps .authorization)
    (hLater : ∀ interceptor ∈ later,
      interceptor.Retains .authorization)
    {request sent : Request}
    {network : Network}
    {transport : Transport}
    (hSent : (transport, sent) ∈
      (client.execute request network).executions) :
    sent.headers.values .authorization =
      if request.headers.values .authorization = [] then
        [Credentials.headerValue ⟨username, password⟩]
      else request.headers.values .authorization := by
  have hOrder :
      client.interceptors =
        earlier.interceptors ++
          .basicAuth ⟨username, password⟩ ::
          (later ++
            if config.logging then [.logging] else []) := by
    rw [interceptors_of_build hBuild, hConfig]
    change (earlier.interceptors ++ [_] ++ later) ++ _ = _
    rw [List.append_assoc, List.append_assoc,
      List.singleton_append]
  have hHooked :=
    (client.execute_dispatches request).eq_ok_of_sent hSent
  rw [hOrder] at hHooked
  exact authorization_hooked hEarlier
    (retains_logged hLater config.logging) hHooked

/-
  A request without credentials is sent with those of the
  client as its only ones, whatever the user name and the
  password are, and they are read back exactly when the user
  name has no colon.  The hook never refuses a request, it
  leaves one that has credentials as it is, and so does a
  second hook of this kind after the first.
-/
theorem authorization_of_execution
    (username password : String)
    {config earlier : ClientConfig}
    {later : List Interceptor}
    {client : Client}
    (hConfig : config.interceptors =
      (earlier.basicAuth username password).interceptors ++
        later)
    (hBuild : config.build = .ok client)
    (hEarlier : ∀ interceptor ∈ earlier.interceptors,
      interceptor.Keeps .authorization)
    (hLater : ∀ interceptor ∈ later,
      interceptor.Retains .authorization)
    (request : Request)
    (network : Network)
    (transport : Transport)
    (sent : Request)
    (hSent : (transport, sent) ∈
      (client.execute request network).executions) :
    let credentials : Credentials := ⟨username, password⟩
    let hook := Interceptor.basicAuth credentials
    let octets :=
      Text.encode (username ++ ":" ++ password)
    let digits := Text.base64Encode octets
    (request.headers.values .authorization = [] →
      ∃ value,
        sent.headers.values .authorization = [value] ∧
          value.text? =
            some ("Basic " ++ String.ofList digits) ∧
          Text.base64Decode? digits = some octets ∧
          (Credentials.read? value = some credentials ↔
            ':' ∉ username.toList)) ∧
      (request.headers.values .authorization ≠ [] →
        sent.headers.values .authorization =
          request.headers.values .authorization) ∧
      ∀ context given,
        ∃ changed,
          hook.beforeSend context given = .ok changed ∧
            (given.headers.values .authorization ≠ [] →
              changed = given) ∧
            ∀ others,
              (Interceptor.basicAuth others).beforeSend
                context changed = .ok changed := by
  intro credentials hook octets digits
  have hValues :=
    authorization_of_sent hConfig hBuild hEarlier hLater hSent
  refine ⟨fun hNone => ?_, fun hSome => ?_, ?_⟩
  · rw [if_pos hNone] at hValues
    refine ⟨credentials.headerValue, hValues, ?_,
      Text.base64Decode?_base64Encode octets,
      credentials.read?_headerValue_iff⟩
    rw [credentials.text?_headerValue, credentials.text_eq]
    rfl
  · rw [hValues, if_neg hSome]
  · intro context given
    have hHook :=
      beforeSend_basicAuth credentials context given
    refine ⟨_, hHook, fun hSome => if_neg hSome,
      fun others => ?_⟩
    rw [beforeSend_basicAuth others,
      if_neg (authorized_of_basicAuth hHook)]

------------------------------------------------------------
-- A User Name With a Colon
------------------------------------------------------------

/- A configuration without hooks. -/
def openConfig : ClientConfig :=
  { ClientConfig.ofSettings ⟨none, none, none, none⟩ with
    transport := some .given }

/- A configuration with credentials, and with others later. -/
def guardedConfig (username : String) : ClientConfig :=
  (openConfig.basicAuth username "123").basicAuth "mary"
    "secret"

/- The client of the configuration. -/
def guardedClient (username : String) : Client where
  base? := none
  defaultHeaders := .empty
  defaultCookies := []
  interceptors :=
    [.basicAuth ⟨username, "123"⟩,
      .basicAuth ⟨"mary", "secret"⟩]
  transport := .given

end

/- A request with credentials. -/
def gettingWith (credentials : Credentials) : Request :=
  { getting with
    headers :=
      ⟨[(.authorization, credentials.headerValue)]⟩ }

theorem keeps_of_open :
    ∀ interceptor ∈ openConfig.interceptors,
      interceptor.Keeps .authorization :=
  List.forall_mem_nil _

theorem retains_of_guarded :
    ∀ interceptor ∈
      [Interceptor.basicAuth ⟨"mary", "secret"⟩],
      interceptor.Retains .authorization := by
  intro interceptor hMem
  rw [List.mem_singleton.mp hMem]
  exact basicAuth_retains _

/- The first credentials of a client are those it sends. -/
theorem sent_of_guarded [DomainNames] (username : String) :
    (Transport.given,
        gettingWith ⟨username, "123"⟩) ∈
      ((guardedClient username).execute getting
        fun _ _ => .ok ⟨200, .empty, []⟩).executions := by
  have hFirst :
      (Interceptor.basicAuth ⟨username, "123"⟩).beforeSend
          (contextOf getting) getting =
        .ok (gettingWith ⟨username, "123"⟩) := by
    rw [beforeSend_basicAuth, if_pos (by rfl)]
    rfl
  have hSecond :
      (Interceptor.basicAuth ⟨"mary", "secret"⟩).beforeSend
          (contextOf getting)
          (gettingWith ⟨username, "123"⟩) =
        .ok (gettingWith ⟨username, "123"⟩) := by
    rw [beforeSend_basicAuth, if_neg]
    exact List.cons_ne_nil _ _
  have hHooked :
      hooked (contextOf getting)
          (guardedClient username).interceptors getting =
        .ok (gettingWith ⟨username, "123"⟩) := by
    unfold guardedClient
    rw [hooked_cons_of_ok hFirst, hooked_cons_of_ok hSecond]
    rfl
  exact sent_of_hooked hHooked _

open PlainNames

/- A second user does not take the place of the first. -/
theorem authorization_of_guarded :
    ∃ sent,
      (Transport.given, sent) ∈
        ((guardedClient "john").execute getting
          fun _ _ => .ok ⟨200, .empty, []⟩).executions ∧
      (sent.headers.values .authorization).map
          HeaderValue.text? =
        [some "Basic am9objoxMjM="] := by
  refine ⟨_, sent_of_guarded "john", ?_⟩
  have hAll := authorization_of_execution "john" "123"
    (show (guardedConfig "john").interceptors =
      (openConfig.basicAuth "john" "123").interceptors ++
        [.basicAuth ⟨"mary", "secret"⟩] from rfl)
    (show (guardedConfig "john").build =
      .ok (guardedClient "john") from rfl)
    keeps_of_open retains_of_guarded getting
    (fun _ _ => .ok ⟨200, .empty, []⟩) .given
    (gettingWith ⟨"john", "123"⟩) (sent_of_guarded "john")
  rcases hAll.1 rfl with ⟨value, hValues, hText, _⟩
  have hDigits :
      Text.base64Encode (Text.encode ("john" ++ ":" ++ "123")) =
        "am9objoxMjM=".toList := by
    decide +kernel
  rw [hValues, List.map_singleton, hText, hDigits]
  rfl

/- With a colon in it a user name is read in two parts. -/
theorem credentials_not_always_read_back :
    ¬∀ (username password : String)
        (config earlier : ClientConfig)
        (later : List Interceptor)
        (client : Client)
        (request : Request)
        (network : Network)
        (transport : Transport)
        (sent : Request),
      config.interceptors =
        (earlier.basicAuth username password).interceptors ++
          later →
      config.build = .ok client →
      (∀ interceptor ∈ earlier.interceptors,
        interceptor.Keeps .authorization) →
      (∀ interceptor ∈ later,
        interceptor.Retains .authorization) →
      (transport, sent) ∈
        (client.execute request network).executions →
      request.headers.values .authorization = [] →
      ∀ value ∈ sent.headers.values .authorization,
        Credentials.read? value =
          some ⟨username, password⟩ := by
  intro hAll
  have hRead := hAll "a:b" "123" (guardedConfig "a:b")
    openConfig [.basicAuth ⟨"mary", "secret"⟩]
    (guardedClient "a:b") getting
    (fun _ _ => .ok ⟨200, .empty, []⟩) .given
    (gettingWith ⟨"a:b", "123"⟩) rfl rfl keeps_of_open
    retains_of_guarded (sent_of_guarded "a:b") rfl
    (Credentials.headerValue ⟨"a:b", "123"⟩)
    List.mem_cons_self
  rw [Credentials.read?_headerValue_iff] at hRead
  exact hRead (by decide)

end Client
end ServiceCalls
