import ServiceCalls.Proofs.Calls.HeaderPrecedence
import ServiceCalls.Proofs.Text.Runs
import ServiceCalls.Proofs.Text.Utf8

/-
  Cookies that are read back from the header they are sent
  in.

  A client sends all cookies in one header and writes them
  as they are.  What is read back are these cookies exactly
  when no name holds an equals sign and neither a name nor a
  value holds what stands between cookies.

  Key definitions include:
    * `Cookies.pieces`
    * `Cookies.readAll`
    * `Cookies.IsPlain`
    * `Interceptor.Keeps`

  Main declarations:
    * `Cookies.pieces_append`
    * `Cookies.readAll_cookieText_iff`
    * `Client.cookies_of_execution`
-/

namespace ServiceCalls

namespace Cookies

------------------------------------------------------------
-- Reading a Cookie Header
------------------------------------------------------------

/- What stands between cookies. -/
def separator : List Char :=
  [';', ' ']

/- The texts between separators. -/
def pieces : List Char → List (List Char)
  | [] => [[]]
  | ';' :: ' ' :: rest => [] :: pieces rest
  | c :: rest => (pieces rest).modifyHead (c :: ·)

/- The name and the value of a cookie, if there is a name. -/
def read? (piece : List Char) : Option (String × String) :=
  (Text.splitOnce ['='] piece).map fun (name, value) =>
    (String.ofList name, String.ofList value)

/- The cookies of a text, in order. -/
def readAll (text : String) :
    List (Option (String × String)) :=
  (pieces text.toList).map read?

/- The cookies of a header value, in order. -/
def ofValue (value : HeaderValue) :
    List (Option (String × String)) :=
  readAll (Text.decodeLenient value.bytes)

/- A cookie that does not look like several. -/
structure IsPlain (cookie : String × String) : Prop where
  noEquals : '=' ∉ cookie.1.toList
  nameApart : ¬separator <:+: cookie.1.toList
  valueApart : ¬separator <:+: cookie.2.toList

theorem isPlain_iff (cookie : String × String) :
    IsPlain cookie ↔
      '=' ∉ cookie.1.toList ∧
        Text.splitOnce separator cookie.1.toList = none ∧
        Text.splitOnce separator cookie.2.toList = none := by
  have hSome : separator ≠ [] := List.cons_ne_nil _ _
  rw [Text.splitOnce_eq_none_iff hSome,
    Text.splitOnce_eq_none_iff hSome]
  constructor
  · rintro ⟨hEquals, hName, hValue⟩
    exact ⟨hEquals, hName, hValue⟩
  · rintro ⟨hEquals, hName, hValue⟩
    exact ⟨hEquals, hName, hValue⟩

/- Searching for the separator decides it. -/
instance (cookie : String × String) :
    Decidable (IsPlain cookie) :=
  decidable_of_iff _ (isPlain_iff cookie).symm

------------------------------------------------------------
-- Pieces
------------------------------------------------------------

theorem pieces_ne_nil (text : List Char) :
    pieces text ≠ [] := by
  fun_induction pieces text with
  | case1 => exact List.cons_ne_nil _ _
  | case2 rest ih => exact List.cons_ne_nil _ _
  | case3 c rest hOther ih =>
      rw [ne_eq, List.modifyHead_eq_nil_iff]
      exact ih

/- A separator ends a piece, whatever stands before it. -/
theorem pieces_append (front rest : List Char) :
    pieces (front ++ separator ++ rest) =
      pieces front ++ pieces rest := by
  rw [List.append_assoc]
  fun_induction pieces front with
  | case1 => rfl
  | case2 more ih =>
      change [] :: pieces (more ++ (separator ++ rest)) = _
      rw [ih]
      rfl
  | case3 c more hOther ih =>
      -- A separator that starts at `c` would lie in front.
      have hStart : ∀ later, c = ';' →
          more ++ (separator ++ rest) = ' ' :: later →
          False := by
        intro later hc hMore
        cases more with
        | nil => cases hMore
        | cons d others =>
            cases hMore
            exact hOther others hc rfl
      rw [List.cons_append, pieces.eq_3 _ _ hStart, ih]
      cases hPieces : pieces more with
      | nil => exact absurd hPieces (pieces_ne_nil more)
      | cons first others => rfl

/- A text with a separator has several pieces. -/
theorem not_infix_of_pieces
    {text piece : List Char}
    (h : pieces text = [piece]) :
    ¬separator <:+: text := by
  rintro ⟨front, rest, hText⟩
  rw [← hText, pieces_append] at h
  have hLength := congrArg List.length h
  have hFront :=
    List.length_pos_iff.mpr (pieces_ne_nil front)
  have hRest := List.length_pos_iff.mpr (pieces_ne_nil rest)
  rw [List.length_append, List.length_singleton] at hLength
  omega

/- A text without a separator is one piece. -/
theorem pieces_of_apart
    {text : List Char}
    (h : ¬separator <:+: text) :
    pieces text = [text] := by
  fun_induction pieces text with
  | case1 => rfl
  | case2 rest ih => exact absurd ⟨[], rest, rfl⟩ h
  | case3 c rest hOther ih =>
      rw [ih fun hRest =>
        h (List.infix_cons_iff.mpr (.inr hRest))]
      rfl

/- The pieces of joined texts are those of each of them. -/
theorem pieces_join
    {texts : List String}
    (hSome : texts ≠ []) :
    pieces (Text.join "; " texts).toList =
      texts.flatMap fun text => pieces text.toList := by
  fun_induction Text.join "; " texts with
  | case1 => exact absurd rfl hSome
  | case2 text => simp
  | case3 text rest hMore ih =>
      rw [String.toList_append, String.toList_append,
        List.flatMap_cons, ← ih hMore]
      exact pieces_append text.toList _

------------------------------------------------------------
-- Single Cookies
------------------------------------------------------------

/- A cookie as it is written. -/
def write (cookie : String × String) : String :=
  cookie.1 ++ "=" ++ cookie.2

theorem toList_write (cookie : String × String) :
    (write cookie).toList =
      cookie.1.toList ++ '=' :: cookie.2.toList := by
  unfold write
  rw [String.toList_append, String.toList_append,
    List.append_assoc]
  rfl

/- A cookie is read up to the first equals sign. -/
theorem read?_write_iff (cookie : String × String) :
    read? (write cookie).toList = some cookie ↔
      '=' ∉ cookie.1.toList := by
  rw [← Text.splitOnce_cons_iff '=' cookie.1.toList
    cookie.2.toList, toList_write]
  unfold read?
  constructor
  · intro hRead
    rcases Option.map_eq_some_iff.mp hRead with
      ⟨parts, hSplit, hCookie⟩
    rw [hSplit, ← hCookie, String.toList_ofList,
      String.toList_ofList]
  · intro hSplit
    rw [hSplit]
    exact congrArg some (Prod.ext String.ofList_toList
      String.ofList_toList)

/- A separator in a cookie is in its name or its value. -/
theorem infix_write_iff (cookie : String × String) :
    separator <:+: (write cookie).toList ↔
      separator <:+: cookie.1.toList ∨
        separator <:+: cookie.2.toList := by
  have hEquals : '=' ∉ separator := by decide
  rw [toList_write]
  exact Text.infix_append_cons_iff hEquals
    (List.cons_ne_nil _ _) _ _

/- A plain cookie is all that is read of it. -/
theorem readAll_write_iff (cookie : String × String) :
    readAll (write cookie) = [some cookie] ↔
      IsPlain cookie := by
  constructor
  · intro hRead
    rcases List.map_eq_singleton_iff.mp hRead with
      ⟨piece, hPiece, hCookie⟩
    have hApart := not_infix_of_pieces hPiece
    rw [pieces_of_apart hApart] at hPiece
    cases hPiece
    rw [infix_write_iff, not_or] at hApart
    exact ⟨(read?_write_iff cookie).mp hCookie, hApart.1,
      hApart.2⟩
  · intro hPlain
    have hApart : ¬separator <:+: (write cookie).toList := by
      rw [infix_write_iff, not_or]
      exact ⟨hPlain.nameApart, hPlain.valueApart⟩
    unfold readAll
    rw [pieces_of_apart hApart, List.map_singleton,
      (read?_write_iff cookie).mpr hPlain.noEquals]

theorem readAll_ne_nil (text : String) :
    readAll text ≠ [] := by
  unfold readAll
  rw [ne_eq, List.map_eq_nil_iff]
  exact pieces_ne_nil _

------------------------------------------------------------
-- All Cookies of a Request
------------------------------------------------------------

/-
  Where every element gives something, one result for each
  element leaves each with its own.
-/
theorem flatMap_eq_map_iff
    {α β : Type}
    {f : α → List β}
    {g : α → β}
    (hSome : ∀ x, f x ≠ [])
    (xs : List α) :
    xs.flatMap f = xs.map g ↔ ∀ x ∈ xs, f x = [g x] := by
  have hLength (ys : List α) :
      ys.length ≤ (ys.flatMap f).length := by
    induction ys with
    | nil => exact Nat.zero_le 0
    | cons y rest ih =>
        have hFirst := List.length_pos_iff.mpr (hSome y)
        rw [List.flatMap_cons, List.length_append,
          List.length_cons]
        omega
  induction xs with
  | nil => simp
  | cons x rest ih =>
      rw [List.flatMap_cons, List.map_cons,
        List.forall_mem_cons]
      constructor
      · intro hSame
        have hTotal := congrArg List.length hSame
        have hFirst := List.length_pos_iff.mpr (hSome x)
        have hRest := hLength rest
        rw [List.length_append, List.length_cons,
          List.length_map] at hTotal
        have hOne : (f x).length = [g x].length := by
          rw [List.length_singleton]
          omega
        rcases List.append_inj hSame hOne with
          ⟨hOwn, hOthers⟩
        exact ⟨hOwn, ih.mp hOthers⟩
      · rintro ⟨hOwn, hOthers⟩
        rw [hOwn, ih.mpr hOthers, List.singleton_append]

theorem readAll_cookieText
    {cookies : List (String × String)}
    (hSome : cookies ≠ []) :
    readAll (Client.cookieText cookies) =
      cookies.flatMap fun cookie =>
        readAll (write cookie) := by
  have hText :
      Client.cookieText cookies =
        Text.join "; " (cookies.map write) :=
    rfl
  unfold readAll
  rw [hText, pieces_join (by simpa using hSome),
    List.flatMap_map, List.map_flatMap]

/- Cookies are read back when each of them is plain. -/
theorem readAll_cookieText_iff
    {cookies : List (String × String)}
    (hSome : cookies ≠ []) :
    readAll (Client.cookieText cookies) =
        cookies.map some ↔
      ∀ cookie ∈ cookies, IsPlain cookie := by
  rw [readAll_cookieText hSome,
    flatMap_eq_map_iff fun cookie => readAll_ne_nil _]
  simp only [readAll_write_iff]

end Cookies

------------------------------------------------------------
-- Hooks
------------------------------------------------------------

/- A hook that leaves the values of a header as they are. -/
def Interceptor.Keeps
    (header : HeaderName)
    (interceptor : Interceptor) : Prop :=
  ∀ context request changed,
    interceptor.beforeSend context request = .ok changed →
      changed.headers.values header =
        request.headers.values header

/- What all hooks leave as it is stays to the end. -/
theorem Interceptor.values_hooked
    {header : HeaderName}
    {interceptors : List Interceptor}
    (hKeep : ∀ interceptor ∈ interceptors,
      interceptor.Keeps header)
    {context : RequestContext}
    {request prepared : Request}
    (h : hooked context interceptors request =
      .ok prepared) :
    prepared.headers.values header =
      request.headers.values header := by
  induction interceptors generalizing request with
  | nil =>
      cases h
      rfl
  | cons interceptor rest ih =>
      rcases Fallible.bind_eq_ok h with
        ⟨changed, hChanged, hRest⟩
      rw [ih (fun hook hMem =>
          hKeep hook (List.mem_cons_of_mem _ hMem)) hRest]
      exact hKeep interceptor List.mem_cons_self context
        request changed (Fallible.mapError_eq_ok hChanged)

------------------------------------------------------------
-- Cookies of a Client
------------------------------------------------------------

namespace Client

/- All cookies are in one value, and none are in none. -/
theorem cookie_values_of_add
    {cookies : List (String × String)}
    {headers result : Headers}
    (h : addCookies cookies headers = .ok result)
    (hNone : headers.values .cookie = []) :
    result.values .cookie =
      if cookies = [] then []
      else [⟨Text.encode (cookieText cookies)⟩] := by
  unfold addCookies at h
  split at h
  · next hEmpty =>
      cases h
      rw [hNone, if_pos (List.isEmpty_iff.mp hEmpty)]
  · next hSome =>
      rw [List.isEmpty_iff] at hSome
      rcases Fallible.map_eq_ok h with ⟨value, hValue, rfl⟩
      rw [Headers.values_append, hNone, if_pos rfl,
        if_neg hSome, HeaderValue.eq_of_read hValue]
      rfl

/- The cookie values of an encoded request. -/
theorem cookie_values_of_encoded
    [DomainNames]
    [KnownMedia]
    {client : Client}
    {values : RequestValues}
    {request : Request}
    (h : client.encoded values = .ok request)
    (hDefaults : client.defaultHeaders.values .cookie = [])
    (hOwn : values.headers.values .cookie = []) :
    request.headers.values .cookie =
      let cookies :=
        mergeCookies client.defaultCookies values.cookies
      if cookies = [] then []
      else [⟨Text.encode (cookieText cookies)⟩] := by
  rcases steps_of_encoded h with ⟨headers, hCookies, hBody⟩
  have hMerged :
      (mergeHeaders client.defaultHeaders
        values.headers).values .cookie = [] := by
    rw [values_mergeHeaders, hOwn, hDefaults]
    rfl
  have hKept := values_assembleBody hBody
    (show HeaderName.cookie ≠ .contentType by decide)
  rw [hKept, cookie_values_of_add hCookies hMerged]

/- A default cookie is left out for one of its name. -/
theorem mergeCookies_eq
    (defaults requested : List (String × String)) :
    mergeCookies defaults requested =
      defaults.filter (fun cookie =>
        ∀ own ∈ requested, own.1 ≠ cookie.1) ++
          requested := by
  unfold mergeCookies
  congr 1
  apply List.filter_congr
  intro cookie _
  rw [Bool.eq_iff_iff]
  simp

theorem mergeCookies_eq_nil_iff
    (defaults requested : List (String × String)) :
    mergeCookies defaults requested = [] ↔
      defaults = [] ∧ requested = [] := by
  unfold mergeCookies
  rw [List.append_eq_nil_iff]
  constructor
  · rintro ⟨hDefaults, rfl⟩
    rw [List.filter_eq_nil_iff] at hDefaults
    refine ⟨List.eq_nil_iff_forall_not_mem.mpr ?_, rfl⟩
    exact fun cookie hMem => hDefaults cookie hMem rfl
  · rintro ⟨rfl, rfl⟩
    exact ⟨rfl, rfl⟩

/-
  A request carries all its cookies in one header, or no
  such header when there are none: the defaults whose names
  it does not use, then its own.  Names and values are
  written as they are, so they are read back from the header
  exactly when each cookie is plain.
-/
theorem cookies_of_execution
    [DomainNames]
    [KnownMedia]
    (client : Client)
    (values : RequestValues)
    (hDefaults : client.defaultHeaders.values .cookie = [])
    (hOwn : values.headers.values .cookie = [])
    (hHooks : ∀ interceptor ∈ client.interceptors,
      interceptor.Keeps .cookie)
    (network : Network)
    (transport : Transport)
    (request : Request)
    (hSent : (transport, request) ∈
      (client.send values network).executions) :
    let cookies :=
      client.defaultCookies.filter (fun cookie =>
        ∀ own ∈ values.cookies, own.1 ≠ cookie.1) ++
          values.cookies
    let text := Text.join "; " (cookies.map
      fun (name, value) => name ++ "=" ++ value)
    let sent := request.headers.values .cookie
    (sent = [] ↔
        client.defaultCookies = [] ∧ values.cookies = []) ∧
      (sent ≠ [] → sent = [⟨Text.encode text⟩]) ∧
      ∀ value ∈ sent,
        Cookies.ofValue value = cookies.map some ↔
          ∀ cookie ∈ cookies, Cookies.IsPlain cookie := by
  intro cookies text sent
  have hPrepared : client.prepared values = .ok request :=
    (client.send_dispatches values).eq_ok_of_sent hSent
  rcases Fallible.bind_eq_ok hPrepared with
    ⟨encoded, hEncoded, hHooked⟩
  have hCookies :
      mergeCookies client.defaultCookies values.cookies =
        cookies :=
    mergeCookies_eq _ _
  have hValues :
      sent =
        if cookies = [] then []
        else [⟨Text.encode text⟩] := by
    change sent =
      if cookies = [] then []
        else [⟨Text.encode (cookieText cookies)⟩]
    rw [← hCookies]
    exact (Interceptor.values_hooked hHooks hHooked).trans
      (cookie_values_of_encoded hEncoded hDefaults hOwn)
  have hEmpty :
      cookies = [] ↔
        client.defaultCookies = [] ∧
          values.cookies = [] := by
    rw [← hCookies]
    exact mergeCookies_eq_nil_iff _ _
  rw [hValues, ← hEmpty]
  by_cases hNone : cookies = []
  · simp [hNone]
  · rw [if_neg hNone]
    refine ⟨by simp [hNone], fun _ => rfl, ?_⟩
    intro value hValue
    rw [List.mem_singleton.mp hValue]
    unfold Cookies.ofValue
    rw [Text.decodeLenient_encode]
    exact Cookies.readAll_cookieText_iff hNone

------------------------------------------------------------
-- A Cookie That Looks Like Two
------------------------------------------------------------

open PlainNames CommonMedia

/- A client with cookies of its own, which writes records. -/
def rememberingClient : Client where
  base? := none
  defaultHeaders := .empty
  defaultCookies := [("session", "s"), ("lang", "en")]
  interceptors := [.logging]
  transport := .given

/- A request for the items with some cookies. -/
def itemsWith (cookies : List (String × String)) :
    RequestValues where
  method := .get
  target := some (.absolute ProxyFunction.remoteTarget)
  «variables» := []
  headers := .empty
  cookies := cookies
  attributes := []
  body := .empty

/- The same request when it is encoded. -/
def encodedItems (text : String) : Request where
  method := .get
  url := ProxyFunction.remoteTarget
  headers := ⟨[(.cookie, ⟨Text.encode text⟩)]⟩
  body := none

theorem logging_keeps (header : HeaderName) :
    Interceptor.logging.Keeps header := by
  intro context request changed hChanged
  cases hChanged
  rfl

theorem hooks_of_remembering :
    ∀ interceptor ∈ rememberingClient.interceptors,
      interceptor.Keeps .cookie := by
  intro interceptor hMem
  rw [List.mem_singleton.mp hMem]
  exact logging_keeps .cookie

/- A language of the request replaces that of the client. -/
theorem cookies_of_remembering :
    ∃ request,
      (rememberingClient.send (itemsWith [("lang", "de")])
          (fun _ _ => .ok ⟨200, .empty, []⟩)).executions =
        [(.given, request)] ∧
      request.headers.values .cookie =
        [⟨Text.encode "session=s; lang=de"⟩] ∧
      ∀ value ∈ request.headers.values .cookie,
        Cookies.ofValue value =
          [some ("session", "s"), some ("lang", "de")] := by
  refine ⟨encodedItems "session=s; lang=de", rfl, ?_⟩
  obtain ⟨_, hText, hRead⟩ :=
    cookies_of_execution rememberingClient
      (itemsWith [("lang", "de")]) rfl rfl
      hooks_of_remembering
      (fun _ _ => .ok ⟨200, .empty, []⟩) .given
      (encodedItems "session=s; lang=de")
      (List.mem_singleton.mpr rfl)
  have hPlain : ∀ cookie ∈ [("session", "s"), ("lang", "de")],
      Cookies.IsPlain cookie := by decide
  exact ⟨hText (List.cons_ne_nil _ _),
    fun value hMem => (hRead value hMem).mpr hPlain⟩

/- The value of one cookie can bring in another one. -/
theorem cookies_not_always_read_back :
    ¬∀ (client : Client)
        (values : RequestValues)
        (network : Network)
        (transport : Transport)
        (request : Request),
      client.defaultHeaders.values .cookie = [] →
      values.headers.values .cookie = [] →
      (∀ interceptor ∈ client.interceptors,
        interceptor.Keeps .cookie) →
      (transport, request) ∈
        (client.send values network).executions →
      ∀ value ∈ request.headers.values .cookie,
        Cookies.ofValue value =
          (client.defaultCookies.filter (fun cookie =>
            ∀ own ∈ values.cookies, own.1 ≠ cookie.1) ++
              values.cookies).map some := by
  intro hAll
  have hSame := hAll rememberingClient
    (itemsWith [("lang", "de; admin=1")])
    (fun _ _ => .ok ⟨200, .empty, []⟩) .given
    (encodedItems "session=s; lang=de; admin=1") rfl rfl
    hooks_of_remembering (List.mem_singleton.mpr rfl)
    ⟨Text.encode "session=s; lang=de; admin=1"⟩
    List.mem_cons_self
  unfold Cookies.ofValue at hSame
  rw [Text.decodeLenient_encode] at hSame
  exact absurd hSame (by decide)

end Client

end ServiceCalls
