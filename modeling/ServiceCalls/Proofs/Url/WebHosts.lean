import ServiceCalls.Proofs.Url.Continuation
import ServiceCalls.Proofs.Url.HostTexts
import ServiceCalls.Proofs.Url.Tails

/-
  Texts that name a host of the web.

  A text that starts with the scheme http or https and two
  slashes is a URL exactly if it has an authority: user
  information up to its last at sign, a host that is
  accepted, and a port of at most 16 bits.

  Key definitions include:
    * `Url.IsWeb`
    * `Url.IsPort`
    * `Url.WebAuthority`
    * `Url.NamesHost`

  Main declarations:
    * `Url.parseAuthority_ok_iff`
    * `Url.hasHost_of_isWeb`
    * `Url.parseChars_ok_iff_namesHost`
-/

namespace ServiceCalls

namespace Url

------------------------------------------------------------
-- Ports
------------------------------------------------------------

/- Nothing, or a colon and the digits of 16 bits. -/
def IsPort (text : List Char) : Prop :=
  text = [] ∨
    ∃ digits,
      text = ':' :: digits ∧
      (∀ d ∈ digits, d.isDigit = true) ∧
      Nat.ofDigitChars 10 digits 0 ≤ maxPort

/- More digits never make a number smaller. -/
theorem le_ofDigitChars (digits : List Char) (n : Nat) :
    n ≤ Nat.ofDigitChars 10 digits n := by
  induction digits generalizing n with
  | nil => simp
  | cons d rest ih =>
      have hRest := ih (10 * n + (d.toNat - '0'.toNat))
      rw [Nat.ofDigitChars_cons]
      omega

theorem parsePort_ok_iff
    {digits : List Char}
    (hInside : Inside true digits)
    {sofar : Option Nat}
    (hSofar : sofar.getD 0 ≤ maxPort) :
    (∃ found, parsePort sofar digits = .ok found) ↔
      (∀ d ∈ digits, d.isDigit = true) ∧
        Nat.ofDigitChars 10 digits (sofar.getD 0) ≤
          maxPort := by
  induction digits generalizing sofar with
  | nil => simpa [parsePort] using hSofar
  | cons d rest ih =>
      have hRest : Inside true rest :=
        fun c hMem => hInside c (List.mem_cons_of_mem _ hMem)
      have hNumber :
          sofar.getD 0 * 10 + (d.toNat - 48) =
            10 * sofar.getD 0 + (d.toNat - '0'.toNat) := by
        rw [Nat.mul_comm]
        rfl
      rw [List.forall_mem_cons, Nat.ofDigitChars_cons,
        ← hNumber]
      unfold parsePort
      by_cases hDigit : d.isDigit = true
      · rw [if_pos hDigit]
        dsimp only
        split
        · next hLarge =>
            have hLe := le_ofDigitChars rest
              (sofar.getD 0 * 10 + (d.toNat - 48))
            constructor
            · rintro ⟨found, hFound⟩
              cases hFound
            · intro hSmall
              omega
        · next hSmall =>
            have hGrown :
                (some (sofar.getD 0 * 10 +
                  (d.toNat - 48))).getD 0 ≤ maxPort :=
              Nat.not_lt.mp hSmall
            rw [ih hRest hGrown]
            simp [hDigit]
      · have hNoEnd :
            "/\\?#".toList.contains d = false := by
          have hEnds := hInside d List.mem_cons_self
          simp only [endsAuthority, Bool.true_and,
            Bool.or_eq_false_iff, beq_eq_false_iff_ne]
            at hEnds
          simp [hEnds]
        rw [if_neg hDigit, hNoEnd,
          if_neg Bool.false_ne_true]
        constructor
        · rintro ⟨found, hFound⟩
          cases hFound
        · rintro ⟨⟨hSome, _⟩, _⟩
          exact absurd hSome hDigit

theorem portOf_ok_iff
    {text : List Char}
    (hInside : Inside true text)
    (hHead : ∀ c, text.head? = some c → c = ':') :
    (∃ found, portOf text = .ok found) ↔ IsPort text := by
  cases text with
  | nil => simp [portOf, IsPort]
  | cons c digits =>
      have hColon := hHead c rfl
      subst hColon
      have hDigits : Inside true digits :=
        fun d hMem => hInside d (List.mem_cons_of_mem _ hMem)
      have hZero : (none : Option Nat).getD 0 ≤ maxPort :=
        Nat.zero_le _
      have hPort := parsePort_ok_iff hDigits hZero
      simpa [portOf, IsPort] using hPort

------------------------------------------------------------
-- User Information
------------------------------------------------------------

/- A text up to its last at sign, and what follows it. -/
theorem exists_user (text : List Char) :
    ∃ user rest,
      text = user ++ rest ∧
      (user = [] ∨ user.getLast? = some '@') ∧
      '@' ∉ rest := by
  rcases Text.exists_dropWhileEnd (p := (· != '@')) text
    with ⟨rest, hSplit, hRest⟩
  refine ⟨_, rest, hSplit, ?_, ?_⟩
  · cases hLast :
        (Text.dropWhileEnd (· != '@') text).getLast? with
    | none => exact .inl (List.getLast?_eq_none_iff.mp hLast)
    | some c =>
        have hAt := Text.getLast?_dropWhileEnd hLast
        rw [bne_eq_false_iff_eq.mp hAt]
        exact .inr rfl
  · intro hMem
    exact absurd (hRest '@' hMem) (by decide)

theorem splitLast_concat (c : Char) (text : List Char) :
    Text.splitLast [c] (text ++ [c]) = some (text, []) := by
  simp [Text.splitLast, Text.splitOnce]

/- User information goes up to the last at sign. -/
theorem exists_splitUser
    {user rest : List Char}
    (hInside : Inside true (user ++ rest))
    (hUser : user = [] ∨ user.getLast? = some '@')
    (hRest : '@' ∉ rest) :
    ∃ named,
      splitUser true (user ++ rest) = .ok (named, rest) := by
  have hTake := hInside.takeWhile Text.stops_nil
  rw [List.append_nil] at hTake
  have hSplit := Text.splitLast_append hRest user
  unfold splitUser
  dsimp only
  rw [hTake, hSplit]
  rcases hUser with hNone | hLast
  · rw [hNone]
    exact ⟨_, rfl⟩
  · rcases List.getLast?_eq_some_iff.mp hLast with
      ⟨name, hName⟩
    subst hName
    rw [splitLast_concat]
    cases name with
    | nil =>
        cases rest with
        | nil => exact ⟨_, rfl⟩
        | cons c more =>
            have hEnds := hInside c (by simp)
            simp [hEnds]
    | cons c more => simp

------------------------------------------------------------
-- Authorities
------------------------------------------------------------

/-
  User information up to the last at sign of an authority,
  a host and a port.
-/
structure WebAuthority
    [DomainNames]
    (user host port : List Char) : Prop
    where
  user : user = [] ∨ user.getLast? = some '@'
  noUser : '@' ∉ host ++ port
  host : ∃ found, Host.parseSpecial host = .ok found
  port : IsPort port

/- A text that is made of such parts. -/
def IsAuthority
    [DomainNames]
    (text : List Char) : Prop :=
  ∃ user host port,
    text = user ++ (host ++ port) ∧
      WebAuthority user host port

theorem IsPort.head?
    {text : List Char}
    (h : IsPort text)
    (c : Char)
    (hHead : text.head? = some c) :
    c = ':' := by
  rcases h with hNone | ⟨digits, hText, _⟩
  · rw [hNone] at hHead
    cases hHead
  · rw [hText] at hHead
    exact (Option.some.inj hHead).symm

/- What follows the host of an authority starts a port. -/
theorem head?_drop_host
    {text : List Char}
    (hInside : Inside true text)
    (c : Char)
    (hHead :
      (text.drop (hostLength true false text)).head? =
        some c) :
    c = ':' := by
  have hLe := hostLength_le true false text
  rcases Nat.lt_or_eq_of_le hLe with hLess | hSame
  · rw [head?_drop_hostLength hInside hLess] at hHead
    exact (Option.some.inj hHead).symm
  · rw [hSame, List.drop_length] at hHead
    cases hHead

/- The host that is read from a special authority. -/
theorem readHost_eq_ok_iff
    [DomainNames]
    {scheme : String}
    (hSpecial : isSpecial scheme = true)
    {text : List Char}
    (hInside : Inside true text)
    (found : Host)
    (left : List Char) :
    readHost scheme text = .ok (found, left) ↔
      ∃ host,
        text = host ++ left ∧
        Host.parseSpecial host = .ok found ∧
        ∀ c, left.head? = some c → c = ':' := by
  constructor
  · intro h
    rcases of_readHost h with ⟨hHost, hLeft⟩
    rw [hSpecial] at hHost hLeft
    unfold hostOf at hHost
    rw [hSpecial, if_pos rfl] at hHost
    refine ⟨text.take (hostLength true false text),
      ?_, ?_, ?_⟩
    · rw [hLeft, List.take_append_drop]
    · split at hHost
      · cases hHost
      · exact hHost
    · rw [hLeft]
      exact head?_drop_host hInside
  · rintro ⟨host, hText, hHost, hLeft⟩
    have hWithin : Inside true host := by
      intro c hMem
      apply hInside
      rw [hText]
      exact List.mem_append_left _ hMem
    have hLength :=
      Host.hostLength_of_parseSpecial hWithin hHost hLeft
    have hSome : host.isEmpty = false := by
      cases host with
      | nil =>
          rw [Host.parseSpecial_nil] at hHost
          cases hHost
      | cons c more => rfl
    have hFound := Host.parseSpecial_ne_empty hHost
    unfold readHost hostOf
    dsimp only
    rw [hSpecial, hText, hLength, List.take_left,
      List.drop_left, hSome, hHost]
    simp [bind, Except.bind, hFound]

theorem readPort_ok_iff
    (scheme : String)
    {host : Host}
    (hHost : host ≠ .empty)
    (user : String × Option String)
    (text : List Char) :
    (∃ parts, readPort scheme user host text = .ok parts) ↔
      ∃ found, portOf text = .ok found := by
  have hNamed : (host == .empty) = false :=
    beq_false_of_ne hHost
  unfold readPort
  cases portOf text with
  | error error => simp [bind, Except.bind]
  | ok found => simp [bind, Except.bind, hNamed]

section

variable [DomainNames]

/- An authority is read if it has these parts. -/
theorem parseAuthority_ok_iff
    {scheme : String}
    (hSpecial : isSpecial scheme = true)
    {text : List Char}
    (hInside : Inside true text) :
    (∃ parts, parseAuthority scheme text = .ok parts) ↔
      IsAuthority text := by
  have hRead
      {user rest : List Char}
      (hText : text = user ++ rest)
      (hUser : user = [] ∨ user.getLast? = some '@')
      (hRest : '@' ∉ rest) :
      (∃ parts, parseAuthority scheme text = .ok parts) ↔
        ∃ host port found,
          rest = host ++ port ∧
          Host.parseSpecial host = .ok found ∧
          IsPort port := by
    have hRestInside : Inside true rest := by
      intro c hMem
      apply hInside
      rw [hText]
      exact List.mem_append_right _ hMem
    have hPorts
        {host port : List Char}
        (hSplit : rest = host ++ port) :
        Inside true port := by
      intro c hMem
      apply hRestInside
      rw [hSplit]
      exact List.mem_append_right _ hMem
    rcases exists_splitUser (hText ▸ hInside) hUser hRest
      with ⟨named, hNamed⟩
    have hEq :
        parseAuthority scheme text =
          readHost scheme rest >>= fun parts =>
            readPort scheme named parts.1 parts.2 := by
      rw [parseAuthority_eq, hSpecial, hText, hNamed]
      rfl
    rw [hEq]
    constructor
    · rintro ⟨parts, hParts⟩
      rcases Fallible.bind_eq_ok hParts with
        ⟨⟨found, port⟩, hHost, hPort⟩
      rcases (readHost_eq_ok_iff hSpecial hRestInside found
        port).mp hHost with
        ⟨host, hSplit, hFound, hHead⟩
      have hSome := Host.parseSpecial_ne_empty hFound
      refine ⟨host, port, found, hSplit, hFound, ?_⟩
      rw [← portOf_ok_iff (hPorts hSplit) hHead,
        ← readPort_ok_iff scheme hSome named]
      exact ⟨parts, hPort⟩
    · rintro ⟨host, port, found, hSplit, hHost, hPort⟩
      have hSome := Host.parseSpecial_ne_empty hHost
      have hRead := (readHost_eq_ok_iff hSpecial hRestInside
        found port).mpr ⟨host, hSplit, hHost, hPort.head?⟩
      rw [hRead]
      change ∃ parts,
        readPort scheme named found port = .ok parts
      rw [readPort_ok_iff scheme hSome,
        portOf_ok_iff (hPorts hSplit) hPort.head?]
      exact hPort
  rcases exists_user text with
    ⟨user, rest, hText, hUser, hRest⟩
  constructor
  · intro hParts
    rcases (hRead hText hUser hRest).mp hParts with
      ⟨host, port, found, hSplit, hHost, hPort⟩
    subst hSplit
    exact ⟨user, host, port, hText, hUser, hRest,
      ⟨found, hHost⟩, hPort⟩
  · rintro ⟨user, host, port, hText, hParts⟩
    rcases hParts.host with ⟨found, hHost⟩
    exact (hRead hText hParts.user hParts.noUser).mpr
      ⟨host, port, found, rfl, hHost, hParts.port⟩

/- An authority of a special scheme has a host. -/
theorem host_ne_empty_of_parseAuthority
    {scheme : String}
    (hSpecial : isSpecial scheme = true)
    {text left : List Char}
    {authority : Authority}
    (h :
      parseAuthority scheme text = .ok (authority, left)) :
    authority.host ≠ .empty := by
  rw [parseAuthority_eq] at h
  rcases Fallible.bind_eq_ok h with
    ⟨⟨user, named⟩, _, hRead⟩
  rcases Fallible.bind_eq_ok hRead with
    ⟨⟨host, more⟩, hHost, hPort⟩
  rcases of_readPort hPort with ⟨port, _, hAuthority⟩
  have hOf := (of_readHost hHost).1
  unfold hostOf at hOf
  rw [hSpecial, if_pos rfl] at hOf
  split at hOf
  · cases hOf
  · rw [hAuthority]
    exact Host.parseSpecial_ne_empty hOf

------------------------------------------------------------
-- Texts of the Web
------------------------------------------------------------

/- A text that starts with a scheme of the web. -/
def IsWeb (text : List Char) : Prop :=
  "http://".toList <+: text ∨ "https://".toList <+: text

/- The schemes of the web. -/
def IsWebScheme (scheme : String) : Prop :=
  scheme = "http" ∨ scheme = "https"

/-
  A text of the web whose authority has a host.  It is taken
  without the blanks that are dropped.
-/
def NamesHost (text : List Char) : Prop :=
  ∃ scheme slashes authority rest,
    IsWebScheme scheme ∧
    clean text =
      scheme.toList ++
        ':' :: (slashes ++ (authority ++ rest)) ∧
    (∀ c ∈ slashes, isSlash true c = true) ∧
    Inside true authority ∧
    Ends true rest ∧
    IsAuthority authority

end

theorem IsWebScheme.special
    {scheme : String}
    (h : IsWebScheme scheme) :
    (scheme == "file") = false ∧
      isSpecial scheme = true := by
  rcases h with hHttp | hHttps
  · subst hHttp
    decide
  · subst hHttps
    decide

theorem IsWebScheme.splitScheme
    {scheme : String}
    (h : IsWebScheme scheme)
    (after : List Char) :
    Url.splitScheme (scheme.toList ++ ':' :: after) =
      some (scheme, after) := by
  rcases h with hHttp | hHttps
  · subst hHttp
    have hName :
        ∀ c ∈ 'h' :: "ttp".toList, isSchemeChar c = true :=
      List.all_eq_true.mp (by decide)
    exact splitScheme_append (by decide) hName after
  · subst hHttps
    have hName :
        ∀ c ∈ 'h' :: "ttps".toList, isSchemeChar c = true :=
      List.all_eq_true.mp (by decide)
    exact splitScheme_append (by decide) hName after

/- Cleaning keeps the scheme of the web. -/
theorem IsWeb.exists_clean
    {text : List Char}
    (h : IsWeb text) :
    ∃ scheme after,
      IsWebScheme scheme ∧
      clean text = scheme.toList ++ ':' :: after := by
  have hFirst :
      "http:/".toList.dropWhile isOuterBlank ≠ [] := by
    decide
  have hSecond :
      "https:/".toList.dropWhile isOuterBlank ≠ [] := by
    decide
  rcases h with ⟨rest, hText⟩ | ⟨rest, hText⟩
  · rcases clean_append_mark hFirst (.inl rfl) rest with
      ⟨more, hMore⟩
    refine ⟨"http", '/' :: '/' :: more, .inl rfl, ?_⟩
    rw [← hText]
    exact hMore
  · rcases clean_append_mark hSecond (.inl rfl) rest with
      ⟨more, hMore⟩
    refine ⟨"https", '/' :: '/' :: more, .inr rfl, ?_⟩
    rw [← hText]
    exact hMore

variable [DomainNames]

/- How the URL of a text of the web is read. -/
theorem IsWeb.exists_authority
    {text : List Char}
    (h : IsWeb text)
    {url : Url}
    (hUrl : parseChars text = .ok url) :
    ∃ scheme after authority left,
      IsWebScheme scheme ∧
      clean text = scheme.toList ++ ':' :: after ∧
      parseAuthority scheme
          (after.dropWhile (isSlash true)) =
        .ok (authority, left) ∧
      url = finishAfter scheme authority left := by
  rcases h.exists_clean with
    ⟨scheme, after, hScheme, hClean⟩
  rcases hScheme.special with ⟨hFile, hSpecial⟩
  unfold parseChars at hUrl
  rw [hClean, hScheme.splitScheme] at hUrl
  dsimp only at hUrl
  rw [parseAfterScheme_special hFile hSpecial] at hUrl
  rcases Fallible.map_eq_ok hUrl with
    ⟨⟨authority, left⟩, hRead, hFinish⟩
  exact ⟨scheme, after, authority, left, hScheme, hClean,
    hRead, hFinish.symm⟩

/- What is read of a text of the web has a host. -/
theorem hasHost_of_isWeb
    {text : List Char}
    (h : IsWeb text)
    {url : Url}
    (hUrl : parseChars text = .ok url) :
    url.hasHost = true := by
  rcases h.exists_authority hUrl with
    ⟨scheme, after, authority, left, hScheme, _, hRead,
      hFinish⟩
  have hSome := host_ne_empty_of_parseAuthority
    hScheme.special.2 hRead
  unfold hasHost
  rw [hFinish, host?_finishAfter, if_neg hSome]
  rfl

/- A text of the web is a URL if it names a host. -/
theorem parseChars_ok_iff_namesHost
    {text : List Char}
    (h : IsWeb text) :
    (∃ url, parseChars text = .ok url) ↔
      NamesHost text := by
  constructor
  · rintro ⟨url, hUrl⟩
    rcases h.exists_authority hUrl with
      ⟨scheme, after, found, left, hScheme, hClean, hRead,
        _⟩
    have hSpecial := hScheme.special.2
    have hSome :=
      host_ne_empty_of_parseAuthority hSpecial hRead
    rcases exists_text hRead hSome with
      ⟨authority, rest, more, hAfter, hInside, _, _, hRest,
        hAuthority, _⟩
    rw [hSpecial] at hInside hRest
    refine ⟨scheme, after.takeWhile (isSlash true),
      authority, rest, hScheme, ?_, ?_, hInside, hRest, ?_⟩
    · rw [← hAfter, List.takeWhile_append_dropWhile]
      exact hClean
    · exact List.all_eq_true.mp List.all_takeWhile
    · rw [← parseAuthority_ok_iff hSpecial hInside]
      exact ⟨_, hAuthority⟩
  · rintro ⟨scheme, slashes, authority, rest, hScheme,
      hClean, hSlashes, hInside, hRest, hAuthority⟩
    rcases hScheme.special with ⟨hFile, hSpecial⟩
    rcases (parseAuthority_ok_iff hSpecial hInside).mpr
      hAuthority with ⟨⟨found, left⟩, hRead⟩
    have hSome :=
      host_ne_empty_of_parseAuthority hSpecial hRead
    have hNone : authority ≠ [] := by
      intro hEmpty
      rw [hEmpty] at hRead
      exact hSome
        (host_of_parseAuthority_ends Text.stops_nil hRead)
    have hNamed : authority ≠ ['@'] := by
      intro hAt
      rw [hAt] at hRead
      exact hSome
        (host_of_parseAuthority_at Text.stops_nil hRead)
    have hLeads := leads_of_special hFile hSpecial hSlashes
      (hSpecial ▸ hInside) hNone hNamed
    have hUrl :=
      hLeads.readsOn hRead (hSpecial.symm ▸ hRest)
    unfold parseChars
    rw [hClean, hScheme.splitScheme]
    exact ⟨_, hUrl⟩

end Url

end ServiceCalls
