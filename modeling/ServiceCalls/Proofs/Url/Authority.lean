import ServiceCalls.Proofs.Fallible
import ServiceCalls.Proofs.Text.Runs
import ServiceCalls.Url.Parse

/-
  Authorities at the start of longer texts.

  An authority is read in the same way whatever follows it,
  as long as that starts with a mark that ends authorities.

  Key definitions include:
    * `Url.Ends`
    * `Url.readHost`
    * `Url.readPort`

  Main declarations:
    * `Host.parseSpecial_of_forbidden`
    * `Url.splitUser_append`
    * `Url.hostLength_append`
    * `Url.parsePort_append`
    * `Url.of_readHost` and `Url.of_readPort`
    * `Url.parseAuthority_append`
-/

namespace ServiceCalls

------------------------------------------------------------
-- Refused Hosts
------------------------------------------------------------

namespace Host

section

variable [DomainNames]
  {text : List Char}
  (hHead : text.head? ≠ some '[')

include hHead

theorem parseSpecial_of_undecoded
    (hNone :
      Text.decode? (Text.percentDecode
        (Text.encodeChars text)) = none) :
    parseSpecial text = .error .invalidDomainName := by
  unfold parseSpecial
  rw [if_neg hHead, hNone]
  rfl

/- A character that stays forbidden keeps a host out. -/
theorem parseSpecial_of_forbidden
    {decoded : String}
    (hDecode :
      Text.decode? (Text.percentDecode
        (Text.encodeChars text)) = some decoded)
    {c : Char}
    (hMem : c ∈ decoded.toList)
    (hForbidden : staysForbidden c = true) :
    parseSpecial text = .error .invalidDomainName := by
  have hAny : decoded.toList.any staysForbidden = true :=
    List.any_eq_true.2 ⟨c, hMem, hForbidden⟩
  have hDomain : domain? decoded.toList = none := by
    unfold domain?
    rw [if_pos hAny]
  unfold parseSpecial
  rw [if_neg hHead, hDecode]
  dsimp only [Option.bind]
  rw [hDomain]

end

end Host

namespace Url

------------------------------------------------------------
-- User Information
------------------------------------------------------------

/- A text that is empty or starts where an authority ends. -/
abbrev Ends (special : Bool) (rest : List Char) : Prop :=
  Text.Stops (fun c => !endsAuthority special c) rest

/- A text within an authority. -/
def Inside (special : Bool) (text : List Char) : Prop :=
  ∀ c ∈ text, endsAuthority special c = false

theorem Inside.takeWhile
    {special : Bool}
    {text rest : List Char}
    (h : Inside special text)
    (hRest : Ends special rest) :
    ((text ++ rest).takeWhile fun c =>
        !endsAuthority special c) =
      text := by
  apply Text.takeWhile_append_stop _ hRest
  intro c hMem
  rw [h c hMem]
  rfl

theorem Inside.append
    {special : Bool}
    {text more : List Char}
    (hText : Inside special text)
    (hMore : Inside special more) :
    Inside special (text ++ more) := by
  intro c hMem
  rcases List.mem_append.1 hMem with hFirst | hSecond
  · exact hText c hFirst
  · exact hMore c hSecond

/-
  User information is found whatever follows, if no mark of
  user information does.
-/
theorem splitUser_append
    {special : Bool}
    {text more rest : List Char}
    (hText : Inside special text)
    (hNamed : text ≠ ['@'] ∨ more ≠ [])
    (hMore : Inside special more)
    (hAt : '@' ∉ more)
    (hRest : Ends special rest) :
    splitUser special (text ++ (more ++ rest)) =
      (splitUser special text).map fun (user, left) =>
        (user, left ++ (more ++ rest)) := by
  have hBoth := hText.append hMore
  have hAlone := hText.takeWhile (Text.stops_nil)
  rw [List.append_nil] at hAlone
  unfold splitUser
  rw [← List.append_assoc, hBoth.takeWhile hRest, hAlone]
  simp only [Text.splitLast_append hAt]
  cases hSplit : Text.splitLast ['@'] text with
  | none => simp [Except.map]
  | some parts =>
      have hJoin := Text.append_of_splitLast hSplit
      rcases parts with ⟨user, left⟩
      cases user with
      | nil =>
          subst hJoin
          cases left with
          | nil =>
              cases more with
              | nil =>
                  rcases hNamed with hNot | hSome
                  · exact absurd rfl hNot
                  · exact absurd rfl hSome
              | cons c more =>
                  have hInside :
                      endsAuthority special c = false :=
                    hMore c List.mem_cons_self
                  simp [Except.map, hInside]
          | cons c left =>
              have hInside : endsAuthority special c = false :=
                hText c (by simp)
              simp [Except.map, hInside]
      | cons c user =>
          have hLength :
              (c :: user).length + 1 ≤ text.length := by
            rw [hJoin]
            simp
          simp only [Option.map_some, Except.map]
          rw [List.append_assoc,
            List.drop_append_of_le_length hLength]

/- What follows user information ends the text. -/
theorem suffix_of_splitUser
    {special : Bool}
    {text left : List Char}
    {user : String × Option String}
    (h : splitUser special text = .ok (user, left)) :
    left <:+ text := by
  unfold splitUser at h
  dsimp only at h
  split at h
  · cases h
    exact List.suffix_refl _
  · split at h
    · cases h
      exact List.nil_suffix
    · next hCons =>
        split at h
        · cases h
        · cases h
          rw [← hCons]
          exact List.drop_suffix _ _
  · cases h
    exact List.drop_suffix _ _

theorem inside_of_splitUser
    {special : Bool}
    {text left : List Char}
    {user : String × Option String}
    (hText : Inside special text)
    (h : splitUser special text = .ok (user, left)) :
    Inside special left :=
  fun c hMem => hText c ((suffix_of_splitUser h).subset hMem)

------------------------------------------------------------
-- Lengths of Hosts
------------------------------------------------------------

theorem hostLength_le
    (special bracketed : Bool)
    (text : List Char) :
    hostLength special bracketed text ≤ text.length := by
  induction text generalizing bracketed with
  | nil => exact Nat.le_refl 0
  | cons c rest ih =>
      unfold hostLength
      rw [List.length_cons]
      split
      · exact Nat.zero_le _
      · have hRest := ih
          (if c == '[' then true
            else if c == ']' then false
            else bracketed)
        omega

/- A host that stops at a colon stops there in any case. -/
theorem hostLength_append_of_lt
    {special : Bool}
    {bracketed : Bool}
    {text : List Char}
    (h : hostLength special bracketed text < text.length)
    (rest : List Char) :
    hostLength special bracketed (text ++ rest) =
      hostLength special bracketed text := by
  induction text generalizing bracketed with
  | nil => exact absurd h (Nat.lt_irrefl 0)
  | cons c more ih =>
      unfold hostLength at h
      rw [List.cons_append]
      conv => lhs; unfold hostLength
      conv => rhs; unfold hostLength
      split
      · rfl
      · next hGoes =>
          rw [if_neg hGoes, List.length_cons] at h
          rw [ih]
          omega

/- A host that does not stop goes on with what follows. -/
theorem hostLength_append_of_eq
    {special : Bool}
    {bracketed : Bool}
    {text : List Char}
    (h : hostLength special bracketed text = text.length)
    (rest : List Char) :
    ∃ inside, hostLength special bracketed (text ++ rest) =
      text.length + hostLength special inside rest := by
  induction text generalizing bracketed with
  | nil => exact ⟨bracketed, (Nat.zero_add _).symm⟩
  | cons c more ih =>
      unfold hostLength at h
      rw [List.length_cons] at h
      split at h
      · omega
      · next hGoes =>
          rw [Nat.add_comm] at h
          rcases ih (Nat.succ.inj h) with ⟨inside, hRest⟩
          refine ⟨inside, ?_⟩
          rw [List.cons_append, List.length_cons]
          conv => lhs; unfold hostLength
          rw [if_neg hGoes, hRest]
          omega

theorem hostLength_ends
    {special : Bool}
    {rest : List Char}
    (h : Ends special rest)
    (bracketed : Bool) :
    hostLength special bracketed rest = 0 := by
  cases rest with
  | nil => rfl
  | cons c more =>
      have hEnd := h c rfl
      rw [Bool.not_eq_false'] at hEnd
      unfold hostLength
      rw [hEnd, Bool.or_true, if_pos rfl]

/- A host is as long as when nothing follows. -/
theorem hostLength_append
    {special : Bool}
    {rest : List Char}
    (hRest : Ends special rest)
    (text : List Char) :
    hostLength special false (text ++ rest) =
      hostLength special false text := by
  have hLe := hostLength_le special false text
  rcases Nat.lt_or_eq_of_le hLe with hLess | hSame
  · exact hostLength_append_of_lt hLess rest
  · rcases hostLength_append_of_eq hSame rest with
      ⟨inside, hLength⟩
    rw [hLength, hostLength_ends hRest, hSame, Nat.add_zero]

------------------------------------------------------------
-- Ports
------------------------------------------------------------

/- What ends an authority ends a port. -/
theorem parsePort_ends
    {special : Bool}
    {rest : List Char}
    (hRest : Ends special rest)
    (sofar : Option Nat) :
    parsePort sofar rest = .ok (sofar, rest) := by
  cases rest with
  | nil => rfl
  | cons c more =>
      have hEnd := hRest c rfl
      rw [Bool.not_eq_false'] at hEnd
      simp only [endsAuthority, Bool.or_eq_true, beq_iff_eq,
        Bool.and_eq_true] at hEnd
      rcases hEnd with ((hEnd | hEnd) | hEnd) | ⟨_, hEnd⟩
      all_goals
        subst hEnd
        rfl

/- A port is read in the same way whatever follows. -/
theorem parsePort_append
    {special : Bool}
    {rest : List Char}
    (hRest : Ends special rest)
    (sofar : Option Nat)
    (digits : List Char) :
    parsePort sofar (digits ++ rest) =
      (parsePort sofar digits).map fun (port, left) =>
        (port, left ++ rest) := by
  induction digits generalizing sofar with
  | nil => exact parsePort_ends hRest sofar
  | cons c more ih =>
      rw [List.cons_append]
      unfold parsePort
      split
      · dsimp only
        split
        · rfl
        · exact ih _
      · split
        · rfl
        · rfl

------------------------------------------------------------
-- Parts of an Authority
------------------------------------------------------------

/- Read the text of a host. -/
def hostOf
    [DomainNames]
    (scheme : String) (text : List Char) :
    Except UrlError Host :=
  if isSpecial scheme then
    if text.isEmpty then .error .emptyHost
    else Host.parseSpecial text
  else Host.parsePlain text

/- Read a host, and say what follows it. -/
def readHost
    [DomainNames]
    (scheme : String) (text : List Char) :
    Except UrlError (Host × List Char) :=
  let length := hostLength (isSpecial scheme) false text
  let rest := text.drop length
  hostOf scheme (text.take length) >>= fun host =>
    if host == .empty && rest.head? == some ':' then
      .error .emptyHost
    else .ok (host, rest)

/- Read a port if there is one. -/
def portOf :
    List Char → Except UrlError (Option Nat × List Char)
  | ':' :: digits => parsePort none digits
  | rest => .ok (none, rest)

/- Complete an authority with the port after its host. -/
def readPort
    (scheme : String)
    (user : String × Option String)
    (host : Host)
    (text : List Char) :
    Except UrlError (Authority × List Char) :=
  portOf text >>= fun (port, rest) =>
    if host == .empty &&
        (!user.1.isEmpty || user.2.isSome) then
      .error .emptyHost
    else
      .ok (⟨user.1, user.2, host,
        if port == defaultPort? scheme then none
          else port⟩, rest)

theorem portOf_other
    {text : List Char}
    (h : text.head? ≠ some ':') :
    portOf text = .ok (none, text) := by
  unfold portOf
  split
  · exact absurd rfl h
  · rfl

theorem readPort_eq
    (scheme name : String)
    (password : Option String)
    (host : Host)
    (text : List Char) :
    (do
      let (port, rest) ←
        match text with
        | ':' :: digits => parsePort none digits
        | rest => pure (none, rest)
      let named := !name.isEmpty || password.isSome
      if host == .empty && named then
        throw .emptyHost
      let port := if port == defaultPort? scheme then none
        else port
      return (⟨name, password, host, port⟩, rest)) =
      readPort scheme (name, password) host text := by
  unfold readPort
  split
  · next digits =>
      change _ = (parsePort none digits >>= _)
      cases parsePort none digits with
      | error error => rfl
      | ok found => rfl
  · next hOther =>
      rw [portOf_other]
      · rfl
      · intro hColon
        cases text with
        | nil => cases hColon
        | cons c more =>
            cases hColon
            exact hOther more rfl

/- An authority is user information, a host and a port. -/
theorem parseAuthority_eq
    [DomainNames]
    (scheme : String)
    (text : List Char) :
    parseAuthority scheme text =
      splitUser (isSpecial scheme) text >>=
        fun (user, left) =>
      readHost scheme left >>= fun (host, rest) =>
        readPort scheme user host rest := by
  unfold parseAuthority
  dsimp only
  cases splitUser (isSpecial scheme) text with
  | error error => rfl
  | ok parts =>
      rcases parts with ⟨⟨name, password⟩, left⟩
      have hLength :
          (left.take (hostLength (isSpecial scheme) false
            left)).length =
              hostLength (isSpecial scheme) false left :=
        List.length_take_of_le (hostLength_le _ _ _)
      unfold readHost hostOf
      dsimp only [bind, Except.bind]
      rw [hLength]
      cases hSpecial : isSpecial scheme with
      | true =>
          simp only [Bool.true_and, if_true]
          split
          · rfl
          · cases Host.parseSpecial (left.take
                (hostLength true false left)) with
            | error error => rfl
            | ok host =>
                dsimp only
                split
                · rfl
                · change _ = readPort scheme (name, password)
                    host _
                  generalize left.drop
                    (hostLength true false left) = rest
                  exact readPort_eq scheme name password host rest
      | false =>
          simp only [Bool.false_and, Bool.false_eq_true,
            if_false]
          cases Host.parsePlain (left.take
              (hostLength false false left)) with
          | error error => rfl
          | ok host =>
              dsimp only
              split
              · rfl
              · change _ = readPort scheme (name, password)
                  host _
                generalize left.drop
                  (hostLength false false left) = rest
                exact readPort_eq scheme name password host rest

/- What follows a host does not start with a colon. -/
theorem head?_append_eq_colon
    {special : Bool}
    {rest : List Char}
    (hRest : Ends special rest)
    (text : List Char) :
    ((text ++ rest).head? == some ':') =
      (text.head? == some ':') := by
  cases text with
  | cons c more => rfl
  | nil =>
      cases hHead : rest.head? with
      | none => rw [List.nil_append, hHead]; rfl
      | some c =>
          have hEnd := hRest c hHead
          have hColon : c ≠ ':' := by
            intro hSame
            subst hSame
            cases special <;> cases hEnd
          rw [List.nil_append, hHead]
          exact beq_false_of_ne fun h =>
            hColon (Option.some.inj h)

theorem readHost_append
    [DomainNames]
    {scheme : String}
    {rest : List Char}
    (hRest : Ends (isSpecial scheme) rest)
    (text : List Char) :
    readHost scheme (text ++ rest) =
      (readHost scheme text).map fun (host, left) =>
        (host, left ++ rest) := by
  have hLe := hostLength_le (isSpecial scheme) false text
  unfold readHost
  dsimp only
  rw [hostLength_append hRest,
    List.take_append_of_le_length hLe,
    List.drop_append_of_le_length hLe,
    head?_append_eq_colon hRest]
  cases hostOf scheme (text.take
      (hostLength (isSpecial scheme) false text)) with
  | error error => rfl
  | ok host =>
      dsimp only [bind, Except.bind]
      split
      · rfl
      · rfl

theorem portOf_append
    {special : Bool}
    {rest : List Char}
    (hRest : Ends special rest)
    (text : List Char) :
    portOf (text ++ rest) =
      (portOf text).map fun (port, left) =>
        (port, left ++ rest) := by
  have hSame := head?_append_eq_colon hRest text
  by_cases hColon : text.head? = some ':'
  · cases text with
    | nil => cases hColon
    | cons c digits =>
        cases hColon
        exact parsePort_append hRest none digits
  · have hBoth : (text ++ rest).head? ≠ some ':' := by
      rw [beq_false_of_ne hColon] at hSame
      exact ne_of_beq_false hSame
    rw [portOf_other hColon, portOf_other hBoth]
    rfl

theorem readPort_append
    {scheme : String}
    {rest : List Char}
    (hRest : Ends (isSpecial scheme) rest)
    (user : String × Option String)
    (host : Host)
    (text : List Char) :
    readPort scheme user host (text ++ rest) =
      (readPort scheme user host text).map
        fun (authority, left) =>
          (authority, left ++ rest) := by
  unfold readPort
  rw [portOf_append hRest]
  cases portOf text with
  | error error => rfl
  | ok found =>
      dsimp only [bind, Except.bind, Except.map]
      split
      · rfl
      · rfl

/- The host of an authority, and where its port is from. -/
theorem of_readPort
    {scheme : String}
    {user : String × Option String}
    {host : Host}
    {text left : List Char}
    {authority : Authority}
    (h : readPort scheme user host text =
      .ok (authority, left)) :
    ∃ port, portOf text = .ok (port, left) ∧
      authority = ⟨user.1, user.2, host,
        if port == defaultPort? scheme then none
          else port⟩ := by
  rcases Fallible.bind_eq_ok h with
    ⟨⟨port, rest⟩, hFound, hRest⟩
  dsimp only at hRest
  split at hRest
  · cases hRest
  · cases hRest
    exact ⟨port, hFound, rfl⟩

/- The text of the host that is read. -/
theorem of_readHost
    [DomainNames]
    {scheme : String}
    {text left : List Char}
    {host : Host}
    (h : readHost scheme text = .ok (host, left)) :
    hostOf scheme (text.take
        (hostLength (isSpecial scheme) false text)) =
      .ok host ∧
    left = text.drop
      (hostLength (isSpecial scheme) false text) := by
  rcases Fallible.bind_eq_ok h with ⟨found, hFound, hRest⟩
  split at hRest
  · cases hRest
  · cases hRest
    exact ⟨hFound, rfl⟩

/- An authority does not depend on what comes after it. -/
theorem parseAuthority_append
    [DomainNames]
    {scheme : String}
    {text rest : List Char}
    (hText : Inside (isSpecial scheme) text)
    (hNamed : text ≠ ['@'])
    (hRest : Ends (isSpecial scheme) rest) :
    parseAuthority scheme (text ++ rest) =
      (parseAuthority scheme text).map
        fun (authority, left) =>
          (authority, left ++ rest) := by
  have hNone : Inside (isSpecial scheme) [] :=
    fun c hMem => absurd hMem List.not_mem_nil
  have hUser := splitUser_append hText (.inl hNamed) hNone
    List.not_mem_nil hRest
  rw [parseAuthority_eq, parseAuthority_eq]
  rw [List.nil_append] at hUser
  rw [hUser]
  cases splitUser (isSpecial scheme) text with
  | error error => rfl
  | ok parts =>
      dsimp only [bind, Except.bind, Except.map]
      rw [readHost_append hRest]
      cases readHost scheme parts.2 with
      | error error => rfl
      | ok found =>
          dsimp only [Except.map]
          rw [readPort_append hRest]
          rfl

end Url

end ServiceCalls
