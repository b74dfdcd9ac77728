import ServiceCalls.Proofs.Template.Resolution
import ServiceCalls.Proofs.Template.Substitution

/-
  URLs that are put together from prefixes.

  Joining is associative, and a relative text continues its
  base in the same way.  A prefix without braces may be taken
  from a template and given to the base instead, as long as
  no value is empty: then a template begins as its text does.

  Key definitions include:
    * `UriTemplate.continued`
    * `UriTemplate.AllFilled`
    * `UriTemplate.replacedText`

  Main declarations:
    * `UriTemplate.resolve_continued`
    * `UriTemplate.replacedText_joinUrl`
    * `UriTemplate.prefixes_compose`
-/

namespace ServiceCalls

namespace UriTemplate

------------------------------------------------------------
-- Texts that Continue a Base
------------------------------------------------------------

/- A base and a text that is no URL with a host. -/
def continued (base text : List Char) : List Char :=
  match text with
  | [] => base
  | '?' :: _ => base ++ text
  | _ => joinSlash base text

theorem continued_eq_joinUrl
    {base : List Char}
    (h : base ≠ [])
    (text : List Char) :
    continued base text = joinUrl base text := by
  unfold continued
  split
  · rw [joinUrl_nil]
  · rw [joinUrl_query h]
  · next hSome hOther =>
      rw [joinUrl_slash h hSome]
      intro hHead
      rcases List.head?_eq_some_iff.mp hHead with
        ⟨rest, hRest⟩
      exact hOther rest hRest

/- A text that needs a base is read behind it. -/
theorem resolve_continued
    [DomainNames]
    {text : List Char}
    (h : ∀ own, ¬IsAbsolute (String.ofList text) own)
    (base : BaseUrl) :
    let target := String.ofList
      (continued base.text.toList text)
    resolve (some base) (String.ofList text) =
      (Url.parse target).mapError (badTarget target) := by
  rw [resolve_of_relative h,
    continued_eq_joinUrl base.text_ne_nil]
  simp [resolveUnder]

/-
  Without a colon a template has no host, whatever the
  values are.
-/
theorem not_isAbsolute_of_expandText
    [DomainNames]
    {template : String}
    (h : ':' ∉ template.toList)
    {uriVariables : List (String × String)}
    {text : String}
    (hText : expandText template uriVariables = .ok text)
    (own : Url) :
    ¬IsAbsolute text own := by
  intro hOwn
  rcases exists_pieces_of_parse hText hOwn.1 with
    ⟨before, after, hPieces, _⟩
  apply h
  apply mem_of_plain_mem
  rw [hPieces]
  exact List.mem_append_right _ List.mem_cons_self

------------------------------------------------------------
-- Templates with Values
------------------------------------------------------------

/- All names of some pieces have a value with a text. -/
def AllFilled
    (uriVariables : List (String × String))
    (parts : List Piece) :
    Prop :=
  ∀ name ∈ names parts,
    ∃ value, uriVariables.lookup name = some value ∧
      value ≠ ""

/- The text of a template whose names have values. -/
def replacedText
    (uriVariables : List (String × String))
    (text : List Char) :
    List Char :=
  (pieces text).flatMap (replaced uriVariables)

variable {uriVariables : List (String × String)}

theorem AllFilled.allBound
    {parts : List Piece}
    (h : AllFilled uriVariables parts) :
    AllBound uriVariables parts := by
  intro name hName
  rcases h name hName with ⟨value, hValue, _⟩
  rw [hValue]
  rfl

theorem expandText_of_allFilled
    {text : List Char}
    (h : AllFilled uriVariables (pieces text)) :
    expandText (String.ofList text) uriVariables =
      .ok (String.ofList
        (replacedText uriVariables text)) := by
  unfold expandText
  rw [String.toList_ofList,
    expandPieces_of_allBound h.allBound]
  rfl

theorem expand_of_allFilled
    [DomainNames]
    {text : List Char}
    (h : AllFilled uriVariables (pieces text))
    (base? : Option BaseUrl) :
    expand base? (String.ofList text) uriVariables =
      resolve base? (String.ofList
        (replacedText uriVariables text)) := by
  unfold expand
  rw [expandText_of_allFilled h]
  rfl

theorem replacedText_cons
    {c : Char}
    (h : c ≠ '\x7b')
    (rest : List Char) :
    replacedText uriVariables (c :: rest) =
      c :: replacedText uriVariables rest := by
  simp [replacedText, pieces_cons h, replaced]

theorem replacedText_append
    {text : List Char}
    (h : ∀ c ∈ text, c ≠ '\x7b')
    (rest : List Char) :
    replacedText uriVariables (text ++ rest) =
      text ++ replacedText uriVariables rest := by
  induction text with
  | nil => rfl
  | cons c more ih =>
      rw [List.forall_mem_cons] at h
      rw [List.cons_append, replacedText_cons h.1, ih h.2,
        List.cons_append]

theorem AllFilled.append_iff
    {front : List Char}
    (h : ∀ c ∈ front, c ≠ '\x7b')
    (text : List Char) :
    AllFilled uriVariables (pieces (front ++ text)) ↔
      AllFilled uriVariables (pieces text) := by
  have hNames :
      names (front.map Piece.plain ++ pieces text) =
        names (pieces text) := by
    simp [names, Piece.name?]
  rw [pieces_plain h]
  unfold AllFilled
  rw [hNames]

/- The first character of a value is one of a component. -/
theorem exists_encodeComponent_cons
    {value : String}
    (h : value ≠ "") :
    ∃ c rest,
      Text.encodeComponent value.toList = c :: rest ∧
        Text.isComponentChar c = true := by
  cases hText : Text.encodeComponent value.toList with
  | nil =>
      have hDecode := Text.percentDecode_encodeComponent
        value.toList []
      rw [hText] at hDecode
      have hNone : Text.encodeChars value.toList = [] := by
        simpa [Text.encodeChars, Text.percentDecode]
          using hDecode.symm
      exact absurd (String.toList_eq_nil_iff.mp
        (Text.encodeChars_eq_nil hNone)) h
  | cons c rest =>
      have hMem : c ∈ Text.encodeComponent value.toList := by
        rw [hText]
        exact List.mem_cons_self
      exact ⟨c, rest, rfl, Text.isComponentChar_of_mem hMem⟩

/- The first piece is a character, or a name in braces. -/
theorem pieces_cons_or (c : Char) (rest : List Char) :
    pieces (c :: rest) = .plain c :: pieces rest ∨
      c = '\x7b' ∧ ∃ name after,
        pieces (c :: rest) =
          .placeholder name :: pieces after := by
  rw [pieces]
  split
  · next hOpen =>
      split
      · next name after _ =>
          exact .inr ⟨hOpen, name, after, rfl⟩
      · exact .inl rfl
  · exact .inl rfl

/-
  A text with values begins as it did, or with a character
  that opens neither a query nor a path.
-/
theorem head?_replacedText
    {text : List Char}
    (h : AllFilled uriVariables (pieces text))
    {c : Char}
    (hBrace : c ≠ '\x7b')
    (hComponent : Text.isComponentChar c = false) :
    (replacedText uriVariables text).head? = some c ↔
      text.head? = some c := by
  cases text with
  | nil => simp [replacedText, pieces]
  | cons d rest =>
      unfold replacedText
      rcases pieces_cons_or d rest with
        hPlain | ⟨hOpen, name, after, hNamed⟩
      · simp [hPlain, replaced]
      · rw [hNamed] at h ⊢
        rcases h _ List.mem_cons_self with
          ⟨value, hValue, hSome⟩
        rcases exists_encodeComponent_cons hSome with
          ⟨e, more, hText, hFirst⟩
        have hOther : e ≠ c := by
          intro hSame
          rw [← hSame, hFirst] at hComponent
          cases hComponent
        have hNot : '\x7b' ≠ c := hBrace.symm
        simp [replaced, hValue, hText, hOther, hOpen, hNot]

theorem replacedText_eq_nil_iff
    {text : List Char}
    (h : AllFilled uriVariables (pieces text)) :
    replacedText uriVariables text = [] ↔ text = [] := by
  cases text with
  | nil => simp [replacedText, pieces]
  | cons d rest =>
      unfold replacedText
      rcases pieces_cons_or d rest with
        hPlain | ⟨_, name, after, hNamed⟩
      · simp [hPlain, replaced]
      · rw [hNamed] at h ⊢
        rcases h _ List.mem_cons_self with
          ⟨value, hValue, hSome⟩
        rcases exists_encodeComponent_cons hSome with
          ⟨e, more, hText, _⟩
        simp [replaced, hValue, hText]

/- Slashes at the start are no part of a value. -/
theorem dropWhile_replacedText
    {text : List Char}
    (h : AllFilled uriVariables (pieces text)) :
    (replacedText uriVariables text).dropWhile (· == '/') =
      replacedText uriVariables
        (text.dropWhile (· == '/')) := by
  induction text with
  | nil => simp [replacedText, pieces]
  | cons c rest ih =>
      by_cases hSlash : c = '/'
      · subst hSlash
        have hPlain : ∀ c ∈ ['/'], c ≠ '\x7b' := by simp
        have hRest :=
          (AllFilled.append_iff hPlain rest).mp h
        simp [replacedText_cons, ih hRest]
      · have hOther : (c == '/') = false :=
          beq_false_of_ne hSlash
        have hHead := head?_replacedText h (c := '/')
          (by decide) (by decide)
        have hStops : Text.Stops (· == '/')
            (replacedText uriVariables (c :: rest)) := by
          intro d hFirst
          apply beq_false_of_ne
          intro hSame
          subst hSame
          exact hSlash (Option.some.inj (hHead.mp hFirst))
        rw [Text.dropWhile_stops hStops,
          List.dropWhile_cons_of_neg (by simp [hSlash])]

/- What a text loses at its end opens no placeholder. -/
theorem plain_dropWhileEnd
    {front : List Char}
    (h : ∀ c ∈ front, c ≠ '\x7b') :
    ∀ c ∈ Text.dropWhileEnd (· == '/') front,
      c ≠ '\x7b' := by
  intro c hMem hOpen
  subst hOpen
  have hFront := (Text.mem_dropWhileEnd_iff
    (p := (· == '/')) rfl front).mp hMem
  exact h _ hFront rfl

/- A prefix without braces is left as it is. -/
theorem replacedText_joinUrl
    {front : List Char}
    (hFront : ∀ c ∈ front, c ≠ '\x7b')
    {text : List Char}
    (h : AllFilled uriVariables (pieces text)) :
    replacedText uriVariables (joinUrl front text) =
      joinUrl front (replacedText uriVariables text) := by
  by_cases hSome : front = []
  · rw [hSome]
    rfl
  by_cases hText : text = []
  · have hWhole :
        replacedText uriVariables (front ++ []) =
          front ++ replacedText uriVariables [] :=
      replacedText_append hFront []
    simpa [hText, joinUrl_nil, replacedText, pieces]
      using hWhole
  have hLeft : replacedText uriVariables text ≠ [] := by
    rwa [Ne, replacedText_eq_nil_iff h]
  by_cases hQuery : text.head? = some '?'
  · rcases List.head?_eq_some_iff.mp hQuery with
      ⟨rest, hRest⟩
    rw [hRest, joinUrl_query hSome,
      replacedText_append hFront,
      replacedText_cons (by decide), joinUrl_query hSome]
  · have hOther :
        (replacedText uriVariables text).head? ≠
          some '?' := by
      rwa [Ne, head?_replacedText h (by decide) (by decide)]
    rw [joinUrl_slash hSome hText hQuery,
      joinUrl_slash hSome hLeft hOther]
    unfold joinSlash
    rw [replacedText_append (plain_dropWhileEnd hFront),
      replacedText_cons (by decide),
      dropWhile_replacedText h]

/- A joined text has the values that its second one has. -/
theorem AllFilled.joinUrl
    {front : List Char}
    (hFront : ∀ c ∈ front, c ≠ '\x7b')
    {text : List Char}
    (h : AllFilled uriVariables (pieces text)) :
    AllFilled uriVariables
      (pieces (ServiceCalls.joinUrl front text)) := by
  unfold ServiceCalls.joinUrl
  split
  · exact h
  · split
    · rw [← List.append_nil front, append_iff hFront]
      simp [AllFilled, pieces, names]
    · split
      · exact (append_iff hFront text).mpr h
      · have hSlash : ∀ c ∈ ['/'], c ≠ '\x7b' := by simp
        have hSlashes :
            ∀ c ∈ text.takeWhile (· == '/'),
              c ≠ '\x7b' := by
          intro c hMem hOpen
          have hSlash :=
            List.all_eq_true.mp List.all_takeWhile c hMem
          subst hOpen
          cases hSlash
        rw [← List.takeWhile_append_dropWhile
          (p := (· == '/')) (l := text),
          append_iff hSlashes] at h
        unfold joinSlash
        rw [append_iff (plain_dropWhileEnd hFront),
          ← List.singleton_append, append_iff hSlash]
        exact h

------------------------------------------------------------
-- Prefixes of a Base and of a Template
------------------------------------------------------------

/-
  Joining is associative and has the empty text as identity,
  and a text that needs a base continues it in the same way.
  So a prefix without braces is the same at the start of a
  template as at the end of the base, if no value is empty
  and the text needs the base both with it and without it.
-/
theorem prefixes_compose [DomainNames] :
    (∀ text,
      joinUrl [] text = text ∧ joinUrl text [] = text) ∧
    (∀ first second third,
      joinUrl (joinUrl first second) third =
        joinUrl first (joinUrl second third)) ∧
    (∀ (base : BaseUrl) (text : List Char),
      continued base.text.toList text =
        joinUrl base.text.toList text ∧
      ((∀ own, ¬IsAbsolute (String.ofList text) own) →
        let target := String.ofList
          (continued base.text.toList text)
        resolve (some base) (String.ofList text) =
          (Url.parse target).mapError
            (badTarget target))) ∧
    ∀ (base inner : BaseUrl)
        (typeUrl methodUrl : List Char)
        (uriVariables : List (String × String)),
      (∀ c ∈ typeUrl, isBrace c = false) →
      inner.text =
        String.ofList
          (joinUrl base.text.toList typeUrl) →
      AllFilled uriVariables (pieces methodUrl) →
      (∀ text own,
        expandText (String.ofList methodUrl)
          uriVariables = .ok text →
        ¬IsAbsolute text own) →
      (∀ text own,
        expandText
          (String.ofList (joinUrl typeUrl methodUrl))
          uriVariables = .ok text →
        ¬IsAbsolute text own) →
      expand (some base)
          (String.ofList (joinUrl typeUrl methodUrl))
          uriVariables =
        expand (some inner) (String.ofList methodUrl)
          uriVariables := by
  refine ⟨fun text => ⟨rfl, joinUrl_nil text⟩,
    joinUrl_assoc, ?_, ?_⟩
  · intro base text
    exact ⟨continued_eq_joinUrl base.text_ne_nil text,
      fun hRelative => resolve_continued hRelative base⟩
  · intro base inner typeUrl methodUrl uriVariables hBraces
      hInner hFilled hMethod hBoth
    have hPlain (c : Char) (hMem : c ∈ typeUrl) :
        c ≠ '\x7b' :=
      ((isBrace_eq_false_iff c).mp (hBraces c hMem)).1
    have hJoined := hFilled.joinUrl hPlain
    have hText := replacedText_joinUrl hPlain hFilled
    have hTarget :
        continued base.text.toList
            (joinUrl typeUrl
              (replacedText uriVariables methodUrl)) =
          continued inner.text.toList
            (replacedText uriVariables methodUrl) := by
      rw [continued_eq_joinUrl base.text_ne_nil,
        continued_eq_joinUrl inner.text_ne_nil, hInner,
        String.toList_ofList, joinUrl_assoc]
    have hUnder := resolve_continued
      (fun own => hBoth _ own (expandText_of_allFilled
        hJoined)) base
    have hNext := resolve_continued
      (fun own => hMethod _ own (expandText_of_allFilled
        hFilled)) inner
    rw [hText, hTarget] at hUnder
    rw [expand_of_allFilled hJoined,
      expand_of_allFilled hFilled, hText]
    exact hUnder.trans hNext.symm

/- Where a version of the API is. -/
def localV1 : Url :=
  { localHome with path := .segments ["api", "v1", ""] }

open PlainNames

theorem parse_localV1 :
    Url.parse "http://localhost/api/v1/" = .ok localV1 :=
  Fallible.eq_ok_of_toOption (by decide +kernel)

/- The text of the URL of the version. -/
def localV1Api : BaseUrl :=
  ⟨"http://localhost/api/v1/", localV1, parse_localV1⟩

/- Neither the version nor a user has a host. -/
theorem prefixes_compose_users :
    expand (some localApi)
        (String.ofList
          (joinUrl "/v1/".toList
            "/users/\x7bid\x7d?all".toList))
        [("id", "a:b")] =
      expand (some localV1Api)
        (String.ofList "/users/\x7bid\x7d?all".toList)
        [("id", "a:b")] := by
  have hBraces : ∀ c ∈ "/v1/".toList, isBrace c = false := by
    simp [isBrace]
  refine prefixes_compose.2.2.2 localApi localV1Api
    "/v1/".toList "/users/\x7bid\x7d?all".toList
    [("id", "a:b")] hBraces (by decide +kernel) ?_ ?_ ?_
  · intro name hName
    have hNames :
        names (pieces "/users/\x7bid\x7d?all".toList) =
          ["id"] := by
      decide +kernel
    rw [hNames, List.mem_singleton] at hName
    subst hName
    exact ⟨"a:b", rfl, by decide⟩
  · intro text own hText
    exact not_isAbsolute_of_expandText (by decide) hText own
  · intro text own hText
    exact not_isAbsolute_of_expandText (by decide) hText own

end UriTemplate

end ServiceCalls
