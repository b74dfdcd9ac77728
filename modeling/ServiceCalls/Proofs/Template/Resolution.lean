import ServiceCalls.Proofs.Template.Origin
import ServiceCalls.Proofs.Url.Appended

/-
  Texts that are resolved under a base and go on.

  A text is read by itself if it has a host, and behind the
  base otherwise.  What is appended to its query does not
  change where it is read, and is appended to the query of
  the URL; what follows a fragment is part of the fragment.

  Key definitions include:
    * `UriTemplate.readText`
    * `UriTemplate.EndsPlainly`

  Main declarations:
    * `UriTemplate.resolve_eq_readText`
    * `UriTemplate.exists_resolve_query`
    * `UriTemplate.exists_resolve_fragment`
    * `UriTemplate.resolve_mark_of_plain`
-/

namespace ServiceCalls

------------------------------------------------------------
-- Marks of Joined Texts
------------------------------------------------------------

theorem untailed_joinUrl
    {first second : List Char}
    (hFirst : Url.Untailed first)
    (hSecond : Url.Untailed second) :
    Url.Untailed (joinUrl first second) := by
  intro c hMem
  by_cases hSlash : c = '/'
  · subst hSlash
    decide
  · rcases (mem_joinUrl_iff hSlash first second).mp hMem
      with hHere | hHere
    · exact hFirst c hHere
    · exact hSecond c hHere

/- A base without a tail takes no mark from a text. -/
theorem Url.TakesMark.joinUrl
    {first second : List Char}
    (hFirst : Url.Untailed first)
    {mark : Char}
    (h : Url.TakesMark second mark) :
    Url.TakesMark (ServiceCalls.joinUrl first second)
      mark := by
  have hQuestion :
      '?' ∈ ServiceCalls.joinUrl first second ↔
        '?' ∈ second := by
    rw [mem_joinUrl_iff (by decide)]
    exact or_iff_right fun hMem => (hFirst _ hMem).1 rfl
  have hHash :
      '#' ∈ ServiceCalls.joinUrl first second ↔
        '#' ∈ second := by
    rw [mem_joinUrl_iff (by decide)]
    exact or_iff_right fun hMem => (hFirst _ hMem).2 rfl
  constructor
  · rw [hHash]
    exact h.noFragment
  · rw [hQuestion]
    exact h.mark

namespace UriTemplate

------------------------------------------------------------
-- Ends of Joined Texts
------------------------------------------------------------

/- What is not dropped decides how a text ends. -/
theorem endsInBlank_append
    (front : List Char)
    {rest : List Char}
    (h : (rest.filter fun c => !Url.isDropped c) ≠ []) :
    Url.endsInBlank (front ++ rest) =
      Url.endsInBlank rest := by
  unfold Url.endsInBlank
  rw [List.filter_append, List.getLast?_append,
    List.getLast?_eq_some_getLast h, Option.some_or]

theorem endsInBlank_append_dropped
    (front : List Char)
    {rest : List Char}
    (h : (rest.filter fun c => !Url.isDropped c) = []) :
    Url.endsInBlank (front ++ rest) =
      Url.endsInBlank front := by
  unfold Url.endsInBlank
  rw [List.filter_append, h, List.append_nil]

theorem endsInBlank_slashes
    {slashes : List Char}
    (h : ∀ c ∈ slashes, c = '/') :
    Url.endsInBlank slashes = false := by
  unfold Url.endsInBlank
  rw [Url.filter_slashes h]
  cases hLast : slashes.getLast? with
  | none => rfl
  | some c =>
      rw [h c (List.mem_of_getLast? hLast)]
      rfl

/- A joined text ends as the second one does. -/
theorem endsInBlank_joinUrl
    {first second : List Char}
    (hFirst : first ≠ [])
    (hSecond : second ≠ []) :
    Url.endsInBlank (joinUrl first second) =
      Url.endsInBlank second := by
  unfold joinUrl
  rw [if_neg (by simp [hFirst]), if_neg (by simp [hSecond])]
  split
  · next hQuery =>
      rcases List.isPrefixOf_iff_prefix.mp hQuery with
        ⟨more, hMore⟩
      rw [← hMore]
      exact endsInBlank_append first (List.cons_ne_nil _ _)
  · have hSplit := List.takeWhile_append_dropWhile
      (p := (· == '/')) (l := second)
    have hSlashes :
        ∀ c ∈ second.takeWhile (· == '/'), c = '/' := by
      intro c hMem
      have hAll :=
        List.all_eq_true.mp List.all_takeWhile c hMem
      exact beq_iff_eq.mp hAll
    unfold joinSlash
    rw [← List.singleton_append, ← List.append_assoc]
    conv => rhs; rw [← hSplit]
    by_cases hNone :
        ((second.dropWhile (· == '/')).filter
          fun c => !Url.isDropped c) = []
    · have hSlash (front : List Char) :
          Url.endsInBlank (front ++ ['/']) = false :=
        endsInBlank_append front (List.cons_ne_nil '/' [])
      rw [endsInBlank_append_dropped _ hNone,
        endsInBlank_append_dropped _ hNone, hSlash,
        endsInBlank_slashes hSlashes]
    · rw [endsInBlank_append _ hNone,
        endsInBlank_append _ hNone]

------------------------------------------------------------
-- What is Read
------------------------------------------------------------

variable [DomainNames]

/- Whether a text is a URL with a host. -/
def hasOwnHost (text : List Char) : Bool :=
  (Url.parseChars text).toOption.any Url.hasHost

/- The text that is read for a text under a base. -/
def readText (base : BaseUrl) (text : List Char) :
    List Char :=
  if hasOwnHost text then text
  else joinUrl base.text.toList text

theorem readText_of_own
    (base : BaseUrl)
    {text : List Char}
    (h : hasOwnHost text = true) :
    readText base text = text := by
  unfold readText
  rw [h, if_pos rfl]

theorem readText_of_not_own
    (base : BaseUrl)
    {text : List Char}
    (h : hasOwnHost text = false) :
    readText base text = joinUrl base.text.toList text := by
  unfold readText
  rw [h, if_neg Bool.false_ne_true]

/- What is read ends as the text does. -/
theorem endsInBlank_readText
    (base : BaseUrl)
    {text : List Char}
    (hSome : text ≠ []) :
    Url.endsInBlank (readText base text) =
      Url.endsInBlank text := by
  unfold readText
  split
  · rfl
  · exact endsInBlank_joinUrl base.text_ne_nil hSome

theorem resolve_eq_readText
    (base : BaseUrl)
    (text : List Char) :
    (resolve (some base) (String.ofList text)).toOption =
      (Url.parseChars (readText base text)).toOption := by
  have hUnder :
      (resolveUnder (some base)
          (String.ofList text)).toOption =
        (Url.parseChars
          (joinUrl base.text.toList text)).toOption := by
    unfold resolveUnder Url.parse
    dsimp only
    rw [String.toList_ofList, String.toList_ofList]
    cases Url.parseChars
      (joinUrl base.text.toList text) with
    | error error => rfl
    | ok url => rfl
  unfold resolve readText hasOwnHost Url.parse
  rw [String.toList_ofList]
  cases hParse : Url.parseChars text with
  | error error => exact hUnder
  | ok url =>
      change (if url.hasHost = true then _ else _ :
          Except ServiceError Url).toOption =
        (Url.parseChars
          (if url.hasHost = true then _ else _)).toOption
      split
      · rw [hParse]
        rfl
      · exact hUnder

variable {base : BaseUrl}

/- What keeps the host does not change where it is read. -/
theorem readText_append
    {front text : List Char}
    {mark : Char}
    (hMark : mark ≠ '/')
    (hSome : front ≠ [] ∨ mark = '?')
    (hHost :
      hasOwnHost (front ++ mark :: text) =
        hasOwnHost front) :
    readText base (front ++ mark :: text) =
      readText base front ++ mark :: text := by
  unfold readText
  rw [hHost]
  split
  · rfl
  · exact joinUrl_append base.text_ne_nil hMark hSome text

theorem untailed_readText
    (hBase : Url.Untailed base.text.toList)
    {text : List Char}
    (hText : Url.Untailed text) :
    Url.Untailed (readText base text) := by
  unfold readText
  split
  · exact hText
  · exact untailed_joinUrl hBase hText

theorem takesMark_readText
    (hBase : Url.Untailed base.text.toList)
    {front : List Char}
    {mark : Char}
    (h : Url.TakesMark front mark) :
    Url.TakesMark (readText base front) mark := by
  unfold readText
  split
  · exact h
  · exact h.joinUrl hBase

/- Without marks no query is read. -/
theorem query_of_resolve
    (hBase : Url.Untailed base.text.toList)
    {text : List Char}
    (hText : Url.Untailed text)
    {url : Url}
    (h :
      resolve (some base) (String.ofList text) = .ok url) :
    url.query = none := by
  have hRead := resolve_eq_readText base text
  rw [h] at hRead
  exact (Url.query_of_parseChars
    (untailed_readText hBase hText)
    (Fallible.eq_ok_of_toOption hRead.symm)).1

------------------------------------------------------------
-- Queries and Fragments that Go On
------------------------------------------------------------

/-
  What is appended to the query of a text is appended to that
  of its URL, and nothing else of the URL depends on it.
-/
theorem exists_resolve_query
    (hBase : Url.Untailed base.text.toList)
    {front : List Char}
    {mark : Char}
    (h : Url.TakesMark front mark) :
    ∃ (outcome : Option Url) (query : List Char),
      Url.Opens query ∧
      ∀ text, Url.Appendable text →
        (resolve (some base) (String.ofList
          (front ++ mark :: text))).toOption =
          outcome.map (·.withQuery (query ++ text)) := by
  rcases Url.exists_query_append h with
    ⟨own, query, hOpens, hOwn⟩
  rcases Url.exists_query_append (h.joinUrl hBase) with
    ⟨joined, more, hMore, hJoined⟩
  have hHost (text : List Char)
      (hText : Url.Appendable text) :
      hasOwnHost (front ++ mark :: text) =
        own.any Url.hasHost := by
    unfold hasOwnHost
    rw [hOwn text hText]
    cases own with
    | none => rfl
    | some url => rfl
  cases hAny : own.any Url.hasHost with
  | true =>
      refine ⟨own, query, hOpens, ?_⟩
      intro text hText
      rw [resolve_eq_readText]
      unfold readText
      rw [hHost text hText, hAny, if_pos rfl]
      exact hOwn text hText
  | false =>
      refine ⟨joined, more, hMore, ?_⟩
      intro text hText
      rw [resolve_eq_readText]
      unfold readText
      rw [hHost text hText, hAny,
        if_neg Bool.false_ne_true,
        joinUrl_append base.text_ne_nil h.ne_slash
          h.some_or]
      exact hJoined text hText

/-
  What is appended to the fragment of a text is part of the
  fragment of its URL, and of nothing else.
-/
theorem exists_resolve_fragment
    (base : BaseUrl)
    {front : List Char}
    (h : '#' ∈ front)
    {mark : Char}
    (hMark : Url.isOuterBlank mark = false)
    (hSlash : mark ≠ '/')
    {text : List Char}
    (hText : Url.Clear text) :
    ∃ fragment,
      (resolve (some base) (String.ofList
        (front ++ mark :: text))).toOption =
        (resolve (some base)
          (String.ofList front)).toOption.map fun url =>
            { url with fragment := fragment } := by
  have hHost :
      hasOwnHost (front ++ mark :: text) =
        hasOwnHost front := by
    rcases Url.exists_fragment_append h hMark hText with
      ⟨fragment, hOwn⟩
    unfold hasOwnHost
    rw [hOwn]
    cases (Url.parseChars front).toOption with
    | none => rfl
    | some url => rfl
  have hRead : '#' ∈ readText base front := by
    unfold readText
    split
    · exact h
    · exact (mem_joinUrl_iff (by decide) _ _).mpr (.inr h)
  rw [resolve_eq_readText, resolve_eq_readText,
    readText_append hSlash (.inl (List.ne_nil_of_mem h))
      hHost]
  exact Url.exists_fragment_append hRead hMark hText

------------------------------------------------------------
-- Texts that End Plainly
------------------------------------------------------------

/- Neither blanks nor user information end what is read. -/
structure EndsPlainly (base : BaseUrl) (text : List Char) :
    Prop where
  blank : Url.endsInBlank (readText base text) = false
  user : ¬Url.OpensUser (readText base text)

/- A text with a host ends in no open user information. -/
theorem not_opensUser_of_hasOwnHost
    {text : List Char}
    (h : hasOwnHost text = true) :
    ¬Url.OpensUser text := by
  rintro ⟨scheme, after, hScheme, hSpecial, hAfter⟩
  unfold hasOwnHost Url.parseChars at h
  rw [hScheme, hAfter] at h
  dsimp only at h
  rw [Url.parseAfterScheme_authority hSpecial] at h
  cases hRead : Url.parseAuthority scheme ['@'] with
  | error error =>
      rw [hRead] at h
      cases h
  | ok parts =>
      rcases parts with ⟨authority, left⟩
      rw [hRead] at h
      exact Url.host_ne_empty_of_hasHost h
        (Url.host_of_parseAuthority_at Text.stops_nil hRead)

/- A mark gives no host to a text unless blanks are before. -/
theorem hasOwnHost_mark
    {front : List Char}
    {mark : Char}
    (h : Url.TakesMark front mark)
    (hEnd :
      Url.endsInBlank (readText base front) = false) :
    hasOwnHost (front ++ [mark]) = hasOwnHost front := by
  by_cases hNone : front = []
  · subst hNone
    rcases h.some_or with hSome | hMark
    · exact absurd rfl hSome
    · subst hMark
      rfl
  rw [endsInBlank_readText base hNone] at hEnd
  by_cases hUser : Url.OpensUser front
  · have hOwn : hasOwnHost front = false := by
      rw [Bool.eq_false_iff]
      exact fun hOwn => not_opensUser_of_hasOwnHost hOwn hUser
    rw [hOwn]
    unfold hasOwnHost
    rw [Url.parseChars_mark_of_opensUser h hEnd hUser]
    rfl
  · unfold hasOwnHost
    rw [Url.parseChars_mark_of_plain h hEnd hUser]
    cases (Url.parseChars front).toOption with
    | none => rfl
    | some url => rfl

/-
  A mark at the end of a text that ends plainly leaves its
  URL as it is.
-/
theorem resolve_mark_of_plain
    (hBase : Url.Untailed base.text.toList)
    {front : List Char}
    {mark : Char}
    (h : Url.TakesMark front mark)
    (hEnd : EndsPlainly base front) :
    (resolve (some base)
        (String.ofList (front ++ [mark]))).toOption =
      (resolve (some base)
        (String.ofList front)).toOption.map
          (·.markedWith mark) := by
  rw [resolve_eq_readText, resolve_eq_readText,
    readText_append h.ne_slash h.some_or
      (hasOwnHost_mark h hEnd.blank)]
  exact Url.parseChars_mark_of_plain
    (takesMark_readText hBase h) hEnd.blank hEnd.user

end UriTemplate

end ServiceCalls
