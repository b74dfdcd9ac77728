import ServiceCalls.Proofs.Template.Resolution
import ServiceCalls.Proofs.Url.BlankEnds

/-
  Texts whose URL a mark leaves as it is end plainly.

  A mark keeps the blanks that end a text, and it is refused
  behind open user information.  Blanks may even give a host
  to the text or take it away, so that it is read by itself
  or behind the base.  In every case the URL has another
  host, another path or other pairs.

  Main declarations:
    * `Url.path_ne_of_host_lost`
    * `Url.path_ne_of_host_gained`
    * `UriTemplate.endsPlainly_of_mark`
-/

namespace ServiceCalls

namespace Url

------------------------------------------------------------
-- Texts Joined to a URL
------------------------------------------------------------

/- A text with a scheme starts with a letter or a blank. -/
theorem head_ne_of_splitScheme
    {text : List Char}
    {parts : String × List Char}
    (h : splitScheme (kept text) = some parts)
    {mark : Char}
    (hBlank : isOuterBlank mark = false)
    (hAlpha : mark.isAlpha = false) :
    text.head? ≠ some mark := by
  intro hHead
  rcases List.head?_eq_some_iff.mp hHead with ⟨rest, hRest⟩
  have hKept := kept_mark [] hBlank rest
  rw [List.filter_cons_of_pos] at hKept
  · rw [hRest] at h
    rw [List.nil_append] at hKept
    rw [hKept] at h
    have hLetter := alpha_of_splitScheme h
    rw [hAlpha] at hLetter
    cases hLetter
  · rw [not_isDropped_of_not_isOuterBlank hBlank]
    rfl

/- A text with a scheme follows one slash as it is. -/
theorem joinUrl_of_splitScheme
    {base text : List Char}
    (hBase : base ≠ [])
    {parts : String × List Char}
    (h : splitScheme (kept text) = some parts) :
    joinUrl base text = trimSlashes base ++ '/' :: text := by
  have hText : text ≠ [] := by
    intro hNone
    subst hNone
    cases h
  have hSlash : text.dropWhile (· == '/') = text := by
    apply Text.dropWhile_stops
    intro c hHead
    rw [beq_eq_false_iff_ne]
    intro hSame
    subst hSame
    exact head_ne_of_splitScheme h rfl rfl hHead
  rw [joinUrl_slash hBase hText
    (head_ne_of_splitScheme h rfl rfl)]
  unfold joinSlash
  rw [hSlash]
  rfl

/- What is not dropped of a text ends in what is kept. -/
theorem exists_filter_kept (text : List Char) :
    ∃ lead,
      (text.filter fun c => !isDropped c) =
        lead ++ kept text := by
  have hSplit := List.takeWhile_append_dropWhile
    (p := isOuterBlank) (l := text)
  refine ⟨(text.takeWhile isOuterBlank).filter
    fun c => !isDropped c, ?_⟩
  conv => lhs; rw [← hSplit]
  exact List.filter_append _ _

/- What comes behind a scheme ends in no blank. -/
theorem dropWhileEnd_of_splitScheme
    {text own : List Char}
    {scheme : String}
    (h : splitScheme (clean text) = some (scheme, own)) :
    Text.dropWhileEnd isOuterBlank own = own := by
  rcases exists_schemeName h with ⟨name, hClean, _, _⟩
  have hIdem := Text.dropWhileEnd_idem
    (p := isOuterBlank) (kept text)
  rw [← clean_eq, hClean,
    Text.dropWhileEnd_append_cons rfl,
    List.append_right_inj] at hIdem
  exact (List.cons.inj hIdem).2

/- A text with a scheme is kept whole behind a slash. -/
theorem exists_joinUrl_of_scheme
    {base text : List Char}
    (hBase : base ≠ [])
    {scheme : String}
    {own blanks : List Char}
    (hScheme :
      splitScheme (clean text) = some (scheme, own))
    (hKept : kept text = clean text ++ blanks)
    (hBlanks : Blanks blanks) :
    ∃ front more,
      clean (joinUrl base text) =
        front ++ '/' :: (more ++ own) ∧
      kept (joinUrl base text) =
        front ++ '/' :: (more ++ own) ++ blanks := by
  have hWhole :
      splitScheme (kept text) =
        some (scheme, own ++ blanks) := by
    rw [hKept, splitScheme_blanks hBlanks, hScheme]
    rfl
  rcases exists_schemeName hScheme with ⟨name, hClean, _, _⟩
  rcases exists_filter_kept text with ⟨lead, hFilter⟩
  have hJoined :
      kept (joinUrl base text) =
        kept (trimSlashes base) ++ '/' :: (lead ++ name) ++
          ':' :: own ++ blanks := by
    rw [joinUrl_of_splitScheme hBase hWhole, kept_mark _ rfl,
      List.filter_cons_of_pos rfl, hFilter, hKept, hClean]
    simp
  have hCleaned :
      clean (joinUrl base text) =
        kept (trimSlashes base) ++ '/' :: (lead ++ name) ++
          ':' :: own := by
    rw [clean_eq, hJoined,
      Text.dropWhileEnd_append_run hBlanks.outer,
      Text.dropWhileEnd_append_cons rfl,
      dropWhileEnd_of_splitScheme hScheme]
  refine ⟨kept (trimSlashes base), lead ++ name ++ [':'],
    ?_, ?_⟩
  · rw [hCleaned]
    simp
  · rw [hJoined]
    simp

/- A base goes on behind the scheme that is read first. -/
theorem exists_behind
    {front more own : List Char}
    {scheme : String}
    {after : List Char}
    (h :
      splitScheme (front ++ '/' :: (more ++ own)) =
        some (scheme, after)) :
    ∃ ahead, after = ahead ++ '/' :: (more ++ own) := by
  rw [splitScheme_mark rfl (by decide),
    Option.map_eq_some_iff] at h
  rcases h with ⟨⟨name, ahead⟩, _, hParts⟩
  exact ⟨ahead, (Prod.mk.inj hParts).2.symm⟩

variable [DomainNames]
variable {base text : List Char}
variable {before marked : Url}

/-
  A mark that takes its host from a text leads elsewhere:
  the text was read by itself and is read behind the base.
-/
theorem path_ne_of_host_lost
    (hSome : base ≠ [])
    (hBase : Untailed base)
    (hText : Untailed text)
    (hEnd : endsInBlank text = true)
    (hBefore : parseChars text = .ok before)
    (hHost : before.hasHost = true)
    (hMarked :
      parseChars (joinUrl base text ++ ['?']) = .ok marked)
    (hScheme : marked.scheme = before.scheme)
    (hSame : marked.host? = before.host?) :
    marked.path ≠ before.path := by
  rcases exists_parseAfterScheme hBefore with
    ⟨scheme, own, hSplit, hRead⟩
  have hKept : kept text ≠ [] := by
    intro hNone
    rw [clean_eq, hNone] at hSplit
    cases hSplit
  rcases exists_blanks hKept hEnd with
    ⟨blanks, hBlanks, hWhole⟩
  rcases exists_joinUrl_of_scheme hSome hSplit hWhole hBlanks
    with ⟨front, more, hClean, hJoined⟩
  have hTextSome : text ≠ [] := by
    intro hNone
    subst hNone
    cases hSplit
  have hJoinedEnd :=
    (UriTemplate.endsInBlank_joinUrl hSome hTextSome).trans
      hEnd
  rcases exists_of_question (untailed_joinUrl hBase hText)
    hJoinedEnd hMarked with
    ⟨others, name, after, url, _, hOthers, hName, hAfter,
      hUrl, hMarks⟩
  rw [hClean] at hOthers hName
  rw [hJoined, List.append_right_inj] at hOthers
  rcases exists_behind hName with ⟨ahead, hAhead⟩
  subst hMarks hOthers hAhead
  have hUrlHost : url.hasHost = true :=
    (congrArg Option.isSome hSame).trans hHost
  have hUrlScheme := scheme_of_parseAfterScheme hUrl hUrlHost
  have hNames : name = scheme :=
    hUrlScheme.symm.trans (hScheme.trans
      (scheme_of_parseAfterScheme hRead hHost))
  subst hNames
  have hOwn : Untailed own := fun c hMem => hAfter c
    (List.mem_append_right _ (List.mem_cons_of_mem _
      (List.mem_append_right _ hMem)))
  have hPath :=
    path_ne_of_lost hBlanks hOwn hAfter hRead hHost hUrl
  exact hPath

/-
  A mark that gives a host to a text leads elsewhere: the
  text was read behind the base and is read by itself.
-/
theorem path_ne_of_host_gained
    (hSome : base ≠ [])
    (hBase : Untailed base)
    (hText : Untailed text)
    (hEnd : endsInBlank text = true)
    (hNone :
      ∀ url, parseChars text = .ok url →
        url.hasHost = false)
    (hBefore : parseChars (joinUrl base text) = .ok before)
    (hMarked : parseChars (text ++ ['?']) = .ok marked)
    (hHost : marked.hasHost = true)
    (hScheme : marked.scheme = before.scheme)
    (hSame : marked.host? = before.host?) :
    marked.path ≠ before.path := by
  rcases exists_of_question hText hEnd hMarked with
    ⟨blanks, scheme, own, url, hBlanks, hWhole, hSplit, hOwn,
      hUrl, hMarks⟩
  subst hMarks
  rcases exists_joinUrl_of_scheme hSome hSplit hWhole hBlanks
    with ⟨front, more, hClean, _⟩
  rcases exists_parseAfterScheme hBefore with
    ⟨name, after, hName, hRead⟩
  have hUrlHost : url.hasHost = true := hHost
  have hBeforeHost : before.hasHost = true :=
    (congrArg Option.isSome hSame).symm.trans hHost
  have hUrlScheme := scheme_of_parseAfterScheme hUrl hUrlHost
  have hNames : name = scheme :=
    (scheme_of_parseAfterScheme hRead hBeforeHost).symm.trans
      (hScheme.symm.trans hUrlScheme)
  subst hNames
  have hAfter := (untailed_joinUrl hBase hText).clean.behind
    hName
  rw [hClean] at hName
  rcases exists_behind hName with ⟨ahead, hAhead⟩
  subst hAhead
  have hAlone (other : Url)
      (hOther : parseAfterScheme name own = .ok other) :
      other.hasHost = false := by
    apply hNone
    unfold parseChars
    rw [hSplit]
    exact hOther
  have hPath := path_ne_of_gained hBlanks hOwn hAfter hAlone
    hRead hUrl hUrlHost hBeforeHost
  exact hPath

end Url

namespace UriTemplate

------------------------------------------------------------
-- Marks that Leave a URL as It Is
------------------------------------------------------------

variable [DomainNames]

/- Blanks of a query do not decide where it is read. -/
theorem hasOwnHost_and
    {text : List Char}
    (h : Url.TakesMark text '&')
    (hEnd : Url.endsInBlank text = true) :
    hasOwnHost (text ++ ['&']) = hasOwnHost text := by
  rcases Url.exists_of_and h hEnd with
    ⟨outcome, query, blanks, _, hText, hMarked⟩
  unfold hasOwnHost
  rw [hText, hMarked]
  cases outcome with
  | none => rfl
  | some url => rfl

variable {base : BaseUrl}
variable {text : List Char}
variable {before marked : Url}

/- Behind blanks the mark of a query changes host or path. -/
theorem path_ne_of_blank_question
    (hBase : Url.Untailed base.text.toList)
    (hText : Url.Untailed text)
    (hEnd : Url.endsInBlank (readText base text) = true)
    (hBefore :
      Url.parseChars (readText base text) = .ok before)
    (hMarked :
      Url.parseChars (readText base (text ++ ['?'])) =
        .ok marked)
    (hScheme : marked.scheme = before.scheme)
    (hHost : marked.host? = before.host?) :
    marked.path ≠ before.path := by
  have hJoin :
      joinUrl base.text.toList (text ++ ['?']) =
        joinUrl base.text.toList text ++ ['?'] :=
    joinUrl_append base.text_ne_nil (by decide) (.inr rfl) []
  cases hOwn : hasOwnHost text with
  | true =>
      have hRead := readText_of_own base hOwn
      rw [hRead] at hBefore hEnd
      cases hBoth : hasOwnHost (text ++ ['?']) with
      | true =>
          rw [readText_of_own base hBoth] at hMarked
          exact Url.path_ne_of_question hText hEnd hBefore
            hMarked hHost
      | false =>
          rw [readText_of_not_own base hBoth, hJoin]
            at hMarked
          have hOwnHost : before.hasHost = true := by
            unfold hasOwnHost at hOwn
            rw [hBefore] at hOwn
            exact hOwn
          exact Url.path_ne_of_host_lost base.text_ne_nil
            hBase hText hEnd hBefore hOwnHost hMarked hScheme
            hHost
  | false =>
      have hRead := readText_of_not_own base hOwn
      cases hBoth : hasOwnHost (text ++ ['?']) with
      | true =>
          have hSome : text ≠ [] := by
            intro hNone
            rw [hNone] at hBoth
            cases hBoth
          rw [endsInBlank_readText base hSome] at hEnd
          rw [hRead] at hBefore
          rw [readText_of_own base hBoth] at hMarked
          have hNone (url : Url)
              (hUrl : Url.parseChars text = .ok url) :
              url.hasHost = false := by
            unfold hasOwnHost at hOwn
            rw [hUrl] at hOwn
            exact hOwn
          have hMarkedHost : marked.hasHost = true := by
            unfold hasOwnHost at hBoth
            rw [hMarked] at hBoth
            exact hBoth
          exact Url.path_ne_of_host_gained base.text_ne_nil
            hBase hText hEnd hNone hBefore hMarked hMarkedHost
            hScheme hHost
      | false =>
          rw [hRead] at hBefore hEnd
          rw [readText_of_not_own base hBoth, hJoin]
            at hMarked
          exact Url.path_ne_of_question
            (untailed_joinUrl hBase hText) hEnd hBefore
            hMarked hHost

/- Behind blanks the mark between pairs changes the pairs. -/
theorem pairs_ne_of_blank_and
    (hBase : Url.Untailed base.text.toList)
    (h : Url.TakesMark text '&')
    (hEnd : Url.endsInBlank (readText base text) = true)
    (hBefore :
      Url.parseChars (readText base text) = .ok before)
    (hMarked :
      Url.parseChars (readText base (text ++ ['&'])) =
        .ok marked) :
    marked.pairs ≠ before.pairs := by
  have hSome : text ≠ [] := by
    rcases h.some_or with hSome | hOther
    · exact hSome
    · exact absurd hOther (by decide)
  have hOwnEnd := hEnd
  rw [endsInBlank_readText base hSome] at hOwnEnd
  rw [readText_append (by decide) (.inl hSome)
    (hasOwnHost_and h hOwnEnd)] at hMarked
  exact Url.pairs_ne_of_and (takesMark_readText hBase h) hEnd
    hBefore hMarked

/-
  A text ends plainly if a mark at its end leaves its URL as
  it is.
-/
theorem endsPlainly_of_mark
    (hBase : Url.Untailed base.text.toList)
    {mark : Char}
    (h : Url.TakesMark text mark)
    (hBefore :
      resolve (some base) (String.ofList text) = .ok before)
    (hMarked :
      resolve (some base) (String.ofList (text ++ [mark])) =
        .ok marked)
    (hScheme : marked.scheme = before.scheme)
    (hHost : marked.host? = before.host?)
    (hPath : marked.path = before.path)
    (hPairs : marked.pairs = before.pairs) :
    EndsPlainly base text := by
  have hRead := resolve_eq_readText base text
  have hMarkedRead := resolve_eq_readText base (text ++ [mark])
  rw [hBefore] at hRead
  rw [hMarked] at hMarkedRead
  have hParse := Fallible.eq_ok_of_toOption hRead.symm
  have hMarkedParse :=
    Fallible.eq_ok_of_toOption hMarkedRead.symm
  have hBlank :
      Url.endsInBlank (readText base text) = false := by
    rw [Bool.eq_false_iff]
    intro hEnd
    rcases h.cases with ⟨hMark, hText⟩ | ⟨hMark, _⟩
    · subst hMark
      exact path_ne_of_blank_question hBase hText hEnd hParse
        hMarkedParse hScheme hHost hPath
    · subst hMark
      exact pairs_ne_of_blank_and hBase h hEnd hParse
        hMarkedParse hPairs
  refine ⟨hBlank, ?_⟩
  intro hUser
  rw [readText_append h.ne_slash h.some_or
    (hasOwnHost_mark h hBlank),
    Url.parseChars_mark_of_opensUser
      (takesMark_readText hBase h) hBlank hUser]
    at hMarkedRead
  cases hMarkedRead

end UriTemplate

end ServiceCalls
