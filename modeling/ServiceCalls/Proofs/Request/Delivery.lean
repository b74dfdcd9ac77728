import ServiceCalls.Exchange.Adapter
import ServiceCalls.Proofs.Request.QueryVariables
import ServiceCalls.Proofs.Template.PlainEnds

/-
  Where parameters of a request arrive.

  Parameters are delivered when they come after the pairs of
  the target in the query and nothing else of the URL
  changes.  The pairs of a URL always arrive.  The text of a
  template is only added to, so that a fragment takes what
  follows it, a question mark in a name is taken for the
  start of a query, and blanks at the end become part of the
  URL.

  Key definitions include:
    * `Url.Delivers`
    * `RequestDraft.sentTo`
    * `UriTemplate.TakesPairs`
    * `RequestDraft.TakesParameters`

  Main declarations:
    * `Url.delivers_appendPairs`
    * `UriTemplate.delivered_addedText_iff`
    * `RequestDraft.delivered_iff`
-/

namespace ServiceCalls

------------------------------------------------------------
-- Delivered Pairs
------------------------------------------------------------

namespace Url

/- The URL after pairs were added to that before. -/
structure Delivers
    (before after : Url)
    (added : List (String × String)) :
    Prop where
  scheme : after.scheme = before.scheme
  host : after.host? = before.host?
  path : after.path = before.path
  fragment : after.fragment = before.fragment
  pairs : after.pairs = before.pairs ++ added

theorem delivers_nil (url : Url) :
    Delivers url url [] :=
  ⟨rfl, rfl, rfl, rfl, (List.append_nil _).symm⟩

/- Pairs that are added to a URL arrive. -/
theorem delivers_appendPairs
    (url : Url)
    (added : List (String × String)) :
    Delivers url (url.appendPairs added) added :=
  ⟨rfl, rfl, rfl, rfl, pairs_appendPairs url added⟩

theorem delivers_markedWith
    (mark : Char)
    (url : Url) :
    Delivers url (url.markedWith mark) [] := by
  refine ⟨rfl, rfl, rfl, rfl, ?_⟩
  rw [pairs_markedWith, List.append_nil]

/- Of two URLs that differ in the query one delivers less. -/
theorem delivers_withQuery_iff
    {before url : Url}
    {query : List Char}
    (hQuery : Opens query)
    (added : List (String × String)) :
    Delivers before
        (url.withQuery (query ++ pairsText added)) added ↔
      Delivers before (url.withQuery query) [] := by
  have hPairs :
      (url.withQuery (query ++ pairsText added)).pairs =
        (url.withQuery query).pairs ++ added := by
    rw [pairs_withQuery, pairs_withQuery,
      hQuery.formDecode_append, formDecode_pairsText]
  constructor
  · intro h
    have hSame := h.pairs
    rw [hPairs, List.append_left_inj] at hSame
    refine ⟨h.scheme, h.host, h.path, h.fragment, ?_⟩
    rw [hSame, List.append_nil]
  · intro h
    have hSame := h.pairs
    rw [List.append_nil] at hSame
    refine ⟨h.scheme, h.host, h.path, h.fragment, ?_⟩
    rw [hPairs, hSame]

theorem appendable_pairsText
    (added : List (String × String)) :
    Appendable (pairsText added) := by
  have hComponent (pair : String × String) :
      Appendable (componentPair pair) := by
    intro c hMem
    rcases List.mem_append.mp hMem with hName | hMem
    · exact .inl (Text.isComponentChar_of_mem hName)
    · rcases List.mem_cons.mp hMem with hEqual | hValue
      · exact .inr (.inl hEqual)
      · exact .inl (Text.isComponentChar_of_mem hValue)
  induction added with
  | nil =>
      intro c hMem
      cases hMem
  | cons pair rest ih =>
      cases rest with
      | nil => exact hComponent pair
      | cons next more =>
          intro c hMem
          rcases List.mem_append.mp hMem with hHere | hMem
          · exact hComponent pair c hHere
          · rcases List.mem_cons.mp hMem with hMark | hMem
            · exact .inr (.inr hMark)
            · exact ih c hMem

end Url

------------------------------------------------------------
-- Pairs Added to a Text
------------------------------------------------------------

namespace UriTemplate

variable {template text : List Char}
variable {uriVariables : List (String × String)}

theorem querySeparator_eq (template : List Char) :
    querySeparator template = '?' ∨
      querySeparator template = '&' := by
  unfold querySeparator
  split
  · exact .inr rfl
  · exact .inl rfl

/- Pairs are added behind one mark. -/
theorem addedText_of_ne_nil
    (mark : Char)
    {added : List (String × String)}
    (h : added ≠ []) :
    addedText mark added = mark :: Url.pairsText added := by
  cases added with
  | nil => exact absurd rfl h
  | cons pair rest => rfl

/- A question mark in the text is one of the template. -/
theorem takesMark_querySeparator
    (hText :
      expandPieces uriVariables (pieces template) =
        .ok text)
    (hFragment : Piece.plain '#' ∉ pieces template)
    (hQuery :
      '?' ∈ template → Piece.plain '?' ∈ pieces template) :
    Url.TakesMark text (querySeparator template) := by
  have hHash := mem_expandPieces_iff (c := '#') rfl hText
  have hQuestion := mem_expandPieces_iff (c := '?') rfl hText
  constructor
  · rw [hHash]
    exact hFragment
  · unfold querySeparator
    split
    · next hHas =>
        rw [hQuestion]
        exact .inr
          ⟨rfl, hQuery (List.contains_iff_mem.mp hHas)⟩
    · next hNone =>
        refine .inl ⟨rfl, ?_⟩
        rw [hQuestion]
        intro hPlain
        exact hNone (List.contains_iff_mem.mpr
          (mem_of_plain_mem hPlain))

variable [DomainNames]

/-
  A template whose text takes pairs under a base.  Neither a
  fragment nor a mark in a name comes before the pairs, and
  the text ends plainly.
-/
structure TakesPairs
    (base : BaseUrl)
    (template text : List Char) :
    Prop where
  fragment : Piece.plain '#' ∉ pieces template
  query : '?' ∈ template → Piece.plain '?' ∈ pieces template
  plain : EndsPlainly base text

variable {base : BaseUrl}

/- Pairs behind a fragment are part of the fragment. -/
theorem fragment_of_delivers
    {before after : Url}
    (hBefore :
      resolve (some base) (String.ofList text) = .ok before)
    {mark : Char}
    (hMark : mark = '?' ∨ mark = '&')
    {added : List (String × String)}
    (hSome : added ≠ [])
    (hAfter :
      resolve (some base) (String.ofList
        (text ++ mark :: Url.pairsText added)) = .ok after)
    (hDelivers : before.Delivers after added) :
    '#' ∉ text := by
  intro hHash
  have hPlain :
      Url.isOuterBlank mark = false ∧ mark ≠ '/' := by
    rcases hMark with hMark | hMark
    · subst hMark
      decide
    · subst hMark
      decide
  rcases exists_resolve_fragment base hHash hPlain.1
    hPlain.2 (Url.appendable_pairsText added).clear with
    ⟨fragment, hSame⟩
  rw [hAfter, hBefore] at hSame
  have hUrl := Option.some.inj hSame
  have hPairs := hDelivers.pairs
  rw [hUrl] at hPairs
  exact hSome (List.self_eq_append_right.mp hPairs)

/- Pairs behind a text without a query are in its path. -/
theorem query_of_delivers
    (hBase : Url.Untailed base.text.toList)
    (hFragment : '#' ∉ text)
    {added : List (String × String)}
    (hSome : added ≠ [])
    {before after : Url}
    (hAfter :
      resolve (some base) (String.ofList
        (text ++ '&' :: Url.pairsText added)) = .ok after)
    (hDelivers : before.Delivers after added) :
    '?' ∈ text := by
  apply Decidable.byContradiction
  intro hNone
  have hText : Url.Untailed text := by
    intro c hMem
    constructor
    · intro hSame
      exact hNone (hSame ▸ hMem)
    · intro hSame
      exact hFragment (hSame ▸ hMem)
  have hMark : Url.Untailed ['&'] := by
    intro c hMem
    rw [List.mem_singleton.mp hMem]
    decide
  have hAll : Url.Untailed
      (text ++ '&' :: Url.pairsText added) :=
    hText.append (hMark.append
      (Url.appendable_pairsText added).clear.untailed)
  have hPairs := hDelivers.pairs
  unfold Url.pairs at hPairs
  rw [query_of_resolve hBase hAll hAfter] at hPairs
  exact hSome (List.append_eq_nil_iff.mp hPairs.symm).2

/- Pairs behind a mark arrive when it changes nothing. -/
theorem delivered_mark_iff
    (hBase : Url.Untailed base.text.toList)
    {mark : Char}
    (hTakes : Url.TakesMark text mark)
    (before : Url)
    (added : List (String × String)) :
    (∃ after,
      resolve (some base) (String.ofList
        (text ++ mark :: Url.pairsText added)) =
          .ok after ∧
      before.Delivers after added) ↔
      ∃ marked,
        resolve (some base)
          (String.ofList (text ++ [mark])) = .ok marked ∧
        before.Delivers marked [] := by
  rcases exists_resolve_query hBase hTakes with
    ⟨outcome, query, hOpens, hOutcome⟩
  have hAfter := hOutcome _
    (Url.appendable_pairsText added)
  have hMarked := hOutcome _
    (Url.appendable_pairsText [])
  change (resolve (some base)
    (String.ofList (text ++ [mark]))).toOption = _ at hMarked
  rw [Url.pairsText, List.append_nil] at hMarked
  cases outcome with
  | none =>
      constructor
      · rintro ⟨after, hRead, _⟩
        rw [hRead] at hAfter
        cases hAfter
      · rintro ⟨marked, hRead, _⟩
        rw [hRead] at hMarked
        cases hMarked
  | some url =>
      rw [Fallible.eq_ok_of_toOption hAfter,
        Fallible.eq_ok_of_toOption hMarked]
      simp only [Except.ok.injEq, exists_eq_left']
      exact Url.delivers_withQuery_iff hOpens added

/- A mark changes nothing when the text ends plainly. -/
theorem delivers_mark_iff
    (hBase : Url.Untailed base.text.toList)
    {mark : Char}
    (hTakes : Url.TakesMark text mark)
    {before : Url}
    (hBefore :
      resolve (some base) (String.ofList text) =
        .ok before) :
    (∃ marked,
      resolve (some base)
        (String.ofList (text ++ [mark])) = .ok marked ∧
      before.Delivers marked []) ↔
      EndsPlainly base text := by
  constructor
  · rintro ⟨marked, hMarked, hDelivers⟩
    have hPairs := hDelivers.pairs
    rw [List.append_nil] at hPairs
    exact endsPlainly_of_mark hBase hTakes hBefore hMarked
      hDelivers.scheme hDelivers.host hDelivers.path hPairs
  · intro hEnd
    have hMarked := resolve_mark_of_plain hBase hTakes hEnd
    rw [hBefore] at hMarked
    exact ⟨_, Fallible.eq_ok_of_toOption hMarked,
      Url.delivers_markedWith mark before⟩

/-
  Pairs that are added to the text of a template arrive
  exactly when the template takes them.
-/
theorem delivered_addedText_iff
    (hBase : Url.Untailed base.text.toList)
    (hText :
      expandPieces uriVariables (pieces template) =
        .ok text)
    {before : Url}
    (hBefore :
      resolve (some base) (String.ofList text) = .ok before)
    {added : List (String × String)}
    (hSome : added ≠ []) :
    (∃ after,
      resolve (some base) (String.ofList
        (text ++ addedText (querySeparator template)
          added)) = .ok after ∧
      before.Delivers after added) ↔
      TakesPairs base template text := by
  rw [addedText_of_ne_nil (querySeparator template) hSome]
  constructor
  · intro hDelivered
    rcases hDelivered with ⟨after, hAfter, hDelivers⟩
    have hHash := fragment_of_delivers hBefore
      (querySeparator_eq template) hSome hAfter hDelivers
    have hFragment : Piece.plain '#' ∉ pieces template := by
      rw [← mem_expandPieces_iff rfl hText]
      exact hHash
    have hQuery
        (hHas : '?' ∈ template) :
        Piece.plain '?' ∈ pieces template := by
      rw [← mem_expandPieces_iff rfl hText]
      unfold querySeparator at hAfter
      rw [if_pos (List.contains_iff_mem.mpr hHas)] at hAfter
      exact query_of_delivers hBase hHash hSome hAfter
        hDelivers
    have hTakes :=
      takesMark_querySeparator hText hFragment hQuery
    exact ⟨hFragment, hQuery,
      (delivers_mark_iff hBase hTakes hBefore).mp
        ((delivered_mark_iff hBase hTakes before added).mp
          ⟨after, hAfter, hDelivers⟩)⟩
  · intro h
    have hTakes :=
      takesMark_querySeparator hText h.fragment h.query
    rw [delivered_mark_iff hBase hTakes,
      delivers_mark_iff hBase hTakes hBefore]
    exact h.plain

/- A text that takes pairs leads somewhere without them. -/
theorem exists_resolve_of_addedText
    (hBase : Url.Untailed base.text.toList)
    (hText :
      expandPieces uriVariables (pieces template) =
        .ok text)
    (h : TakesPairs base template text)
    {added : List (String × String)}
    (hSome : added ≠ [])
    {after : Url}
    (hAfter :
      resolve (some base) (String.ofList
        (text ++ addedText (querySeparator template)
          added)) = .ok after) :
    ∃ before,
      resolve (some base) (String.ofList text) =
        .ok before := by
  have hTakes :=
    takesMark_querySeparator hText h.fragment h.query
  have hMarked := resolve_mark_of_plain hBase hTakes h.plain
  rcases exists_resolve_query hBase hTakes with
    ⟨outcome, query, _, hOutcome⟩
  have hAdding := hOutcome _
    (Url.appendable_pairsText added)
  have hNothing := hOutcome []
    (Url.appendable_pairsText [])
  rw [addedText_of_ne_nil (querySeparator template) hSome]
    at hAfter
  rw [hAfter] at hAdding
  rw [hMarked] at hNothing
  cases outcome with
  | none => cases hAdding
  | some url =>
      rcases Option.map_eq_some_iff.mp hNothing with
        ⟨before, hBefore, _⟩
      exact ⟨before, Fallible.eq_ok_of_toOption hBefore⟩

/- A template whose pieces have a text leads there. -/
theorem expand_of_expandPieces
    (hText :
      expandPieces uriVariables (pieces template) =
        .ok text)
    (base? : Option BaseUrl) :
    expand base? (String.ofList template) uriVariables =
      resolve base? (String.ofList text) := by
  unfold expand expandText
  rw [String.toList_ofList, hText]
  rfl

theorem expandPieces_of_expand
    {base? : Option BaseUrl}
    {whole : String}
    {url : Url}
    (h : expand base? whole uriVariables = .ok url) :
    ∃ text,
      expandPieces uriVariables (pieces whole.toList) =
        .ok text ∧
      resolve base? (String.ofList text) = .ok url := by
  rcases Fallible.bind_eq_ok h with ⟨found, hFound, hUrl⟩
  unfold expandText at hFound
  split at hFound
  · next text hText =>
      cases hFound
      exact ⟨text, hText, hUrl⟩
  · cases hFound

end UriTemplate

------------------------------------------------------------
-- Parameters of Requests
------------------------------------------------------------

namespace RequestDraft

section

variable [DomainNames]

/- The URL that a client sends a request to. -/
def sentTo (draft : RequestDraft) (client : Client) :
    Except ServiceError Url :=
  draft.build >>= client.resolveTarget

/- The draft without its parameters. -/
def bare (draft : RequestDraft) : RequestDraft :=
  { draft with parameters := [] }

/- How the parameters of a request come to arrive. -/
inductive TakesParameters
    (base : BaseUrl)
    (draft : RequestDraft) :
    Prop where
| none
    (hNone : draft.parameters = [])
| absolute
    (url : Url)
    (hTarget : draft.target = some (.absolute url))
| template
    (template : String)
    (text : List Char)
    (hTarget : draft.target = some (.template template))
    (hText :
      UriTemplate.expandPieces draft.variables
        (UriTemplate.pieces template.toList) = .ok text)
    (hTakes :
      UriTemplate.TakesPairs base template.toList text)

variable {draft : RequestDraft}
variable {client : Client}

theorem method_of_sentTo
    {url : Url}
    (h : draft.sentTo client = .ok url) :
    ∃ method, draft.method = some method := by
  rcases Fallible.bind_eq_ok h with ⟨values, hValues, _⟩
  unfold build at hValues
  split at hValues
  · cases hValues
  · next method hMethod => exact ⟨method, hMethod⟩

/- Where a request without parameters goes. -/
theorem sentTo_of_nil
    {method : Method}
    (hMethod : draft.method = some method)
    (hNone : draft.parameters = []) :
    draft.sentTo client =
      match draft.target with
      | some (.absolute url) => .ok url
      | some (.template text) =>
          UriTemplate.expand client.base? text
            draft.variables
      | none => .error Client.noTarget := by
  unfold sentTo build
  rw [hMethod, hNone]
  rfl

/- Where a request goes that parameters are added to. -/
theorem sentTo_of_parameters
    {method : Method}
    (hMethod : draft.method = some method)
    (hForm : isForm draft.headers = false)
    (hSome : draft.parameters ≠ []) :
    draft.sentTo client =
      match withQuery draft.target draft.variables
          draft.parameters with
      | (.absolute url, _) => .ok url
      | (.template text, uriVariables) =>
          UriTemplate.expand client.base? text
            uriVariables := by
  have hEmpty : draft.parameters.isEmpty = false :=
    List.isEmpty_eq_false_iff.mpr hSome
  unfold sentTo build
  rw [hMethod]
  dsimp only
  rw [hEmpty, hForm, if_neg Bool.false_ne_true,
    if_neg Bool.false_ne_true]
  rcases withQuery draft.target draft.variables
    draft.parameters with ⟨target, uriVariables⟩
  cases target with
  | absolute url => rfl
  | template text => rfl

/- Parameters of a template are pairs added to its text. -/
theorem delivered_template_iff
    {method : Method}
    (hMethod : draft.method = some method)
    (hForm : isForm draft.headers = false)
    (hSome : draft.parameters ≠ [])
    {template : String}
    (hTarget : draft.target = some (.template template))
    {base : BaseUrl}
    (hBase : client.base? = some base)
    (hUntailed : Url.Untailed base.text.toList)
    {text : List Char}
    (hText :
      UriTemplate.expandPieces draft.variables
        (UriTemplate.pieces template.toList) = .ok text)
    {before : Url}
    (hBefore :
      UriTemplate.resolve (some base) (String.ofList text) =
        .ok before) :
    (∃ after,
      draft.sentTo client = .ok after ∧
      before.Delivers after draft.parameters) ↔
      UriTemplate.TakesPairs base template.toList text := by
  have hAdded := UriTemplate.expandPieces_appendQuery hText
    0 draft.parameters
  rw [sentTo_of_parameters hMethod hForm hSome, hTarget]
  unfold withQuery
  dsimp only
  rw [UriTemplate.expand_of_expandPieces hAdded, hBase]
  exact UriTemplate.delivered_addedText_iff hUntailed hText
    hBefore hSome

/- A target takes parameters exactly when they arrive. -/
theorem takesParameters_iff
    {base : BaseUrl}
    (hUntailed : Url.Untailed base.text.toList)
    (hBase :
      ∀ text, draft.target = some (.template text) →
        client.base? = some base)
    (hForm : isForm draft.headers = false)
    {before : Url}
    (hBefore : draft.bare.sentTo client = .ok before)
    (hNone : draft.parameters ≠ []) :
    TakesParameters base draft ↔
      ∃ after,
        draft.sentTo client = .ok after ∧
        before.Delivers after draft.parameters := by
  rcases method_of_sentTo hBefore with ⟨method, hBare⟩
  have hMethod : draft.method = some method := hBare
  rw [sentTo_of_nil hBare rfl] at hBefore
  unfold bare at hBefore
  dsimp only at hBefore
  cases hTarget : draft.target with
  | none =>
      rw [hTarget] at hBefore
      cases hBefore
  | some target =>
      rw [hTarget] at hBefore
      cases target with
      | absolute url =>
          cases hBefore
          rw [sentTo_of_parameters hMethod hForm hNone,
            hTarget]
          constructor
          · exact fun _ => ⟨_, rfl,
              Url.delivers_appendPairs before _⟩
          · exact fun _ => .absolute before hTarget
      | template template =>
          have hClient := hBase template hTarget
          rw [hClient] at hBefore
          rcases UriTemplate.expandPieces_of_expand hBefore
            with ⟨text, hText, hResolve⟩
          rw [delivered_template_iff hMethod hForm hNone
            hTarget hClient hUntailed hText hResolve]
          constructor
          · intro h
            cases h with
            | none hNil => exact absurd hNil hNone
            | absolute url hOther =>
                rw [hTarget] at hOther
                cases hOther
            | template other found hOther hFound hTakes =>
                rw [hTarget] at hOther
                cases hOther
                rw [hText] at hFound
                cases hFound
                exact hTakes
          · exact fun hTakes =>
              .template template text hTarget hText hTakes

/- A target that takes parameters leads somewhere bare. -/
theorem exists_bare_sentTo
    {base : BaseUrl}
    (hUntailed : Url.Untailed base.text.toList)
    (hBase :
      ∀ text, draft.target = some (.template text) →
        client.base? = some base)
    (hForm : isForm draft.headers = false)
    (hNone : draft.parameters ≠ [])
    (h : TakesParameters base draft)
    {after : Url}
    (hAfter : draft.sentTo client = .ok after) :
    ∃ before, draft.bare.sentTo client = .ok before := by
  rcases method_of_sentTo hAfter with ⟨method, hMethod⟩
  have hBare : draft.bare.method = some method := hMethod
  rw [sentTo_of_nil hBare rfl]
  unfold bare
  dsimp only
  cases h with
  | none hNil => exact absurd hNil hNone
  | absolute url hTarget =>
      rw [hTarget]
      exact ⟨url, rfl⟩
  | template template text hTarget hText hTakes =>
      have hAdded := UriTemplate.expandPieces_appendQuery
        hText 0 draft.parameters
      rw [sentTo_of_parameters hMethod hForm hNone, hTarget]
        at hAfter
      unfold withQuery at hAfter
      dsimp only at hAfter
      rw [UriTemplate.expand_of_expandPieces hAdded,
        hBase template hTarget] at hAfter
      rcases UriTemplate.exists_resolve_of_addedText hUntailed
        hText hTakes hNone hAfter with ⟨before, hBefore⟩
      have hExpand :=
        UriTemplate.expand_of_expandPieces hText (some base)
      rw [String.ofList_toList, hBefore] at hExpand
      rw [hTarget, hBase template hTarget]
      exact ⟨before, hExpand⟩

/-
  Parameters that are no form fields are delivered exactly
  when the target takes them.
-/
theorem delivered_iff
    {base : BaseUrl}
    {home : Url}
    (hHome : Url.parse base.text = .ok home)
    (hQuery : home.query = none)
    (hFragment : home.fragment = none)
    (hBase :
      ∀ text, draft.target = some (.template text) →
        client.base? = some base)
    (hForm : isForm draft.headers = false)
    {before : Url}
    (hBefore : draft.bare.sentTo client = .ok before) :
    (∃ after,
      draft.sentTo client = .ok after ∧
      before.Delivers after draft.parameters) ↔
      TakesParameters base draft := by
  have hUntailed :=
    Url.untailed_of_parseChars hHome hQuery hFragment
  by_cases hNone : draft.parameters = []
  · refine iff_of_true ⟨before, ?_, ?_⟩ (.none hNone)
    · have hSame : draft.bare = draft := by
        unfold bare
        rw [← hNone]
      rw [← hSame]
      exact hBefore
    · rw [hNone]
      exact Url.delivers_nil before
  · exact (takesParameters_iff hUntailed hBase hForm hBefore
      hNone).symm

end

------------------------------------------------------------
-- A Fragment that Takes a Parameter
------------------------------------------------------------

open PlainNames

/- A client of the API of a host. -/
def localClient : Client where
  base? := some UriTemplate.localApi
  defaultHeaders := .empty
  defaultCookies := []
  interceptors := []
  transport := .given

/- A search with one parameter in its template. -/
def searchDraft : RequestDraft :=
  { empty with
    method := some .get
    target := some (.template "/find?in=\x7bplace\x7d")
    «variables» := [("place", "a?b")]
    parameters := [("q", "x&y z"), ("q", "é")] }

/- Where the search goes without more parameters. -/
def searchUrl : Url :=
  { UriTemplate.localHome with
    path := .segments ["api", "find"]
    query := some "in=a%3Fb" }

theorem sentTo_search :
    searchDraft.bare.sentTo localClient = .ok searchUrl :=
  Fallible.eq_ok_of_toOption (by decide +kernel)

theorem expandPieces_search :
    UriTemplate.expandPieces searchDraft.variables
        (UriTemplate.pieces
          "/find?in=\x7bplace\x7d".toList) =
      .ok "/find?in=a%3Fb".toList :=
  Fallible.eq_ok_of_toOption (by decide +kernel)

theorem endsPlainly_search :
    UriTemplate.EndsPlainly UriTemplate.localApi
      "/find?in=a%3Fb".toList := by
  refine ⟨by decide +kernel, ?_⟩
  rintro ⟨scheme, after, hScheme, hOpen⟩
  have hRead :
      Url.splitScheme (Url.clean (UriTemplate.readText
          UriTemplate.localApi "/find?in=a%3Fb".toList)) =
        some ("http",
          "//localhost/api/find?in=a%3Fb".toList) := by
    decide +kernel
  rw [hRead] at hScheme
  cases hScheme
  exact absurd hOpen.1 (by decide)

/- A question mark in a value does not matter. -/
theorem delivered_search :
    ∃ after,
      searchDraft.sentTo localClient = .ok after ∧
      searchUrl.Delivers after
        [("q", "x&y z"), ("q", "é")] := by
  refine (delivered_iff UriTemplate.parse_localApi rfl rfl
    (fun _ _ => rfl) (by decide) sentTo_search).mpr ?_
  refine .template _ _ rfl expandPieces_search ?_
  exact ⟨by decide +kernel, by decide +kernel,
    endsPlainly_search⟩

/- A request for a part of a page. -/
def partDraft : RequestDraft :=
  { empty with
    method := some .get
    target := some (.template "/page#part")
    parameters := [("q", "1")] }

/- Where the part of the page is. -/
def partUrl : Url :=
  { UriTemplate.localHome with
    path := .segments ["api", "page"]
    fragment := some "part" }

theorem bare_sentTo_part :
    partDraft.bare.sentTo localClient = .ok partUrl :=
  Fallible.eq_ok_of_toOption (by decide +kernel)

theorem sentTo_part :
    partDraft.sentTo localClient =
      .ok { partUrl with fragment := some "part?q=1" } :=
  Fallible.eq_ok_of_toOption (by decide +kernel)

/- Not every parameter arrives in a query. -/
theorem parameters_not_always_delivered :
    ¬∀ (base : BaseUrl)
        (home : Url)
        (client : Client)
        (draft : RequestDraft)
        (before : Url),
      Url.parse base.text = .ok home →
      home.query = none →
      home.fragment = none →
      (∀ text, draft.target = some (.template text) →
        client.base? = some base) →
      isForm draft.headers = false →
      draft.bare.sentTo client = .ok before →
      ∃ after,
        draft.sentTo client = .ok after ∧
        before.Delivers after draft.parameters := by
  intro hAll
  rcases hAll UriTemplate.localApi UriTemplate.localHome
      localClient partDraft partUrl
      UriTemplate.parse_localApi rfl rfl (fun _ _ => rfl)
      (by decide) bare_sentTo_part with ⟨after, hAfter, hDelivers⟩
  rw [sentTo_part] at hAfter
  cases hAfter
  have hFragment := hDelivers.fragment
  exact absurd hFragment (by decide)

end RequestDraft

end ServiceCalls
