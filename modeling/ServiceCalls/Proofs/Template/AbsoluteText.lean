import ServiceCalls.Proofs.Template.Origin
import ServiceCalls.Proofs.Url.WebHosts

/-
  Templates whose texts start with a scheme of the web.

  Such a text is read by itself if its authority names a
  host.  If not, it is joined to the base like any other
  text, and what comes out is a URL for every base that has
  a host and does not end in a blank.

  Main declarations:
    * `Url.exists_parse_joinUrl`
    * `UriTemplate.own_url_iff`
-/

namespace ServiceCalls

namespace Url

------------------------------------------------------------
-- Joined Texts that are URLs
------------------------------------------------------------

variable [DomainNames]

/- The host of a file is read whatever follows it. -/
theorem FileHost.exists_parseFile
    {a b : Char}
    {text : List Char}
    {host : Host}
    (h : FileHost a b text host)
    {rest : List Char}
    (hRest : Ends true rest) :
    ∃ url, parseFile (a :: b :: (text ++ rest)) = .ok url := by
  rw [parseFile_host h.first h.second h.inside h.some
    h.noDrive hRest, h.reads]
  dsimp only [bind, Except.bind]
  split
  · exact ⟨_, rfl⟩
  · exact ⟨_, rfl⟩

/- What follows a host before a mark is read after it. -/
theorem exists_parse_mark
    {scheme : String}
    {front slashes : List Char}
    (hSlashes : ∀ c ∈ slashes, c = '/')
    {home : Url}
    (hHome :
      parseAfterScheme scheme (front ++ slashes) = .ok home)
    (hHost : home.hasHost = true)
    {mark : Char}
    (hMark : mark = '/' ∨ mark = '?')
    (rest : List Char) :
    ∃ url,
      parseAfterScheme scheme (front ++ mark :: rest) =
        .ok url := by
  cases hFile : scheme == "file" with
  | false =>
      rcases exists_authority hFile hHome hHost with
        ⟨lead, text, tail, authority, left, hAfter, hLeads,
          hTail, hAuthority, _, _⟩
      rcases split_slashes hAfter hSlashes hLeads.some
        hLeads.inside.not_mem_slash with
        ⟨more, hFront, hMore⟩
      rw [hMore] at hTail
      have hEnds := ends_append_mark hTail hMark rest
      have hUrl := hLeads.readsOn hAuthority hEnds
      rw [hFront, List.append_assoc, List.append_assoc]
      exact ⟨_, hUrl⟩
  | true =>
      rw [beq_iff_eq] at hFile
      subst hFile
      rcases exists_fileHost hHome hHost with
        ⟨a, b, text, tail, host, hAfter, hFileHost, hTail,
          _, _⟩
      have hSplit :
          front ++ slashes = [a, b] ++ (text ++ tail) :=
        hAfter
      rcases split_slashes hSplit hSlashes hFileHost.some
        hFileHost.inside.not_mem_slash with
        ⟨more, hFront, hMore⟩
      rw [hMore] at hTail
      have hEnds := ends_append_mark hTail hMark rest
      rw [hFront, List.append_assoc, List.append_assoc]
      exact hFileHost.exists_parseFile hEnds

/-
  A base with a host that does not end in a blank goes on
  with any text.
-/
theorem exists_parse_joinUrl
    {base : List Char}
    {home : Url}
    (hHome : parseChars base = .ok home)
    (hHost : home.hasHost = true)
    (hEnd : endsInBlank base = false)
    (text : List Char) :
    ∃ url, parseChars (joinUrl base text) = .ok url := by
  by_cases hText : text = []
  · rw [hText, joinUrl_nil]
    exact ⟨home, hHome⟩
  rcases exists_parseAfterScheme hHome with
    ⟨scheme, after, hScheme, hRead⟩
  rcases exists_splitScheme hScheme with
    ⟨name, hSlash, hSome, hBase, hReads⟩
  rcases clean_joinUrl hScheme hText with
    ⟨front, mark, rest, hMark, hClean,
      ⟨_, slashes, hFront, hSlashes⟩ | ⟨hBlank, _⟩⟩
  · have hSplit :
        front ++ slashes = [] ++ (name ++ after) := by
      rw [← hFront, hBase]
      rfl
    rcases split_slashes hSplit hSlashes hSome hSlash with
      ⟨more, hMore, hAfter⟩
    rw [hAfter] at hRead
    rcases exists_parse_mark hSlashes hRead hHost hMark rest
      with ⟨url, hUrl⟩
    refine ⟨url, ?_⟩
    unfold parseChars
    rw [hClean, hMore, List.nil_append, List.append_assoc,
      hReads]
    exact hUrl
  · rw [hEnd] at hBlank
    cases hBlank

end Url

namespace UriTemplate

------------------------------------------------------------
-- Templates of the Web
------------------------------------------------------------

section

variable [DomainNames]

theorem isAbsolute_iff_namesHost
    {text : String}
    (h : Url.IsWeb text.toList) :
    (∃ own, IsAbsolute text own) ↔
      Url.NamesHost text.toList := by
  rw [← Url.parseChars_ok_iff_namesHost h]
  constructor
  · rintro ⟨own, hOwn⟩
    exact ⟨own, hOwn.1⟩
  · rintro ⟨own, hOwn⟩
    exact ⟨own, hOwn, Url.hasHost_of_isWeb h hOwn⟩

/- A base and a text that continues it. -/
def joinedText (base : BaseUrl) (text : String) : String :=
  String.ofList (joinUrl base.text.toList text.toList)

/- A text of the web that names no host is joined. -/
theorem resolve_of_nameless
    {text : String}
    (hWeb : Url.IsWeb text.toList)
    (hNone : ¬Url.NamesHost text.toList)
    (base : BaseUrl) :
    resolve (some base) text =
      (Url.parse (joinedText base text)).mapError
        (badTarget (joinedText base text)) := by
  rw [resolve_of_relative]
  · rfl
  · intro own hOwn
    exact hNone
      ((isAbsolute_iff_namesHost hWeb).mp ⟨own, hOwn⟩)

/- What is read of a text is only its own URL. -/
def ReadsOwn (base : BaseUrl) (text : String) : Prop :=
  ∀ url,
    resolve (some base) text = .ok url →
      Url.parse text = .ok url

theorem readsOwn_iff
    {text : String}
    (hWeb : Url.IsWeb text.toList)
    (base : BaseUrl) :
    ReadsOwn base text ↔
      Url.NamesHost text.toList ∨
        ∀ url, Url.parse (joinedText base text) ≠
          .ok url := by
  unfold ReadsOwn
  by_cases hNames : Url.NamesHost text.toList
  · rcases (isAbsolute_iff_namesHost hWeb).mpr hNames with
      ⟨own, hOwn⟩
    rw [resolve_of_isAbsolute hOwn]
    constructor
    · intro _
      exact .inl hNames
    · intro _ url hUrl
      cases hUrl
      exact hOwn.1
  · rw [resolve_of_nameless hWeb hNames]
    constructor
    · intro hOwn
      refine .inr ?_
      intro url hUrl
      rw [hUrl] at hOwn
      apply hNames
      rw [← Url.parseChars_ok_iff_namesHost hWeb]
      exact ⟨url, hOwn url rfl⟩
    · intro hEither url hUrl
      have hNone := hEither.resolve_left hNames
      exact absurd (Fallible.mapError_eq_ok hUrl)
        (hNone url)

/- A good base takes every text that names no host. -/
theorem readsOwn_iff_of_hasHost
    {text : String}
    (hWeb : Url.IsWeb text.toList)
    {base : BaseUrl}
    {home : Url}
    (hHome : Url.parse base.text = .ok home)
    (hHost : home.hasHost = true)
    (hEnd : Url.endsInBlank base.text.toList = false) :
    ReadsOwn base text ↔ Url.NamesHost text.toList := by
  rcases Url.exists_parse_joinUrl hHome hHost hEnd
    text.toList with ⟨url, hUrl⟩
  rw [readsOwn_iff hWeb]
  apply or_iff_left
  intro hNone
  apply hNone url
  unfold joinedText Url.parse
  rw [String.toList_ofList]
  exact hUrl

theorem expand_of_expandText
    {template text : String}
    {uriVariables : List (String × String)}
    (h : expandText template uriVariables = .ok text)
    (base? : Option BaseUrl) :
    expand base? template uriVariables =
      resolve base? text := by
  unfold expand
  rw [h]
  rfl

/-
  A template of the web whose text names a host gives the
  URL of the text, and any other one what the base and the
  text give together.  So what it gives is the URL of the
  text or a failure exactly if the text names a host, or the
  joined text is no URL; with a base that has a host and
  ends in no blank, exactly if the text names a host.
-/
theorem own_url_iff
    {template text : String}
    {uriVariables : List (String × String)}
    (hText : expandText template uriVariables = .ok text)
    (hWeb : Url.IsWeb text.toList)
    (base : BaseUrl) :
    (Url.NamesHost text.toList →
      ∃ own,
        Url.parse text = .ok own ∧
        expand (some base) template uriVariables =
          .ok own) ∧
    (¬Url.NamesHost text.toList →
      expand (some base) template uriVariables =
        (Url.parse (joinedText base text)).mapError
          (badTarget (joinedText base text))) ∧
    ((∀ url,
        expand (some base) template uriVariables =
          .ok url →
        Url.parse text = .ok url) ↔
      Url.NamesHost text.toList ∨
        ∀ url, Url.parse (joinedText base text) ≠
          .ok url) ∧
    ∀ home,
      Url.parse base.text = .ok home →
      home.hasHost = true →
      Url.endsInBlank base.text.toList = false →
      ((∀ url,
          expand (some base) template uriVariables =
            .ok url →
          Url.parse text = .ok url) ↔
        Url.NamesHost text.toList) := by
  rw [expand_of_expandText hText]
  refine ⟨?_, ?_, readsOwn_iff hWeb base, ?_⟩
  · intro hNames
    rcases (isAbsolute_iff_namesHost hWeb).mpr hNames with
      ⟨own, hOwn⟩
    exact ⟨own, hOwn.1, resolve_of_isAbsolute hOwn _⟩
  · intro hNone
    exact resolve_of_nameless hWeb hNone base
  · intro home hHome hHost hEnd
    exact readsOwn_iff_of_hasHost hWeb hHome hHost hEnd

end

/- A host that is a value with a port in it. -/
def portedVariables : List (String × String) :=
  [("host", "example.org:8080")]

theorem expandText_ported :
    expandText "https://\x7bhost\x7d/x" portedVariables =
      .ok "https://example.org%3A8080/x" :=
  Fallible.eq_ok_of_toOption (by decide +kernel)

theorem isWeb_ported :
    Url.IsWeb "https://example.org%3A8080/x".toList :=
  .inr ⟨"example.org%3A8080/x".toList, by decide⟩

open PlainNames

/- The colon of the port is written in percent form. -/
theorem own_url_of_ported :
    (∀ url,
        expand (some localApi) "https://\x7bhost\x7d/x"
          portedVariables = .ok url →
        Url.parse "https://example.org%3A8080/x" =
          .ok url) ↔
      Url.NamesHost
        "https://example.org%3A8080/x".toList :=
  (own_url_iff expandText_ported isWeb_ported
    localApi).2.2.2 localHome parse_localApi rfl
      (by decide)

/- A text whose port is no port, below the API. -/
def misjoined : Url :=
  { localHome with
    path := .segments
      ["api", "https:", "", "example.org:99999", "x"] }

theorem expand_misjoined :
    expand (some localApi) "https://example.org:99999/x"
      [] = .ok misjoined :=
  Fallible.eq_ok_of_toOption (by decide +kernel)

/- Not every text of the web is kept from the base. -/
theorem own_url_not_always :
    ¬∀ (base : BaseUrl)
        (template text : String)
        (uriVariables : List (String × String))
        (url : Url),
      expandText template uriVariables = .ok text →
      Url.IsWeb text.toList →
      expand (some base) template uriVariables = .ok url →
      Url.parse text = .ok url := by
  intro hAll
  have hParse := hAll localApi
    "https://example.org:99999/x"
    "https://example.org:99999/x" [] misjoined
    (Fallible.eq_ok_of_toOption (by decide +kernel))
    (.inr ⟨"example.org:99999/x".toList, by decide⟩)
    expand_misjoined
  have hNone :
      (Url.parse "https://example.org:99999/x").toOption =
        none := by
    decide +kernel
  rw [hParse] at hNone
  cases hNone

end UriTemplate

end ServiceCalls
