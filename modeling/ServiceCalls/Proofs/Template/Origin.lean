import ServiceCalls.Proofs.Text.Octets
import ServiceCalls.Proofs.Url.Continuation
import ServiceCalls.Template.Expansion

/-
  Where the URLs of a template lead.

  The text of a template is read after its placeholders have
  been replaced.  A value holds no colon, but it can complete
  a scheme whose colon the template brings; then the URL does
  not lead to the base.

  Key definitions include:
    * `UriTemplate.Piece.spells`
    * `UriTemplate.BeginsInPath`
    * `UriTemplate.Strays`

  Main declarations:
    * `UriTemplate.exists_colon_piece`
    * `UriTemplate.origin_of_slash`
    * `UriTemplate.origins_of_expansions`
-/

namespace ServiceCalls

------------------------------------------------------------
-- Encoded Values
------------------------------------------------------------

namespace Text

theorem hexDigit_ne_colon
    {n : Nat}
    (h : n < 16) :
    hexDigit n ≠ ':' := by
  have hAll : ∀ n < 16, hexDigit n ≠ ':' := by decide
  exact hAll n h

theorem colon_not_mem_encodeOctet (b : UInt8) :
    ':' ∉ encodeOctet b := by
  have hByte := b.toNat_lt
  intro hMem
  unfold encodeOctet at hMem
  rcases List.mem_cons.1 hMem with hPercent | hDigits
  · exact absurd hPercent (by decide)
  rcases List.mem_cons.1 hDigits with hHigh | hRest
  · exact hexDigit_ne_colon (by omega) hHigh.symm
  · exact hexDigit_ne_colon (by omega)
      (List.mem_singleton.1 hRest).symm

theorem colon_of_octet
    {b : UInt8}
    (h : Char.ofNat b.toNat = ':') :
    b = 0x3A := by
  have hNat := congrArg Char.toNat h
  rw [toNat_ofNat_toNat] at hNat
  exact UInt8.toNat_inj.1 hNat

/- A value does not bring a colon. -/
theorem colon_not_mem_encodeComponent (text : List Char) :
    ':' ∉ encodeComponent text := by
  intro hMem
  unfold encodeComponent percentEncode at hMem
  rcases List.mem_flatMap.1 hMem with ⟨b, _, hColon⟩
  split at hColon
  · next hPlain =>
      rw [colon_of_octet (List.mem_singleton.1 hColon).symm]
        at hPlain
      exact absurd hPlain (by decide)
  · exact colon_not_mem_encodeOctet b hColon

end Text

------------------------------------------------------------
-- Colons of Schemes
------------------------------------------------------------

namespace Url

theorem exists_name_of_splitScheme
    {text : List Char}
    {parts : String × List Char}
    (h : splitScheme text = some parts) :
    ∃ name rest, text = name ++ ':' :: rest ∧
      ∀ c ∈ name, isSchemeChar c = true := by
  unfold splitScheme at h
  split at h
  · cases h
  · next first more =>
      split at h
      · cases h
      · split at h
        · next rest hDrop =>
            have hSplit := List.takeWhile_append_dropWhile
              (p := isSchemeChar) (l := first :: more)
            rw [hDrop] at hSplit
            exact ⟨_, rest, hSplit.symm,
              List.all_eq_true.1 List.all_takeWhile⟩
        · cases h

/- A character that may come before the colon of a scheme. -/
def leadsScheme (c : Char) : Bool :=
  isSchemeChar c || isOuterBlank c

/- The colon of a scheme, in a text before cleaning. -/
theorem exists_colon_of_splitScheme
    {text : List Char}
    {parts : String × List Char}
    (h : splitScheme (clean text) = some parts) :
    ∃ front back, text = front ++ ':' :: back ∧
      ∀ c ∈ front, leadsScheme c = true := by
  rcases exists_name_of_splitScheme h with
    ⟨name, rest, hClean, hName⟩
  rcases exists_clean text with ⟨blanks, hKept, _⟩
  rw [hClean, List.append_assoc, List.cons_append] at hKept
  rcases List.filter_eq_append_iff.1 hKept with
    ⟨front, more, hText, hFront, hMore⟩
  rcases List.filter_eq_cons_iff.1 hMore with
    ⟨dropped, back, hBack, hDropped, _, _⟩
  have hSplit := List.takeWhile_append_dropWhile
    (p := isOuterBlank) (l := text)
  rw [hText, hBack] at hSplit
  refine ⟨text.takeWhile isOuterBlank ++ (front ++ dropped),
    back, ?_, ?_⟩
  · rw [List.append_assoc, List.append_assoc]
    exact hSplit.symm
  · intro c hMem
    have hBlank (hDrop : isDropped c = true) :
        leadsScheme c = true := by
      unfold leadsScheme
      rw [isOuterBlank_of_isDropped hDrop, Bool.or_true]
    rcases List.mem_append.1 hMem with hOuter | hInner
    · have hAll := List.all_eq_true.1 List.all_takeWhile
        c hOuter
      unfold leadsScheme
      rw [hAll, Bool.or_true]
    rcases List.mem_append.1 hInner with hHere | hHere
    · cases hDrop : isDropped c with
      | true => exact hBlank hDrop
      | false =>
          have hIn : c ∈ name := by
            rw [← hFront]
            refine List.mem_filter.2 ⟨hHere, ?_⟩
            rw [hDrop]
            rfl
          unfold leadsScheme
          rw [hName c hIn, Bool.true_or]
    · have hDrop := hDropped c hHere
      rw [Bool.not_eq_true, Bool.not_eq_false'] at hDrop
      exact hBlank hDrop

end Url

------------------------------------------------------------
-- Bases
------------------------------------------------------------

/- No base is without a text. -/
theorem BaseUrl.text_ne_nil [DomainNames] (base : BaseUrl) :
    base.text.toList ≠ [] := by
  rcases base.accepted with ⟨home, hHome⟩
  intro hNone
  unfold Url.parse at hHome
  rw [hNone] at hHome
  cases hHome

------------------------------------------------------------
-- Pieces of Schemes
------------------------------------------------------------

namespace UriTemplate

/- Whether a piece may come before the colon of a scheme. -/
def Piece.spells : Piece → Bool
| .plain c => Url.leadsScheme c
| .placeholder _ => true

/- A colon comes after a whole value. -/
theorem exists_colon_after
    {value text front back : List Char}
    (hValue : ':' ∉ value)
    (h : value ++ text = front ++ ':' :: back) :
    ∃ more, text = more ++ ':' :: back ∧
      ∀ c ∈ more, c ∈ front := by
  rcases List.append_eq_append_iff.1 h with
    ⟨more, hFront, hText⟩ | ⟨more, hSplit, hColon⟩
  · refine ⟨more, hText, ?_⟩
    intro c hMem
    rw [hFront]
    exact List.mem_append_right _ hMem
  · cases more with
    | nil =>
        refine ⟨[], hColon.symm, ?_⟩
        intro c hMem
        cases hMem
    | cons c more =>
        cases hColon
        refine absurd ?_ hValue
        rw [hSplit]
        exact List.mem_append_right _ List.mem_cons_self

/-
  A colon after such characters is a piece of the template,
  and what comes before it are such characters and values.
-/
theorem exists_colon_piece
    {uriVariables : List (String × String)}
    {pieces : List Piece}
    {front back : List Char}
    (h : expandPieces uriVariables pieces =
      .ok (front ++ ':' :: back))
    (hFront : ∀ c ∈ front, Url.leadsScheme c = true) :
    ∃ before after,
      pieces = before ++ .plain ':' :: after ∧
      ∀ piece ∈ before, piece.spells = true := by
  induction pieces generalizing front with
  | nil =>
      have hNil := Except.ok.inj h
      exact absurd hNil.symm
        (List.append_ne_nil_of_right_ne_nil _
          (List.cons_ne_nil _ _))
  | cons piece rest ih =>
      cases piece with
      | plain c =>
          rcases Fallible.map_eq_ok h with
            ⟨text, hText, hCons⟩
          cases front with
          | nil =>
              cases hCons
              refine ⟨[], rest, rfl, ?_⟩
              intro piece hMem
              cases hMem
          | cons first more =>
              cases hCons
              rcases ih hText (fun c hMem =>
                hFront c (List.mem_cons_of_mem _ hMem)) with
                ⟨before, after, hPieces, hBefore⟩
              refine ⟨.plain c :: before, after, ?_, ?_⟩
              · rw [hPieces]
                rfl
              · exact List.forall_mem_cons.2
                  ⟨hFront c List.mem_cons_self, hBefore⟩
      | placeholder name =>
          unfold expandPieces at h
          split at h
          · cases h
          · next value _ =>
              rcases Fallible.map_eq_ok h with
                ⟨text, hText, hValue⟩
              rcases exists_colon_after
                (Text.colon_not_mem_encodeComponent _)
                hValue with ⟨more, hMore, hIn⟩
              rw [hMore] at hText
              rcases ih hText (fun c hMem =>
                hFront c (hIn c hMem)) with
                ⟨before, after, hPieces, hBefore⟩
              refine ⟨.placeholder name :: before, after,
                ?_, ?_⟩
              · rw [hPieces]
                rfl
              · exact List.forall_mem_cons.2 ⟨rfl, hBefore⟩

------------------------------------------------------------
-- Templates of Paths
------------------------------------------------------------

/- A template that begins with a slash or a placeholder. -/
def BeginsInPath (template : String) : Prop :=
  template.toList.head? = some '/' ∨
    ∃ name, (pieces template.toList).head? =
      some (.placeholder name)

theorem head?_pieces_of_slash
    {text : List Char}
    (h : text.head? = some '/') :
    (pieces text).head? = some (.plain '/') := by
  cases text with
  | nil => cases h
  | cons c rest =>
      cases h
      rw [pieces, if_neg (by decide)]
      rfl

/- What comes before the colon begins with a placeholder. -/
theorem BeginsInPath.placeholder_of_append
    {template : String}
    (h : BeginsInPath template)
    {before after : List Piece}
    (hPieces : pieces template.toList =
      before ++ .plain ':' :: after)
    (hBefore : ∀ piece ∈ before, piece.spells = true) :
    ∃ name rest, before = .placeholder name :: rest := by
  have hHead :
      (pieces template.toList).head? = some (.plain '/') ∨
        ∃ name, (pieces template.toList).head? =
          some (.placeholder name) := by
    rcases h with hSlash | hName
    · exact .inl (head?_pieces_of_slash hSlash)
    · exact .inr hName
  rw [hPieces] at hHead
  cases before with
  | nil =>
      rcases hHead with hSlash | ⟨name, hName⟩
      · have hColon := Piece.plain.inj
          (Option.some.inj hSlash)
        exact absurd hColon (by decide)
      · cases hName
  | cons first rest =>
      rcases hHead with hSlash | ⟨name, hName⟩
      · have hSpells := hBefore first List.mem_cons_self
        cases hSlash
        exact absurd hSpells (by decide)
      · cases hName
        exact ⟨name, rest, rfl⟩

------------------------------------------------------------
-- Texts of their Own
------------------------------------------------------------

section

variable [DomainNames]

/- A text that is a URL with a host. -/
def IsAbsolute (text : String) (own : Url) : Prop :=
  Url.parse text = .ok own ∧ own.hasHost = true

theorem resolve_of_isAbsolute
    {text : String}
    {own : Url}
    (h : IsAbsolute text own)
    (base? : Option BaseUrl) :
    resolve base? text = .ok own := by
  unfold resolve
  rw [h.1]
  dsimp only
  rw [h.2, if_pos rfl]

theorem resolve_of_relative
    {text : String}
    (h : ∀ own, ¬IsAbsolute text own)
    (base? : Option BaseUrl) :
    resolve base? text = resolveUnder base? text := by
  unfold resolve
  split
  · next own hParse =>
      rw [if_neg]
      intro hHost
      exact h own ⟨hParse, hHost⟩
  · rfl

/- Any other text continues the base. -/
theorem parse_of_resolve
    {base : BaseUrl}
    {text : String}
    (hOwn : ∀ own, ¬IsAbsolute text own)
    {url : Url}
    (h : resolve (some base) text = .ok url) :
    Url.parseChars
      (joinUrl base.text.toList text.toList) = .ok url := by
  rw [resolve_of_relative hOwn] at h
  unfold resolveUnder at h
  have hParse := Fallible.mapError_eq_ok h
  unfold Url.parse at hParse
  rw [String.toList_ofList] at hParse
  exact hParse

/- The pieces of a template whose text is a URL. -/
theorem exists_pieces_of_parse
    {template text : String}
    {uriVariables : List (String × String)}
    (hText : expandText template uriVariables = .ok text)
    {own : Url}
    (hOwn : Url.parse text = .ok own) :
    ∃ before after,
      pieces template.toList =
        before ++ .plain ':' :: after ∧
      ∀ piece ∈ before, piece.spells = true := by
  rcases Url.exists_parseAfterScheme hOwn with
    ⟨scheme, rest, hScheme, _⟩
  rcases Url.exists_colon_of_splitScheme hScheme with
    ⟨front, back, hSplit, hFront⟩
  unfold expandText at hText
  split at hText
  · next chars hChars =>
      cases hText
      rw [String.toList_ofList] at hSplit
      rw [hSplit] at hChars
      exact exists_colon_piece hChars hFront
  · cases hText

------------------------------------------------------------
-- Origins
------------------------------------------------------------

/-
  How the values of a template leave the origin of the base.
  They make a URL of another origin of its text, although it
  begins with a placeholder; or the path of a file that they
  continue takes a drive letter for its host; or the base
  ends in blanks.
-/
inductive Strays
    (base : BaseUrl)
    (home : Url)
    (template : String)
    (uriVariables : List (String × String)) :
    Prop where
| elsewhere
    (text : String)
    (own : Url)
    (name : List Char)
    (before after : List Piece)
    (hText : expandText template uriVariables = .ok text)
    (hOwn : IsAbsolute text own)
    (hOrigin : own.origin ≠ home.origin)
    (hPieces : pieces template.toList =
      .placeholder name :: before ++ .plain ':' :: after)
    (hBefore : ∀ piece ∈ before, piece.spells = true)
| drive
    (text : String)
    (joined : Url)
    (hText : expandText template uriVariables = .ok text)
    (hOwn : ∀ own, ¬IsAbsolute text own)
    (hFile : home.scheme = "file")
    (hJoined :
      Url.parseChars
        (joinUrl base.text.toList text.toList) = .ok joined)
    (hDrive : joined.startsWithDrive = true)
| blank
    (text : String)
    (hText : expandText template uriVariables = .ok text)
    (hOwn : ∀ own, ¬IsAbsolute text own)
    (hSome : text ≠ "")
    (hBlank : Url.BlankAfterHost base.text.toList home)

/- A URL leads where the base does unless it strays. -/
theorem origin_of_expand
    {base : BaseUrl}
    {home : Url}
    (hBase : Url.parse base.text = .ok home)
    (hHost : home.hasHost = true)
    {template : String}
    (hBegins : BeginsInPath template)
    {uriVariables : List (String × String)}
    {url : Url}
    (hUrl :
      expand (some base) template uriVariables = .ok url) :
    url.origin = home.origin ↔
      ¬Strays base home template uriVariables := by
  rcases Fallible.bind_eq_ok hUrl with
    ⟨text, hText, hResolve⟩
  have hSame (other : String)
      (hOther :
        expandText template uriVariables = .ok other) :
      other = text :=
    Except.ok.inj (hOther.symm.trans hText)
  by_cases hAbsolute : ∃ own, IsAbsolute text own
  · rcases hAbsolute with ⟨own, hOwn⟩
    rw [resolve_of_isAbsolute hOwn] at hResolve
    cases hResolve
    constructor
    · intro hOrigin hStrays
      cases hStrays with
      | elsewhere other own _ _ _ hOther hTheir hNot =>
          rw [hSame other hOther] at hTheir
          cases hOwn.1.symm.trans hTheir.1
          exact hNot hOrigin
      | drive other _ hOther hNot =>
          rw [hSame other hOther] at hNot
          exact hNot url hOwn
      | blank other hOther hNot _ _ =>
          rw [hSame other hOther] at hNot
          exact hNot url hOwn
    · intro hNot
      apply Decidable.byContradiction
      intro hOrigin
      rcases exists_pieces_of_parse hText hOwn.1 with
        ⟨before, after, hPieces, hBefore⟩
      rcases hBegins.placeholder_of_append hPieces hBefore
        with ⟨name, rest, hFirst⟩
      subst hFirst
      exact hNot (.elsewhere text url name rest after hText
        hOwn hOrigin hPieces fun piece hMem =>
          hBefore piece (List.mem_cons_of_mem _ hMem))
  · have hRelative : ∀ own, ¬IsAbsolute text own :=
      fun own hOwn => hAbsolute ⟨own, hOwn⟩
    have hJoined := parse_of_resolve hRelative hResolve
    rw [Url.origin_joinUrl_iff hBase hHost hJoined]
    constructor
    · intro hNot hStrays
      cases hStrays with
      | elsewhere other own _ _ _ hOther hOwn =>
          rw [hSame other hOther] at hOwn
          exact hRelative own hOwn
      | drive other _ hOther _ hFile hTheir hDrive =>
          rw [hSame other hOther, hJoined] at hTheir
          cases hTheir
          exact hNot.1 ⟨hFile, hDrive⟩
      | blank other hOther _ hSome hBlank =>
          rw [hSame other hOther] at hSome
          refine hNot.2 ⟨?_, hBlank⟩
          intro hNil
          exact hSome (String.toList_eq_nil_iff.1 hNil)
    · intro hNot
      refine ⟨?_, ?_⟩
      · intro hDrive
        exact hNot (.drive text url hText hRelative hDrive.1
          hJoined hDrive.2)
      · intro hBlank
        refine hNot (.blank text hText hRelative ?_ hBlank.2)
        intro hNone
        exact hBlank.1 (String.toList_eq_nil_iff.2 hNone)

/-
  A slash keeps the URL at the base, as long as the base is
  no file and not of a scheme that is not special.
-/
theorem origin_of_slash
    {base : BaseUrl}
    {home : Url}
    (hBase : Url.parse base.text = .ok home)
    (hHost : home.hasHost = true)
    (hSpecial : Url.isSpecial home.scheme = true)
    (hFile : home.scheme ≠ "file")
    {template : String}
    (hSlash : template.toList.head? = some '/')
    {uriVariables : List (String × String)}
    {url : Url}
    (hUrl :
      expand (some base) template uriVariables = .ok url) :
    url.origin = home.origin := by
  rw [origin_of_expand hBase hHost (.inl hSlash) hUrl]
  intro hStrays
  cases hStrays with
  | elsewhere _ _ _ _ _ _ _ _ hPieces =>
      have hHead := head?_pieces_of_slash hSlash
      rw [hPieces] at hHead
      cases hHead
  | drive _ _ _ _ hSame => exact hFile hSame
  | blank text _ _ _ hBlank =>
      rw [hBlank.1] at hSpecial
      cases hSpecial

/-
  Two expansions of a template lead where the base does
  exactly when neither strays.
-/
theorem origins_of_expansions
    {base : BaseUrl}
    {home : Url}
    (hBase : Url.parse base.text = .ok home)
    (hHost : home.hasHost = true)
    {template : String}
    (hBegins : BeginsInPath template)
    {firstVariables secondVariables :
      List (String × String)}
    {first second : Url}
    (hFirst : expand (some base) template firstVariables =
      .ok first)
    (hSecond : expand (some base) template secondVariables =
      .ok second) :
    (first.origin = home.origin ∧
        second.origin = home.origin) ↔
      ¬Strays base home template firstVariables ∧
        ¬Strays base home template secondVariables := by
  rw [origin_of_expand hBase hHost hBegins hFirst,
    origin_of_expand hBase hHost hBegins hSecond]

end

------------------------------------------------------------
-- A Value that Names a Scheme
------------------------------------------------------------

/- Where the API of a host is. -/
def localHome : Url :=
  ⟨"http", some ⟨"", none, .name "localhost", none⟩,
    .segments ["api"], none, none⟩

open PlainNames

theorem parse_localHome :
    Url.parse "http://localhost/api" = .ok localHome :=
  Fallible.eq_ok_of_toOption (by decide +kernel)

/- The text of the URL of the API. -/
def localApi : BaseUrl :=
  ⟨"http://localhost/api", localHome, parse_localHome⟩

theorem parse_localApi :
    Url.parse localApi.text = .ok localHome :=
  parse_localHome

/- What a model generates, by the name of the model. -/
def generated : Url :=
  { localHome with path := .segments ["api", "m1:generate"] }

theorem expand_generated :
    expand (some localApi) "\x7bmodel\x7d:generate"
      [("model", "m1")] = .ok generated :=
  Fallible.eq_ok_of_toOption (by decide +kernel)

/- The name of the model is read as a scheme. -/
def misread : Url :=
  ⟨"http", some ⟨"", none, .name "generate", none⟩,
    .segments [""], none, none⟩

theorem expand_misread :
    expand (some localApi) "\x7bmodel\x7d:generate"
      [("model", "http")] = .ok misread :=
  Fallible.eq_ok_of_toOption (by decide +kernel)

theorem beginsInPath_generate :
    BeginsInPath "\x7bmodel\x7d:generate" := by
  have hHead :
      (pieces "\x7bmodel\x7d:generate".toList).head? =
        some (.placeholder "model".toList) := by
    decide +kernel
  exact .inr ⟨_, hHead⟩

theorem origins_of_misread :
    (generated.origin = localHome.origin ∧
        misread.origin = localHome.origin) ↔
      ¬Strays localApi localHome "\x7bmodel\x7d:generate"
          [("model", "m1")] ∧
        ¬Strays localApi localHome "\x7bmodel\x7d:generate"
          [("model", "http")] :=
  origins_of_expansions parse_localApi rfl
    beginsInPath_generate expand_generated expand_misread

/- Not every value leaves the URL at the base. -/
theorem origins_not_always_kept :
    ¬∀ (base : BaseUrl)
        (home : Url)
        (template : String)
        (firstVariables secondVariables :
          List (String × String))
        (first second : Url),
      Url.parse base.text = .ok home →
      home.hasHost = true →
      BeginsInPath template →
      expand (some base) template firstVariables =
        .ok first →
      expand (some base) template secondVariables =
        .ok second →
      first.origin = home.origin ∧
        second.origin = home.origin := by
  intro hAll
  have hBoth := hAll localApi localHome
    "\x7bmodel\x7d:generate" [("model", "m1")]
    [("model", "http")] generated misread parse_localApi
    rfl beginsInPath_generate expand_generated
    expand_misread
  exact absurd hBoth.2 (by decide)

end UriTemplate

end ServiceCalls
