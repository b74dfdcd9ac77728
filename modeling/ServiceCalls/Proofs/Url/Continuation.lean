import ServiceCalls.Proofs.Template.Joined
import ServiceCalls.Proofs.Url.Blanks
import ServiceCalls.Proofs.Url.Cleaning
import ServiceCalls.Proofs.Url.Hosts

/-
  Where a URL leads that continues another.

  It leads where its base does.  There are two exceptions: a
  drive letter at the start of a file path drops the host,
  and blanks that end a base become part of its host.

  Key definitions include:
    * `Url.Continues`
    * `Url.BlankAfterHost`

  Main declarations:
    * `Url.exists_continues`
    * `Url.origin_of_continues`
    * `Url.origin_of_continues_file`
    * `Url.origin_joinUrl_iff`
-/

namespace ServiceCalls

namespace Url

------------------------------------------------------------
-- Slashes at the End
------------------------------------------------------------

/- Slashes are not taken from a text that holds none. -/
theorem split_slashes
    {front slashes lead text tail : List Char}
    (h : front ++ slashes = lead ++ (text ++ tail))
    (hSlashes : ∀ c ∈ slashes, c = '/')
    (hSome : text ≠ [])
    (hText : '/' ∉ text) :
    ∃ rest, front = lead ++ (text ++ rest) ∧
      tail = rest ++ slashes := by
  rw [← List.append_assoc] at h
  rcases List.append_eq_append_iff.1 h with
    ⟨more, hFront, hMore⟩ | ⟨more, hFront, hMore⟩
  · by_cases hNone : more = []
    · subst hNone
      refine ⟨[], ?_, hMore.symm⟩
      rw [List.append_nil] at hFront
      rw [← hFront, List.append_nil]
    · -- The last character of the text would be a slash.
      have hLast := congrArg List.getLast? hFront
      rw [List.getLast?_append, List.getLast?_append,
        List.getLast?_eq_some_getLast hNone,
        List.getLast?_eq_some_getLast hSome,
        Option.some_or, Option.some_or,
        Option.some.injEq] at hLast
      have hSlash := hSlashes (more.getLast hNone) (by
        rw [hMore]
        exact List.mem_append_left _
          (List.getLast_mem hNone))
      rw [← hLast] at hSlash
      rw [← hSlash] at hText
      exact absurd (List.getLast_mem hSome) hText
  · refine ⟨more, ?_, hMore⟩
    rw [hFront, List.append_assoc]

------------------------------------------------------------
-- Schemes
------------------------------------------------------------

theorem splitScheme_append
    {first : Char}
    {more : List Char}
    (hAlpha : first.isAlpha = true)
    (hName : ∀ c ∈ first :: more, isSchemeChar c = true)
    (rest : List Char) :
    splitScheme (first :: more ++ ':' :: rest) =
      some (String.ofList
        ((first :: more).map Char.toLower), rest) := by
  have hStop : Text.Stops isSchemeChar (':' :: rest) :=
    Text.stops_cons (by decide) rest
  have hDrop := Text.dropWhile_append_stop hName hStop
  have hTake := Text.takeWhile_append_stop hName hStop
  rw [List.cons_append] at hDrop hTake ⊢
  unfold splitScheme
  dsimp only
  rw [hAlpha, hDrop, hTake]
  rfl

/- A scheme is read in the same way whatever follows. -/
theorem exists_schemeName
    {text after : List Char}
    {scheme : String}
    (h : splitScheme text = some (scheme, after)) :
    ∃ name,
      text = name ++ ':' :: after ∧
      (∀ c ∈ name, isSchemeChar c = true) ∧
      ∀ rest, splitScheme (name ++ ':' :: rest) =
        some (scheme, rest) := by
  unfold splitScheme at h
  split at h
  · cases h
  · next first more =>
      split at h
      · cases h
      · next hAlpha =>
          split at h
          · next rest hDrop =>
              cases h
              rw [Bool.not_eq_true, Bool.not_eq_false']
                at hAlpha
              have hFirst : isSchemeChar first = true := by
                unfold isSchemeChar Char.isAlphanum
                rw [hAlpha]
                rfl
              have hName :
                  ∀ c ∈ (first :: more).takeWhile
                    isSchemeChar, isSchemeChar c = true :=
                List.all_eq_true.1 List.all_takeWhile
              have hSplit := List.takeWhile_append_dropWhile
                (p := isSchemeChar) (l := first :: more)
              rw [hDrop] at hSplit
              rw [List.takeWhile_cons_of_pos hFirst]
                at hName hSplit ⊢
              refine ⟨first :: more.takeWhile isSchemeChar,
                hSplit.symm, hName, ?_⟩
              intro rest
              exact splitScheme_append hAlpha hName rest
          · cases h

theorem exists_splitScheme
    {text after : List Char}
    {scheme : String}
    (h : splitScheme text = some (scheme, after)) :
    ∃ name, '/' ∉ name ∧ name ≠ [] ∧
      text = name ++ after ∧
      ∀ rest, splitScheme (name ++ rest) =
        some (scheme, rest) := by
  rcases exists_schemeName h with
    ⟨name, hText, hName, hReads⟩
  refine ⟨name ++ [':'], ?_, ?_, ?_, ?_⟩
  · intro hMem
    rcases List.mem_append.1 hMem with hSlash | hSlash
    · exact absurd (hName _ hSlash) (by decide)
    · exact absurd hSlash (by decide)
  · exact List.append_ne_nil_of_right_ne_nil _
      (List.cons_ne_nil _ _)
  · rw [hText, List.append_assoc]
    rfl
  · intro rest
    rw [List.append_assoc]
    exact hReads rest

------------------------------------------------------------
-- Continuations
------------------------------------------------------------

/-
  How a text goes on after the scheme of a base: from before
  the last slashes of the base, or after blanks at its end.
-/
inductive Continues (base after : List Char) :
    List Char → Prop where
| slashes
    (front slashes : List Char)
    (mark : Char)
    (rest : List Char)
    (hEnd : endsInBlank base = false)
    (hAfter : after = front ++ slashes)
    (hSlashes : ∀ c ∈ slashes, c = '/')
    (hMark : mark = '/' ∨ mark = '?') :
    Continues base after (front ++ mark :: rest)
| blanks
    (blanks : List Char)
    (mark : Char)
    (rest : List Char)
    (hEnd : endsInBlank base = true)
    (hBlanks : Blanks blanks)
    (hMark : mark = '/' ∨ mark = '?') :
    Continues base after (after ++ (blanks ++ mark :: rest))

/- A joined URL has the scheme of its base. -/
theorem exists_continues
    [DomainNames]
    {base text after : List Char}
    {scheme : String}
    (hScheme :
      splitScheme (clean base) = some (scheme, after))
    (hText : text ≠ [])
    {url : Url}
    (hUrl : parseChars (joinUrl base text) = .ok url) :
    ∃ more, parseAfterScheme scheme more = .ok url ∧
      Continues base after more := by
  rcases exists_splitScheme hScheme with
    ⟨name, hSlash, hSome, hBase, hReads⟩
  rcases clean_joinUrl hScheme hText with
    ⟨front, mark, rest, hMark, hClean,
      ⟨hEnd, slashes, hFront, hSlashes⟩ |
      ⟨hEnd, blanks, hFront, hBlanks⟩⟩
  · have hSplit :
        front ++ slashes = [] ++ (name ++ after) := by
      rw [← hFront, hBase]
      rfl
    rcases split_slashes hSplit hSlashes hSome hSlash with
      ⟨more, hMore, hAfter⟩
    refine ⟨more ++ mark :: rest, ?_,
      .slashes more slashes mark rest hEnd hAfter hSlashes
        hMark⟩
    unfold parseChars at hUrl
    rw [hClean, hMore, List.nil_append, List.append_assoc,
      hReads] at hUrl
    exact hUrl
  · refine ⟨after ++ (blanks ++ mark :: rest), ?_,
      .blanks blanks mark rest hEnd
        ⟨hBlanks.1, fun c hMem => (hBlanks.2 c hMem).1⟩
        hMark⟩
    unfold parseChars at hUrl
    rw [hClean, hFront, hBase, List.append_assoc,
      List.append_assoc, hReads] at hUrl
    exact hUrl

theorem ends_mark
    {mark : Char}
    (h : mark = '/' ∨ mark = '?')
    (special : Bool)
    (rest : List Char) :
    Ends special (mark :: rest) := by
  apply Text.stops_cons
  rcases h with h | h
  · subst h
    rfl
  · subst h
    rfl

/- What ends where a base does goes on ending there. -/
theorem ends_append_mark
    {special : Bool}
    {tail more : List Char}
    (hTail : Ends special (tail ++ more))
    {mark : Char}
    (hMark : mark = '/' ∨ mark = '?')
    (rest : List Char) :
    Ends special (tail ++ mark :: rest) := by
  cases tail with
  | nil => exact ends_mark hMark special rest
  | cons c tail =>
      apply Text.stops_cons
      exact hTail c rfl

theorem ends_append
    {special : Bool}
    {tail : List Char}
    (hTail : Ends special tail)
    (hSome : tail ≠ [])
    (rest : List Char) :
    Ends special (tail ++ rest) := by
  cases tail with
  | nil => exact absurd rfl hSome
  | cons c more =>
      intro d hHead
      exact hTail d hHead

/- A base is read on as far as its authority goes. -/
theorem Leads.readsOn
    [DomainNames]
    {scheme : String}
    {lead text left rest : List Char}
    {authority : Authority}
    (h : Leads scheme lead text)
    (hAuthority :
      parseAuthority scheme text = .ok (authority, left))
    (hRest : Ends (isSpecial scheme) rest) :
    parseAfterScheme scheme (lead ++ (text ++ rest)) =
      .ok (finishAfter scheme authority (left ++ rest)) := by
  rw [h.reads, parseAuthority_append h.inside h.named hRest,
    hAuthority]
  rfl

/- Blanks at the end of a base that has nothing else there. -/
def BlankAfterHost (base : List Char) (home : Url) : Prop :=
  isSpecial home.scheme = false ∧ home.isBare ∧
    endsInBlank base = true

theorem Inside.not_mem_slash
    {special : Bool}
    {text : List Char}
    (h : Inside special text) :
    '/' ∉ text := by
  intro hMem
  have hNot := h '/' hMem
  cases hNot

/- What continues a base leads where the base does. -/
theorem origin_of_continues
    [DomainNames]
    {base after more : List Char}
    {scheme : String}
    (hFile : (scheme == "file") = false)
    {home url : Url}
    (hHome : parseAfterScheme scheme after = .ok home)
    (hHost : home.hasHost = true)
    (hUrl : parseAfterScheme scheme more = .ok url)
    (h : Continues base after more) :
    url.origin = home.origin ↔
      ¬BlankAfterHost base home := by
  rcases exists_authority hFile hHome hHost with
    ⟨lead, text, tail, authority, left, hAfter, hLeads,
      hTail, hAuthority, hSome, hFinish⟩
  have hSame (rest : List Char)
      (hRest : Ends (isSpecial scheme) rest)
      (hMore : more = lead ++ (text ++ rest)) :
      url.origin = home.origin := by
    rw [hMore, hLeads.readsOn hAuthority hRest] at hUrl
    cases hUrl
    rw [hFinish, origin_finishAfter, origin_finishAfter]
  have hScheme : home.scheme = scheme := by
    rw [hFinish]
    rfl
  have hRead (hBlank : BlankAfterHost base home) :
      left ++ tail = [] := by
    have hSpecial := hBlank.1
    have hBare := hBlank.2.1
    rw [hScheme] at hSpecial
    rw [hFinish, isBare_iff hSpecial] at hBare
    exact hBare
  cases h with
  | slashes front slashes mark rest hEnd hSplit hSlashes
      hMark =>
      rcases split_slashes (hSplit.symm.trans hAfter)
        hSlashes hLeads.some hLeads.inside.not_mem_slash with
        ⟨first, hFront, hRest⟩
      have hOrigin := hSame (first ++ mark :: rest)
        (ends_append_mark (hRest ▸ hTail) hMark rest) (by
          rw [hFront, List.append_assoc, List.append_assoc])
      constructor
      · intro _ hBlank
        exact absurd (hEnd.symm.trans hBlank.2.2)
          (by decide)
      · intro _
        exact hOrigin
  | blanks blanks mark rest hEnd hBlanks hMark =>
      have hMark' := ends_mark hMark (isSpecial scheme) rest
      by_cases hNone : tail = []
      · subst hNone
        rw [hAfter, List.append_nil, List.append_assoc,
          hLeads.reads] at hUrl
        rcases Fallible.map_eq_ok hUrl with
          ⟨⟨other, more⟩, hOther, hOtherUrl⟩
        have hOrigins :
            url.origin = home.origin ↔
              (if other.host = .empty then none
                else some other.host) = some authority.host ∧
              other.port = authority.port := by
          rw [← hOtherUrl, hFinish, origin_finishAfter,
            origin_finishAfter, if_neg hSome]
          simp only [Prod.mk.injEq, true_and]
        rcases parseAuthority_blanks hLeads.inside
          hBlanks hMark' hOther with
          ⟨kept, hLeft, hKept, _⟩ |
            ⟨hSpecial, _, _, hOthers⟩
        · rw [hAuthority] at hKept
          cases hKept
          rw [hOrigins, if_neg hSome]
          constructor
          · intro _ hBlank
            have hEmpty := hRead hBlank
            rw [List.append_nil] at hEmpty
            exact hLeft hEmpty
          · intro _
            exact ⟨rfl, rfl⟩
        · rcases hOthers authority left hAuthority with
            ⟨hLeft, hOtherHost⟩
          have hBlank : BlankAfterHost base home := by
            refine ⟨?_, ?_, hEnd⟩
            · rw [hScheme]
              exact hSpecial
            · rw [hFinish, isBare_iff hSpecial, hLeft]
              rfl
          constructor
          · intro hSameOrigin
            have hHosts := (hOrigins.1 hSameOrigin).1
            split at hHosts
            · cases hHosts
            · exact absurd (Option.some.inj hHosts)
                hOtherHost
          · intro hNot
            exact absurd hBlank hNot
      · have hOrigin := hSame
          (tail ++ (blanks ++ mark :: rest))
          (ends_append hTail hNone _) (by
            rw [hAfter, List.append_assoc,
              List.append_assoc])
        constructor
        · intro _ hBlank
          exact hNone (List.append_eq_nil_iff.1
            (hRead hBlank)).2
        · intro _
          exact hOrigin

theorem isDriveLetter_blanks
    {blanks : List Char}
    (hBlanks : Blanks blanks)
    (text : List Char) :
    isDriveLetter (text ++ blanks) = false := by
  cases hLetter : isDriveLetter (text ++ blanks) with
  | false => rfl
  | true =>
      unfold isDriveLetter at hLetter
      split at hLetter
      · next letter mark hBoth =>
          have hLast := congrArg List.getLast? hBoth
          rw [List.getLast?_append,
            List.getLast?_eq_some_getLast hBlanks.some,
            Option.some_or] at hLast
          have hOuter := hBlanks.outer _
            (List.getLast_mem hBlanks.some)
          rw [Option.some.inj hLast] at hOuter
          rw [Bool.and_eq_true, Bool.or_eq_true, beq_iff_eq,
            beq_iff_eq] at hLetter
          rcases hLetter.2 with hColon | hBar
          · exact absurd hColon
              (Host.ne_of_isOuterBlank hOuter (by decide))
          · exact absurd hBar
              (Host.ne_of_isOuterBlank hOuter (by decide))
      · cases hLetter

variable [DomainNames]

/- No host of a file URL goes on with blanks. -/
theorem FileHost.not_blanks
    {a b : Char}
    {text : List Char}
    {host : Host}
    (hFile : FileHost a b text host)
    {blanks rest : List Char}
    (hBlanks : Blanks blanks)
    (hRest : Ends true rest)
    (url : Url) :
    parseFile (a :: b :: (text ++ (blanks ++ rest))) ≠
      .ok url := by
  intro h
  have hInside := hFile.inside.append (hBlanks.inside true)
  rw [← List.append_assoc, parseFile_host hFile.first
    hFile.second hInside
    (List.append_ne_nil_of_left_ne_nil hFile.some _)
    (isDriveLetter_blanks hBlanks text) hRest] at h
  rcases Fallible.bind_eq_ok h with ⟨host, hHost, _⟩
  rcases Host.parseSpecial_blanks hBlanks text
    with ⟨error, hError⟩
  rw [hError] at hHost
  cases hHost

/- What continues a file URL keeps the host or a drive. -/
theorem origin_of_continues_file
    {base after more : List Char}
    {home url : Url}
    (hHome : parseFile after = .ok home)
    (hHost : home.hasHost = true)
    (hUrl : parseFile more = .ok url)
    (h : Continues base after more) :
    url.origin = home.origin ↔
      url.startsWithDrive = false := by
  rcases exists_fileHost hHome hHost with
    ⟨a, b, text, tail, host, hAfter, hFile, hTail, hFinish,
      _⟩
  have hOrigin : home.origin = ("file", some host, none) := by
    rw [hFinish, origin_finishAfter, if_neg hFile.notEmpty]
    rfl
  have hReads (rest : List Char)
      (hRest : Ends true rest)
      (hMore : more = a :: b :: (text ++ rest)) :
      url.origin = home.origin ↔
        url.startsWithDrive = false := by
    rw [hMore] at hUrl
    rw [hOrigin]
    exact origin_of_fileHost hFile hRest hUrl
  cases h with
  | slashes front slashes mark rest hEnd hSplit hSlashes
      hMark =>
      have hParts :
          front ++ slashes = [a, b] ++ (text ++ tail) :=
        hSplit.symm.trans hAfter
      rcases split_slashes hParts hSlashes hFile.some
        hFile.inside.not_mem_slash with
        ⟨first, hFront, hRest⟩
      refine hReads (first ++ mark :: rest)
        (ends_append_mark (hRest ▸ hTail) hMark rest) ?_
      rw [hFront, List.append_assoc, List.append_assoc]
      rfl
  | blanks blanks mark rest hEnd hBlanks hMark =>
      by_cases hNone : tail = []
      · subst hNone
        rw [hAfter, List.append_nil] at hUrl
        exact absurd hUrl (hFile.not_blanks hBlanks
          (ends_mark hMark true rest) url)
      · refine hReads (tail ++ (blanks ++ mark :: rest))
          (ends_append hTail hNone _) ?_
        rw [hAfter, ← List.append_assoc text]
        rfl

------------------------------------------------------------
-- Joined URLs
------------------------------------------------------------

theorem exists_parseAfterScheme
    {text : List Char}
    {url : Url}
    (h : parseChars text = .ok url) :
    ∃ scheme after,
      splitScheme (clean text) = some (scheme, after) ∧
      parseAfterScheme scheme after = .ok url := by
  unfold parseChars at h
  split at h
  · cases h
  · next scheme after hScheme =>
      exact ⟨scheme, after, hScheme, h⟩

theorem scheme_of_parseAfterScheme
    {scheme : String}
    {after : List Char}
    {url : Url}
    (h : parseAfterScheme scheme after = .ok url)
    (hHost : url.hasHost = true) :
    url.scheme = scheme := by
  cases hFile : scheme == "file" with
  | true =>
      have hName := eq_of_beq hFile
      subst hName
      rcases exists_fileHost h hHost with
        ⟨a, b, text, tail, host, _, _, _, hFinish, _⟩
      rw [hFinish]
      rfl
  | false =>
      rcases exists_authority hFile h hHost with
        ⟨lead, text, tail, authority, left, _, _, _, _, _,
          hFinish⟩
      rw [hFinish]
      rfl

/- A base that something follows, in its two cases. -/
theorem origin_joinUrl_of_ne_nil
    {base text : List Char}
    {scheme : String}
    {after : List Char}
    (hScheme :
      splitScheme (clean base) = some (scheme, after))
    {home url : Url}
    (hHome : parseAfterScheme scheme after = .ok home)
    (hHost : home.hasHost = true)
    (hText : text ≠ [])
    (hUrl : parseChars (joinUrl base text) = .ok url) :
    url.origin = home.origin ↔
      if scheme = "file" then url.startsWithDrive = false
      else ¬BlankAfterHost base home := by
  rcases exists_continues hScheme hText hUrl with
    ⟨more, hMore, hContinues⟩
  by_cases hFile : scheme = "file"
  · subst hFile
    rw [if_pos rfl]
    exact origin_of_continues_file hHome hHost hMore
      hContinues
  · rw [if_neg hFile]
    exact origin_of_continues (beq_false_of_ne hFile) hHome
      hHost hMore hContinues

/-
  A joined URL leads where its base does, unless it takes
  a drive for the host or its base ends in blanks.
-/
theorem origin_joinUrl_iff
    {base text : List Char}
    {home url : Url}
    (hHome : parseChars base = .ok home)
    (hHost : home.hasHost = true)
    (hUrl : parseChars (joinUrl base text) = .ok url) :
    url.origin = home.origin ↔
      ¬(home.scheme = "file" ∧
        url.startsWithDrive = true) ∧
      ¬(text ≠ [] ∧ BlankAfterHost base home) := by
  rcases exists_parseAfterScheme hHome with
    ⟨scheme, after, hScheme, hRead⟩
  have hName := scheme_of_parseAfterScheme hRead hHost
  by_cases hText : text = []
  · subst hText
    rw [joinUrl_nil, hHome] at hUrl
    cases hUrl
    refine ⟨fun _ => ⟨?_, ?_⟩, fun _ => rfl⟩
    · intro hDrive
      rw [hName] at hDrive
      rw [hDrive.1] at hRead
      rcases exists_fileHost hRead hHost with
        ⟨a, b, text, tail, host, _, _, _, _, hNone⟩
      rw [hDrive.2] at hNone
      cases hNone
    · intro hBlank
      exact hBlank.1 rfl
  rw [origin_joinUrl_of_ne_nil hScheme hRead hHost hText hUrl]
  by_cases hFile : scheme = "file"
  · rw [if_pos hFile]
    constructor
    · intro hNone
      refine ⟨?_, ?_⟩
      · intro hDrive
        rw [hDrive.2] at hNone
        cases hNone
      · intro hBlank
        have hSpecial := hBlank.2.1
        rw [hName, hFile] at hSpecial
        exact absurd hSpecial (by decide)
    · intro hNot
      rw [Bool.eq_false_iff]
      intro hDrive
      exact hNot.1 ⟨hName.trans hFile, hDrive⟩
  · rw [if_neg hFile]
    constructor
    · intro hNot
      refine ⟨?_, ?_⟩
      · intro hDrive
        exact hFile (hName.symm.trans hDrive.1)
      · intro hBlank
        exact hNot hBlank.2
    · intro hNot hBlank
      exact hNot.2 ⟨hText, hBlank⟩

end Url

end ServiceCalls
