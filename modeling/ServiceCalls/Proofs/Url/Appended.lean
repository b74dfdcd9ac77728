import ServiceCalls.Proofs.Url.Pairs
import ServiceCalls.Proofs.Url.Tails

/-
  URLs whose texts go on.

  A text that is appended to a query belongs to the query,
  one that is appended to a fragment belongs to the
  fragment, and nothing else of the URL depends on it.

  Key definitions include:
    * `Url.Appendable`
    * `Url.TakesMark`
    * `Url.OpensUser`

  Main declarations:
    * `Url.exists_query_append`
    * `Url.exists_fragment_append`
    * `Url.untailed_of_parseChars`
    * `Url.parseChars_mark_of_plain`
-/

namespace ServiceCalls

namespace Url

------------------------------------------------------------
-- Characters that Cleaning Keeps
------------------------------------------------------------

theorem mem_kept_iff
    {c : Char}
    (h : isOuterBlank c = false)
    (text : List Char) :
    c ∈ kept text ↔ c ∈ text := by
  have hDropped := not_isDropped_of_not_isOuterBlank h
  unfold kept
  rw [List.mem_filter, hDropped, Text.mem_dropWhile_iff h]
  exact and_iff_left rfl

theorem mem_clean_iff
    {c : Char}
    (h : isOuterBlank c = false)
    (text : List Char) :
    c ∈ clean text ↔ c ∈ text := by
  rcases exists_clean text with ⟨blanks, hKept, hBlanks⟩
  rw [← mem_kept_iff h text, hKept, List.mem_append]
  constructor
  · exact fun hMem => .inl hMem
  · intro hMem
    rcases hMem with hMem | hMem
    · exact hMem
    · rw [(hBlanks c hMem).1] at h
      cases h

------------------------------------------------------------
-- Schemes Before a Mark
------------------------------------------------------------

/- A scheme does not depend on what follows a mark. -/
theorem splitScheme_mark
    {mark : Char}
    (hName : isSchemeChar mark = false)
    (hColon : mark ≠ ':')
    (before text : List Char) :
    splitScheme (before ++ mark :: text) =
      (splitScheme before).map fun (scheme, after) =>
        (scheme, after ++ mark :: text) := by
  cases hScheme : splitScheme before with
  | some parts =>
      rcases parts with ⟨scheme, after⟩
      rcases exists_schemeName hScheme with
        ⟨name, hBefore, _, hReads⟩
      rw [hBefore, List.append_assoc, List.cons_append,
        hReads]
      rfl
  | none =>
      have hStops : Text.Stops isSchemeChar (mark :: text) :=
        Text.stops_cons hName text
      cases before with
      | nil =>
          have hAlpha : mark.isAlpha = false := by
            unfold isSchemeChar Char.isAlphanum at hName
            simp only [Bool.or_eq_false_iff] at hName
            exact hName.1.1.1.1
          unfold splitScheme
          rw [List.nil_append]
          dsimp only
          rw [hAlpha]
          rfl
      | cons first more =>
          unfold splitScheme at hScheme ⊢
          rw [List.cons_append]
          dsimp only at hScheme ⊢
          split
          · rfl
          · next hAlpha =>
              rw [if_neg hAlpha] at hScheme
              rw [← List.cons_append,
                List.dropWhile_append]
              cases hDrop :
                  (first :: more).dropWhile isSchemeChar
                with
              | nil =>
                  rw [List.isEmpty_nil, if_pos rfl,
                    Text.dropWhile_stops hStops]
                  split
                  · next hSplit =>
                      exact absurd (List.cons.inj hSplit).1
                        hColon
                  · rfl
              | cons c rest =>
                  rw [hDrop] at hScheme
                  rw [List.isEmpty_cons,
                    if_neg Bool.false_ne_true,
                    List.cons_append]
                  split
                  · next hSplit =>
                      rw [(List.cons.inj hSplit).1]
                        at hScheme
                      cases hScheme
                  · rfl

/- A mark is behind a scheme if it is in the text. -/
theorem mem_of_splitScheme
    {before after : List Char}
    {scheme : String}
    (h : splitScheme before = some (scheme, after))
    {c : Char}
    (hName : isSchemeChar c = false)
    (hColon : c ≠ ':') :
    c ∈ after ↔ c ∈ before := by
  rcases exists_schemeName h with ⟨name, hBefore, hAll, _⟩
  have hNot : c ∉ name := by
    intro hMem
    rw [hAll c hMem] at hName
    cases hName
  rw [hBefore, List.mem_append, List.mem_cons]
  constructor
  · exact fun hMem => .inr (.inr hMem)
  · intro hMem
    rcases hMem with hMem | hMem | hMem
    · exact absurd hMem hNot
    · exact absurd hMem hColon
    · exact hMem

/- How a text is read that goes on behind a mark. -/
theorem parseChars_mark
    [DomainNames]
    (front : List Char)
    {mark : Char}
    (hBlank : isOuterBlank mark = false)
    (hName : isSchemeChar mark = false)
    (hColon : mark ≠ ':')
    {text : List Char}
    (hText : Clear text) :
    parseChars (front ++ mark :: text) =
      match splitScheme (kept front) with
      | none => .error .relativeWithoutBase
      | some (scheme, after) =>
          parseAfterScheme scheme
            (after ++ mark :: text) := by
  unfold parseChars
  rw [clean_mark front hBlank hText,
    splitScheme_mark hName hColon]
  cases splitScheme (kept front) with
  | none => rfl
  | some parts => rfl

------------------------------------------------------------
-- Texts Appended to a Query
------------------------------------------------------------

/- A text of components and the marks between them. -/
def Appendable (text : List Char) : Prop :=
  ∀ c ∈ text,
    Text.isComponentChar c = true ∨ c = '=' ∨ c = '&'

theorem Appendable.clear
    {text : List Char}
    (h : Appendable text) :
    Clear text := by
  intro c hMem
  rcases h c hMem with hComponent | hEqual | hMark
  · exact clear_of_isComponentChar hComponent
  · subst hEqual
    decide
  · subst hMark
    decide

theorem appendable_and : Appendable ['&'] := by
  intro c hMem
  exact .inr (.inr (List.mem_singleton.mp hMem))

/- A query keeps what is appended as it is. -/
theorem Appendable.escapeChars
    {text : List Char}
    (h : Appendable text)
    (special : Bool)
    (query : List Char) :
    Text.escapeChars (escapedInQuery special)
        (query ++ text) =
      Text.escapeChars (escapedInQuery special) query ++
        text := by
  have hPlain :
      ∀ c ∈ text,
        (escapedInQuery special c ||
          decide (0x80 ≤ c.toNat)) = false := by
    intro c hMem
    rcases h c hMem with hComponent | hEqual | hMark
    · have hNot := Text.of_isComponentChar
        (p := fun c =>
          !(escapedInQuery special c ||
            decide (0x80 ≤ c.toNat)))
        (by cases special <;> decide +kernel) hComponent
      rw [Bool.not_eq_true'] at hNot
      exact hNot
    · subst hEqual
      cases special <;> decide
    · subst hMark
      cases special <;> decide
  rw [Text.escapeChars_append,
    Text.escapeChars_eq_self hPlain]

/- The URL with another query and no fragment. -/
def withQuery (url : Url) (query : List Char) : Url :=
  { url with
    query := some (String.ofList query), fragment := none }

theorem pairs_withQuery
    (url : Url)
    (query : List Char) :
    (url.withQuery query).pairs = formDecode query := by
  unfold pairs withQuery
  dsimp only
  rw [Option.getD_some, String.toList_ofList]

theorem withTail_query
    (special : Bool)
    {query : List Char}
    (h : '#' ∉ query)
    (url : Url) :
    withTail special ('?' :: query) url =
      url.withQuery (Text.escapeChars
        (escapedInQuery special) query) := by
  have hGoes : ∀ c ∈ query, (c != '#') = true := by
    intro c hMem
    rw [bne_iff_ne]
    intro hSame
    subst hSame
    exact h hMem
  have hTake := Text.takeWhile_append_stop hGoes
    Text.stops_nil
  have hDrop := Text.dropWhile_append_stop hGoes
    Text.stops_nil
  rw [List.append_nil] at hTake hDrop
  have hTail :
      parseTail special ('?' :: query) =
        (some (escape (escapedInQuery special) query),
          none) := by
    simp only [parseTail, hTake, hDrop]
  unfold withTail withQuery
  rw [hTail]
  rfl

/- A text without a fragment has a query or no tail. -/
theorem untailed_or_query
    {text : List Char}
    (h : '#' ∉ text) :
    Untailed text ∨
      ∃ ahead query,
        text = ahead ++ '?' :: query ∧
        Untailed ahead ∧ '#' ∉ query := by
  rcases exists_splitTail text with
    ⟨ahead, tail, hText, _, hAhead, hTail⟩
  cases tail with
  | nil =>
      rw [List.append_nil] at hText
      rw [hText]
      exact .inl hAhead
  | cons c query =>
      have hNone : '#' ∉ c :: query := by
        intro hMem
        apply h
        rw [hText]
        exact List.mem_append_right _ hMem
      have hQuery : c = '?' := by
        rcases hTail c rfl with hQuery | hHash
        · exact hQuery
        · subst hHash
          exact absurd List.mem_cons_self hNone
      subst hQuery
      exact .inr ⟨ahead, query, hText, hAhead,
        fun hMem => hNone (List.mem_cons_of_mem _ hMem)⟩

/- A text that a mark opens a query of, or goes on with. -/
structure TakesMark (front : List Char) (mark : Char) :
    Prop where
  noFragment : '#' ∉ front
  mark :
    (mark = '?' ∧ '?' ∉ front) ∨ (mark = '&' ∧ '?' ∈ front)

theorem TakesMark.cases
    {front : List Char}
    {mark : Char}
    (h : TakesMark front mark) :
    (mark = '?' ∧ Untailed front) ∨
      (mark = '&' ∧ ∃ ahead query,
        front = ahead ++ '?' :: query ∧
        Untailed ahead ∧ '#' ∉ query) := by
  rcases untailed_or_query h.noFragment with
    hUntailed | ⟨ahead, query, hSplit, hAhead, hQuery⟩
  · rcases h.mark with ⟨hMark, _⟩ | ⟨_, hMem⟩
    · exact .inl ⟨hMark, hUntailed⟩
    · exact absurd rfl (hUntailed '?' hMem).1
  · rcases h.mark with ⟨_, hNot⟩ | ⟨hMark, _⟩
    · refine absurd ?_ hNot
      rw [hSplit]
      exact List.mem_append_right _ List.mem_cons_self
    · exact .inr ⟨hMark, ahead, query, hSplit, hAhead,
        hQuery⟩

/- Where the query is that a text is appended to. -/
theorem TakesMark.exists_query
    {front : List Char}
    {mark : Char}
    (h : TakesMark front mark) :
    ∃ before query,
      front ++ [mark] = before ++ '?' :: query ∧
      Untailed before ∧ '#' ∉ query ∧ Opens query := by
  rcases h.cases with
    ⟨hMark, hFront⟩ |
      ⟨hMark, ahead, query, hSplit, hAhead, hQuery⟩
  · subst hMark
    exact ⟨front, [], rfl, hFront, List.not_mem_nil,
      .inl rfl⟩
  · subst hMark
    refine ⟨ahead, query ++ ['&'], ?_, hAhead, ?_,
      .inr ⟨query, rfl⟩⟩
    · rw [hSplit, List.append_assoc]
      rfl
    · intro hMem
      rcases List.mem_append.mp hMem with hMem | hMem
      · exact hQuery hMem
      · exact absurd hMem (by decide)

theorem TakesMark.plain
    {front : List Char}
    {mark : Char}
    (h : TakesMark front mark) :
    isOuterBlank mark = false ∧
      isSchemeChar mark = false ∧ mark ≠ ':' := by
  rcases h.mark with ⟨hMark, _⟩ | ⟨hMark, _⟩
  · subst hMark
    decide
  · subst hMark
    decide

theorem TakesMark.ne_slash
    {front : List Char}
    {mark : Char}
    (h : TakesMark front mark) :
    mark ≠ '/' := by
  rcases h.mark with ⟨hMark, _⟩ | ⟨hMark, _⟩
  · subst hMark
    decide
  · subst hMark
    decide

/- Only a mark that opens a query may stand alone. -/
theorem TakesMark.some_or
    {front : List Char}
    {mark : Char}
    (h : TakesMark front mark) :
    front ≠ [] ∨ mark = '?' := by
  rcases h.mark with ⟨hMark, _⟩ | ⟨_, hMem⟩
  · exact .inr hMark
  · exact .inl (List.ne_nil_of_mem hMem)

/- A mark is taken behind a scheme as before it. -/
theorem TakesMark.behind
    {front after : List Char}
    {mark : Char}
    (h : TakesMark front mark)
    {scheme : String}
    (hScheme :
      splitScheme (kept front) = some (scheme, after)) :
    TakesMark after mark := by
  have hAfter (c : Char)
      (hBlank : isOuterBlank c = false)
      (hName : isSchemeChar c = false)
      (hColon : c ≠ ':') :
      c ∈ after ↔ c ∈ front := by
    rw [mem_of_splitScheme hScheme hName hColon,
      mem_kept_iff hBlank]
  have hQuestion := hAfter '?' rfl rfl (by decide)
  have hHash := hAfter '#' rfl rfl (by decide)
  constructor
  · rw [hHash]
    exact h.noFragment
  · rw [hQuestion]
    exact h.mark

theorem Opens.escapeChars
    {query : List Char}
    (h : Opens query)
    (special : Bool) :
    Opens (Text.escapeChars (escapedInQuery special)
      query) := by
  rcases h with hNone | ⟨front, hMark⟩
  · subst hNone
    exact .inl rfl
  · rw [hMark, appendable_and.escapeChars]
    exact .inr ⟨_, rfl⟩

/- Only the query depends on what comes behind its mark. -/
theorem exists_query_behind
    [DomainNames]
    (scheme : String)
    {ahead : List Char}
    (hAhead : Untailed ahead) :
    ∃ outcome : Option Url,
      ∀ query, '#' ∉ query →
        (parseAfterScheme scheme
          (ahead ++ '?' :: query)).toOption =
          outcome.map (·.withQuery (Text.escapeChars
            (escapedInQuery (isSpecial scheme)) query)) := by
  by_cases hOpen : OpenUser scheme ahead
  · refine ⟨none, ?_⟩
    intro query _
    rw [parseAfterScheme_openUser hOpen
      (marks_cons (.inl rfl) _) (List.cons_ne_nil _ _)]
    rfl
  · refine ⟨(parseAfterScheme scheme ahead).toOption, ?_⟩
    intro query hQuery
    rw [parseAfterScheme_tail hAhead
      (marks_cons (.inl rfl) _) hOpen]
    cases parseAfterScheme scheme ahead with
    | error error => rfl
    | ok url =>
        exact congrArg some (withTail_query _ hQuery url)

/-
  What is appended to a query is appended to that of the
  URL, and nothing else of the URL depends on it.
-/
theorem exists_query_append
    [DomainNames]
    {front : List Char}
    {mark : Char}
    (h : TakesMark front mark) :
    ∃ (outcome : Option Url) (query : List Char),
      Opens query ∧
      ∀ text, Appendable text →
        (parseChars (front ++ mark :: text)).toOption =
          outcome.map (·.withQuery (query ++ text)) := by
  have hParse {text : List Char} (hText : Clear text) :=
    parseChars_mark front h.plain.1 h.plain.2.1
      h.plain.2.2 hText
  cases hScheme : splitScheme (kept front) with
  | none =>
      refine ⟨none, [], .inl rfl, ?_⟩
      intro text hText
      rw [hParse hText.clear, hScheme]
      rfl
  | some parts =>
      rcases parts with ⟨scheme, after⟩
      rcases (h.behind hScheme).exists_query with
        ⟨ahead, query, hSplit, hAhead, hNone, hOpens⟩
      have hText (text : List Char) :
          after ++ mark :: text =
            ahead ++ '?' :: (query ++ text) := by
        rw [← List.singleton_append, ← List.append_assoc,
          hSplit, List.append_assoc]
        rfl
      rcases exists_query_behind scheme hAhead with
        ⟨outcome, hOutcome⟩
      refine ⟨outcome, _,
        hOpens.escapeChars (isSpecial scheme), ?_⟩
      intro text hAppend
      have hAll : '#' ∉ query ++ text := by
        intro hMem
        rcases List.mem_append.mp hMem with hMem | hMem
        · exact hNone hMem
        · exact (hAppend.clear '#' hMem).2.2 rfl
      rw [hParse hAppend.clear, hScheme]
      dsimp only
      rw [hText, hOutcome _ hAll, hAppend.escapeChars]

------------------------------------------------------------
-- Texts Appended to a Fragment
------------------------------------------------------------

/- A fragment takes everything that follows it. -/
theorem withTail_fragment
    (special : Bool)
    {tail : List Char}
    (hTail : Marks tail)
    (hNone : '#' ∉ tail)
    (fragment : List Char)
    (url : Url) :
    withTail special (tail ++ '#' :: fragment) url =
      { withTail special tail url with
        fragment :=
          some (escape escapedInFragment fragment) } := by
  cases tail with
  | nil => rfl
  | cons c query =>
      have hQuery : c = '?' := by
        rcases hTail c rfl with hQuery | hHash
        · exact hQuery
        · subst hHash
          exact absurd List.mem_cons_self hNone
      subst hQuery
      have hGoes : ∀ c ∈ query, (c != '#') = true := by
        intro c hMem
        rw [bne_iff_ne]
        intro hSame
        subst hSame
        exact hNone (List.mem_cons_of_mem _ hMem)
      have hStops :
          Text.Stops (· != '#') ('#' :: fragment) :=
        Text.stops_cons rfl fragment
      have hTake := Text.takeWhile_append_stop hGoes hStops
      have hDrop := Text.dropWhile_append_stop hGoes hStops
      have hAlone := Text.takeWhile_append_stop hGoes
        Text.stops_nil
      rw [List.append_nil] at hAlone
      simp only [withTail, List.cons_append, parseTail,
        hTake, hDrop, hAlone]

/- How what follows a scheme is read up to a fragment. -/
theorem exists_fragment_tail
    [DomainNames]
    (scheme : String)
    {after : List Char}
    (hNone : '#' ∉ after) :
    ∃ outcome : Option Url, ∀ fragment,
      (parseAfterScheme scheme
          (after ++ '#' :: fragment)).toOption =
        outcome.map fun url =>
          { url with
            fragment :=
              some (escape escapedInFragment fragment) } := by
  rcases exists_splitTail after with
    ⟨ahead, tail, hAfter, _, hAhead, hTail⟩
  have hPart : '#' ∉ tail := by
    intro hMem
    apply hNone
    rw [hAfter]
    exact List.mem_append_right _ hMem
  have hMarks (fragment : List Char) :
      Marks (tail ++ '#' :: fragment) := by
    cases tail with
    | nil => exact marks_cons (.inr rfl) fragment
    | cons c query => exact hTail
  have hSome (fragment : List Char) :
      tail ++ '#' :: fragment ≠ [] :=
    List.append_ne_nil_of_right_ne_nil _
      (List.cons_ne_nil _ _)
  by_cases hOpen : OpenUser scheme ahead
  · refine ⟨none, ?_⟩
    intro fragment
    rw [hAfter, List.append_assoc,
      parseAfterScheme_openUser hOpen (hMarks fragment)
        (hSome fragment)]
    rfl
  · refine ⟨(parseAfterScheme scheme ahead).toOption.map
      (withTail (isSpecial scheme) tail), ?_⟩
    intro fragment
    rw [hAfter, List.append_assoc,
      parseAfterScheme_tail hAhead (hMarks fragment) hOpen]
    cases parseAfterScheme scheme ahead with
    | error error => rfl
    | ok url =>
        change some (withTail _ _ url) = some _
        rw [withTail_fragment _ hTail hPart]

/-
  What is appended to a fragment is part of the fragment, and
  nothing else of the URL depends on it.
-/
theorem exists_fragment_append
    [DomainNames]
    {front : List Char}
    (h : '#' ∈ front)
    {mark : Char}
    (hMark : isOuterBlank mark = false)
    {text : List Char}
    (hText : Clear text) :
    ∃ fragment,
      (parseChars (front ++ mark :: text)).toOption =
        (parseChars front).toOption.map fun url =>
          { url with fragment := fragment } := by
  have hHash : '#' ∈ clean front :=
    (mem_clean_iff rfl front).mpr h
  rcases exists_clean front with ⟨blanks, hKept, _⟩
  rcases List.eq_append_cons_of_mem hHash with
    ⟨before, rest, hClean, hNone⟩
  unfold parseChars
  rw [clean_mark front hMark hText, hKept, hClean,
    List.append_assoc, List.append_assoc, List.cons_append,
    splitScheme_mark rfl (by decide),
    splitScheme_mark rfl (by decide)]
  cases hScheme : splitScheme before with
  | none => exact ⟨none, rfl⟩
  | some parts =>
      rcases parts with ⟨scheme, after⟩
      have hAfter : '#' ∉ after := by
        rw [mem_of_splitScheme hScheme rfl (by decide)]
        exact hNone
      rcases exists_fragment_tail scheme hAfter with
        ⟨outcome, hOutcome⟩
      refine ⟨some (escape escapedInFragment
        (rest ++ (blanks ++ mark :: text))), ?_⟩
      dsimp only [Option.map_some]
      rw [hOutcome, hOutcome, Option.map_map]
      rfl

------------------------------------------------------------
-- Texts Without a Tail
------------------------------------------------------------

theorem finish_untailed
    (scheme : String)
    (authority : Option Authority)
    (path : List Char → Path)
    {text : List Char}
    (h : Untailed text) :
    (finish scheme authority path text).query = none ∧
      (finish scheme authority path text).fragment =
        none := by
  unfold finish
  rw [h.splitTail]
  exact ⟨rfl, rfl⟩

section

variable [DomainNames]

/- Without marks there is neither query nor fragment. -/
theorem query_of_untailed
    {scheme : String}
    {text : List Char}
    (h : Untailed text)
    {url : Url}
    (hUrl : parseAfterScheme scheme text = .ok url) :
    url.query = none ∧ url.fragment = none := by
  by_cases hOpen : OpenUser scheme text
  · have hRest : Untailed ['@'] := by
      intro c hMem
      rw [List.mem_singleton.mp hMem]
      decide
    rw [hOpen.2, parseAfterScheme_authority hOpen.1] at hUrl
    rcases Fallible.map_eq_ok hUrl with
      ⟨⟨authority, left⟩, hRead, hSame⟩
    rw [← hSame]
    exact finish_untailed _ _ _ fun c hMem =>
      hRest c ((suffix_of_parseAuthority hRead).subset hMem)
  · have hTail := parseAfterScheme_tail h marks_nil hOpen
    rw [List.append_nil, hUrl] at hTail
    have hSame := Except.ok.inj hTail
    rw [hSame]
    exact ⟨rfl, rfl⟩

theorem query_of_parseChars
    {text : List Char}
    (h : Untailed text)
    {url : Url}
    (hUrl : parseChars text = .ok url) :
    url.query = none ∧ url.fragment = none := by
  rcases exists_parseAfterScheme hUrl with
    ⟨scheme, after, hScheme, hRead⟩
  rcases exists_schemeName hScheme with
    ⟨name, hClean, _, _⟩
  have hNot (mark : Char)
      (hBlank : isOuterBlank mark = false)
      (hNone : mark ∉ text) :
      mark ∉ after := by
    intro hMem
    apply hNone
    rw [← mem_clean_iff hBlank, hClean]
    exact List.mem_append_right _
      (List.mem_cons_of_mem _ hMem)
  apply query_of_untailed _ hRead
  intro c hMem
  constructor
  · intro hSame
    subst hSame
    exact hNot '?' rfl (fun hIn => (h _ hIn).1 rfl) hMem
  · intro hSame
    subst hSame
    exact hNot '#' rfl (fun hIn => (h _ hIn).2 rfl) hMem

/- A URL without query and fragment has no mark of one. -/
theorem untailed_of_parseChars
    {text : List Char}
    {url : Url}
    (hUrl : parseChars text = .ok url)
    (hQuery : url.query = none)
    (hFragment : url.fragment = none) :
    Untailed text := by
  rcases exists_parseAfterScheme hUrl with
    ⟨scheme, after, hScheme, hRead⟩
  have hAfter : Untailed after := by
    rcases exists_splitTail after with
      ⟨ahead, tail, hSplit, _, hAhead, hTail⟩
    cases tail with
    | nil =>
        rw [hSplit, List.append_nil]
        exact hAhead
    | cons mark rest =>
        rw [hSplit] at hRead
        by_cases hOpen : OpenUser scheme ahead
        · rw [parseAfterScheme_openUser hOpen hTail
            (List.cons_ne_nil _ _)] at hRead
          cases hRead
        · rw [parseAfterScheme_tail hAhead hTail hOpen]
            at hRead
          rcases Fallible.map_eq_ok hRead with
            ⟨other, _, hSame⟩
          rw [← hSame] at hQuery hFragment
          rcases hTail mark rfl with hMark | hMark
          · subst hMark
            cases hQuery
          · subst hMark
            cases hFragment
  intro c hMem
  have hNot (mark : Char)
      (hBlank : isOuterBlank mark = false)
      (hName : isSchemeChar mark = false)
      (hColon : mark ≠ ':')
      (hUntailed : mark ∉ after) :
      c ≠ mark := by
    intro hSame
    subst hSame
    apply hUntailed
    rw [mem_of_splitScheme hScheme hName hColon,
      mem_clean_iff hBlank]
    exact hMem
  constructor
  · exact hNot '?' rfl rfl (by decide)
      fun hIn => (hAfter _ hIn).1 rfl
  · exact hNot '#' rfl rfl (by decide)
      fun hIn => (hAfter _ hIn).2 rfl

end

------------------------------------------------------------
-- Texts that End Plainly
------------------------------------------------------------

/- A text that ends with the mark of user information. -/
def OpensUser (text : List Char) : Prop :=
  ∃ scheme after,
    splitScheme (clean text) = some (scheme, after) ∧
      OpenUser scheme after

/- The URL with a mark at the end of its query. -/
def markedWith (mark : Char) (url : Url) : Url :=
  { url with
    query := some (String.ofList
      ((url.query.getD "").toList ++
        if mark == '&' then ['&'] else [])) }

theorem pairs_markedWith
    (mark : Char)
    (url : Url) :
    (url.markedWith mark).pairs = url.pairs := by
  unfold pairs markedWith
  dsimp only
  rw [Option.getD_some, String.toList_ofList]
  split
  · have hNil : formDecode [] = [] := rfl
    rw [formDecode_append, hNil, List.append_nil]
  · rw [List.append_nil]

/- Without blanks at its end a text keeps what is kept. -/
theorem clean_of_endsInBlank
    {front : List Char}
    (h : endsInBlank front = false) :
    clean front = kept front := by
  rcases exists_clean front with ⟨blanks, hKept, hBlanks⟩
  by_cases hSome : kept front = []
  · rw [clean_eq, hSome]
    rfl
  · have hEnds := endsInBlank_iff hSome hKept hBlanks
    have hNone : blanks = [] := by
      apply Decidable.byContradiction
      intro hNot
      rw [hEnds.mpr hNot] at h
      cases h
    rw [hKept, hNone, List.append_nil]

variable [DomainNames]

/- A mark that opens the query leaves the rest as it is. -/
theorem parseAfterScheme_question
    {scheme : String}
    {after : List Char}
    (hAfter : Untailed after)
    (hOpen : ¬OpenUser scheme after) :
    parseAfterScheme scheme (after ++ ['?']) =
      (parseAfterScheme scheme after).map
        (·.markedWith '?') := by
  rw [parseAfterScheme_tail hAfter (marks_cons (.inl rfl) [])
    hOpen]
  cases hRead : parseAfterScheme scheme after with
  | error error => rfl
  | ok url =>
      rcases query_of_untailed hAfter hRead with
        ⟨hQuery, hFragment⟩
      dsimp only [Except.map]
      rw [withTail_query _ List.not_mem_nil]
      unfold withQuery markedWith
      rw [hQuery, hFragment]
      rfl

/- A mark that goes on with the query leaves the rest. -/
theorem parseAfterScheme_and
    {scheme : String}
    {ahead query : List Char}
    (hAhead : Untailed ahead)
    (hQuery : '#' ∉ query) :
    (parseAfterScheme scheme
        (ahead ++ '?' :: (query ++ ['&']))).toOption =
      (parseAfterScheme scheme
        (ahead ++ '?' :: query)).toOption.map
          (·.markedWith '&') := by
  have hBoth : '#' ∉ query ++ ['&'] := by
    intro hMem
    rcases List.mem_append.mp hMem with hMem | hMem
    · exact hQuery hMem
    · exact absurd hMem (by decide)
  rcases exists_query_behind scheme hAhead with
    ⟨outcome, hOutcome⟩
  rw [hOutcome _ hBoth, hOutcome _ hQuery,
    appendable_and.escapeChars, Option.map_map]
  congr 1
  funext url
  unfold Function.comp withQuery markedWith
  dsimp only
  rw [Option.getD_some, String.toList_ofList]
  rfl

/-
  A mark at the end of a text that ends in no blank leaves
  the URL as it is.
-/
theorem parseChars_mark_of_plain
    {front : List Char}
    {mark : Char}
    (h : TakesMark front mark)
    (hEnd : endsInBlank front = false)
    (hUser : ¬OpensUser front) :
    (parseChars (front ++ [mark])).toOption =
      (parseChars front).toOption.map
        (·.markedWith mark) := by
  have hNil : Clear [] := by
    intro c hMem
    cases hMem
  rw [parseChars_mark front h.plain.1 h.plain.2.1
    h.plain.2.2 hNil]
  unfold parseChars OpensUser at *
  rw [clean_of_endsInBlank hEnd] at hUser ⊢
  cases hScheme : splitScheme (kept front) with
  | none => rfl
  | some parts =>
      rcases parts with ⟨scheme, after⟩
      have hOpen : ¬OpenUser scheme after :=
        fun hOpen => hUser ⟨scheme, after, hScheme, hOpen⟩
      have hTakes := h.behind hScheme
      dsimp only
      rcases hTakes.cases with
        ⟨hMark, hAfter⟩ |
          ⟨hMark, ahead, query, hSplit, hAhead, hQuery⟩
      · subst hMark
        rw [parseAfterScheme_question hAfter hOpen]
        cases parseAfterScheme scheme after with
        | error error => rfl
        | ok url => rfl
      · subst hMark
        rw [hSplit, List.append_assoc]
        exact parseAfterScheme_and hAhead hQuery

/- A mark after such user information is refused. -/
theorem parseChars_mark_of_opensUser
    {front : List Char}
    {mark : Char}
    (h : TakesMark front mark)
    (hEnd : endsInBlank front = false)
    (hUser : OpensUser front) :
    (parseChars (front ++ [mark])).toOption = none := by
  rcases hUser with ⟨scheme, after, hScheme, hOpen⟩
  have hNil : Clear [] := by
    intro c hMem
    cases hMem
  have hMark : Marks [mark] := by
    apply marks_cons
    rcases h.mark with ⟨hMark, _⟩ | ⟨_, hMem⟩
    · exact .inl hMark
    · -- The user information has no query before it.
      rw [clean_of_endsInBlank hEnd] at hScheme
      have hAfter := (mem_of_splitScheme hScheme
        (c := '?') rfl (by decide)).mpr
          ((mem_kept_iff rfl front).mpr hMem)
      rw [hOpen.2] at hAfter
      exact absurd hAfter (by decide)
  rw [clean_of_endsInBlank hEnd] at hScheme
  rw [parseChars_mark front h.plain.1 h.plain.2.1
    h.plain.2.2 hNil, hScheme]
  dsimp only
  rw [parseAfterScheme_openUser hOpen hMark
    (List.cons_ne_nil _ _)]
  rfl

end Url

end ServiceCalls
