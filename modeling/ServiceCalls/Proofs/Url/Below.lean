import ServiceCalls.Proofs.Text.Percent
import ServiceCalls.Proofs.Url.Continuation

/-
  Paths of URLs that are below another.

  A text after the last slashes of a base is read behind the
  same path whatever it is, as long as it starts no query
  and no fragment and holds no blanks.

  Key definitions include:
    * `Url.Clear`
    * `Url.trimSlashes`
    * `Url.ReadsBelow`

  Main declarations:
    * `Url.Leads.readsBehind`
    * `Url.exists_readsBelow`
-/

namespace ServiceCalls

namespace Url

------------------------------------------------------------
-- Texts of a Path
------------------------------------------------------------

/- A text without blanks that ends in the path. -/
def Clear (text : List Char) : Prop :=
  ∀ c ∈ text,
    isOuterBlank c = false ∧ c ≠ '?' ∧ c ≠ '#'

/- A component has no blank and starts no tail. -/
theorem clear_of_isComponentChar
    {c : Char}
    (h : Text.isComponentChar c = true) :
    isOuterBlank c = false ∧ c ≠ '?' ∧ c ≠ '#' := by
  have hAll := Text.of_isComponentChar
    (p := fun c =>
      !isOuterBlank c && c != '?' && c != '#')
    (by decide +kernel) h
  simp only [Bool.and_eq_true, Bool.not_eq_true',
    bne_iff_ne] at hAll
  exact ⟨hAll.1.1, hAll.1.2, hAll.2⟩

theorem not_isDropped_of_not_isOuterBlank
    {c : Char}
    (h : isOuterBlank c = false) :
    isDropped c = false := by
  rw [Bool.eq_false_iff]
  intro hDropped
  rw [isOuterBlank_of_isDropped hDropped] at h
  cases h

theorem Clear.filter
    {text : List Char}
    (h : Clear text) :
    (text.filter fun c => !isDropped c) = text := by
  rw [List.filter_eq_self]
  intro c hMem
  rw [not_isDropped_of_not_isOuterBlank (h c hMem).1]
  rfl

theorem Clear.dropWhileEnd
    {text : List Char}
    (h : Clear text) :
    Text.dropWhileEnd isOuterBlank text = text := by
  unfold Text.dropWhileEnd
  rw [Text.dropWhile_stops, List.reverse_reverse]
  intro c hHead
  exact (h c (List.mem_reverse.mp
    (List.mem_of_head? hHead))).1

/- What comes before a mark does not depend on it. -/
theorem kept_mark
    (front : List Char)
    {mark : Char}
    (hMark : isOuterBlank mark = false)
    (text : List Char) :
    kept (front ++ mark :: text) =
      kept front ++
        (mark :: text).filter fun c => !isDropped c := by
  by_cases hFront : front.dropWhile isOuterBlank = []
  · have hStops :
        Text.Stops isOuterBlank (mark :: text) :=
      Text.stops_cons hMark text
    unfold kept
    rw [List.dropWhile_append, hFront, List.isEmpty_nil,
      if_pos rfl, Text.dropWhile_stops hStops]
    rfl
  · exact kept_append hFront _

/- Cleaning leaves a clear text behind a mark. -/
theorem clean_mark
    (front : List Char)
    {mark : Char}
    (hMark : isOuterBlank mark = false)
    {text : List Char}
    (hText : Clear text) :
    clean (front ++ mark :: text) =
      kept front ++ mark :: text := by
  have hFilter :
      ((mark :: text).filter fun c => !isDropped c) =
        mark :: text := by
    rw [List.filter_cons_of_pos, hText.filter]
    rw [not_isDropped_of_not_isOuterBlank hMark]
    rfl
  rw [clean_eq, kept_mark front hMark, hFilter,
    Text.dropWhileEnd_append_cons hMark,
    hText.dropWhileEnd]

/- A text starts neither a query nor a fragment. -/
def Untailed (text : List Char) : Prop :=
  ∀ c ∈ text, c ≠ '?' ∧ c ≠ '#'

theorem Clear.untailed
    {text : List Char}
    (h : Clear text) :
    Untailed text :=
  fun c hMem => (h c hMem).2

theorem untailed_nil : Untailed [] := by
  intro c hMem
  cases hMem

theorem Untailed.append
    {front rest : List Char}
    (hFront : Untailed front)
    (hRest : Untailed rest) :
    Untailed (front ++ rest) := by
  intro c hMem
  rcases List.mem_append.mp hMem with hFirst | hSecond
  · exact hFront c hFirst
  · exact hRest c hSecond

theorem Untailed.cons_slash
    {text : List Char}
    (h : Untailed text) :
    Untailed ('/' :: text) := by
  intro c hMem
  rcases List.mem_cons.mp hMem with hFirst | hMem
  · subst hFirst
    decide
  · exact h c hMem

/- A text within an authority has no tail. -/
theorem Inside.untailed
    {special : Bool}
    {text : List Char}
    (h : Inside special text) :
    Untailed text := by
  intro c hMem
  have hNot := h c hMem
  simp only [endsAuthority, Bool.or_eq_false_iff,
    beq_eq_false_iff_ne] at hNot
  exact ⟨hNot.1.1.2, hNot.1.2⟩

theorem Untailed.splitTail
    {text : List Char}
    (h : Untailed text) :
    splitTail text = (text, []) := by
  have hAll :
      ∀ c ∈ text, (c != '?' && c != '#') = true := by
    intro c hMem
    rw [Bool.and_eq_true, bne_iff_ne, bne_iff_ne]
    exact h c hMem
  have hTake := Text.takeWhile_append_stop hAll
    Text.stops_nil
  have hDrop := Text.dropWhile_append_stop hAll
    Text.stops_nil
  rw [List.append_nil] at hTake hDrop
  unfold Url.splitTail
  rw [hTake, hDrop]

theorem path_finishAfter
    (scheme : String)
    (authority : Authority)
    {text : List Char}
    (h : Untailed text) :
    (finishAfter scheme authority text).path =
      .segments (parsePath (isSpecial scheme)
        (scheme == "file") text) := by
  unfold finishAfter finish
  rw [h.splitTail]

/- A text is split before its query and fragment. -/
theorem exists_splitTail (text : List Char) :
    ∃ front tail,
      text = front ++ tail ∧
      splitTail text = (front, tail) ∧
      Untailed front ∧
      ∀ c, tail.head? = some c → c = '?' ∨ c = '#' := by
  refine ⟨_, _, ?_, rfl, ?_, ?_⟩
  · exact List.takeWhile_append_dropWhile.symm
  · intro c hMem
    have hAll :=
      List.all_eq_true.mp List.all_takeWhile c hMem
    rw [Bool.and_eq_true, bne_iff_ne, bne_iff_ne] at hAll
    exact hAll
  · intro c hHead
    have hStop := Text.stops_dropWhile text c hHead
    rw [Bool.and_eq_false_iff, bne_eq_false_iff_eq,
      bne_eq_false_iff_eq] at hStop
    exact hStop

/- A URL without query and fragment has no tail. -/
theorem untailed_of_finish
    {scheme : String}
    {authority : Option Authority}
    {path : List Char → Path}
    {text : List Char}
    (hQuery :
      (finish scheme authority path text).query = none)
    (hFragment :
      (finish scheme authority path text).fragment = none) :
    Untailed text := by
  rcases exists_splitTail text with
    ⟨front, tail, hText, hSplit, hFront, hTail⟩
  unfold finish at hQuery hFragment
  rw [hSplit] at hQuery hFragment
  cases tail with
  | nil =>
      rw [hText, List.append_nil]
      exact hFront
  | cons c more =>
      rcases hTail c rfl with hMark | hMark
      · subst hMark
        cases hQuery
      · subst hMark
        cases hFragment

------------------------------------------------------------
-- What Follows an Authority
------------------------------------------------------------

theorem suffix_of_parsePort
    {sofar port : Option Nat}
    {text left : List Char}
    (h : parsePort sofar text = .ok (port, left)) :
    left <:+ text := by
  induction text generalizing sofar with
  | nil =>
      cases h
      exact List.suffix_refl _
  | cons first rest ih =>
      unfold parsePort at h
      split at h
      · dsimp only at h
        split at h
        · cases h
        · exact (ih h).trans (List.suffix_cons _ _)
      · split at h
        · cases h
          exact List.suffix_refl _
        · cases h

/- What is left after an authority ends the text. -/
theorem suffix_of_parseAuthority
    [DomainNames]
    {scheme : String}
    {text left : List Char}
    {authority : Authority}
    (h : parseAuthority scheme text = .ok (authority, left)) :
    left <:+ text := by
  rw [parseAuthority_eq] at h
  rcases Fallible.bind_eq_ok h with
    ⟨⟨user, named⟩, hUser, hRead⟩
  rcases Fallible.bind_eq_ok hRead with
    ⟨⟨host, more⟩, hHost, hPort⟩
  have hMore : more <:+ text := by
    rw [(of_readHost hHost).2]
    exact (List.drop_suffix _ _).trans
      (suffix_of_splitUser hUser)
  rcases of_readPort hPort with ⟨port, hFound, _⟩
  unfold portOf at hFound
  split at hFound
  · next digits =>
      exact (suffix_of_parsePort hFound).trans
        ((List.suffix_cons _ _).trans hMore)
  · cases hFound
    exact hMore

------------------------------------------------------------
-- Paths Behind a Base
------------------------------------------------------------

/-
  How texts are read that follow a slash after some text: a
  path behind a front that is always the same, or the same
  failure.
-/
def ReadsBehind
    [DomainNames]
    (scheme : String)
    (before : List Char)
    (outcome : Except UrlError (List Char)) :
    Prop :=
  ∀ text, Untailed text →
    (parseAfterScheme scheme (before ++ '/' :: text)).map
        Url.path =
      outcome.map fun front =>
        .segments (parsePath (isSpecial scheme)
          (scheme == "file") (front ++ '/' :: text))

theorem ends_slash (special : Bool) (text : List Char) :
    Ends special ('/' :: text) :=
  Text.stops_cons rfl text

/- Behind an authority, what follows is a path. -/
theorem Leads.readsBehind
    [DomainNames]
    {scheme : String}
    {lead text : List Char}
    (h : Leads scheme lead text)
    {rest : List Char}
    (hRest : Untailed rest)
    (hEnds : ∀ more,
      Ends (isSpecial scheme) (rest ++ '/' :: more)) :
    ReadsBehind scheme (lead ++ (text ++ rest))
      ((parseAuthority scheme text).map
        fun (_, left) => left ++ rest) := by
  intro more hMore
  rw [List.append_assoc, List.append_assoc, h.reads,
    parseAuthority_append h.inside h.named (hEnds more)]
  cases hAuthority : parseAuthority scheme text with
  | error error => rfl
  | ok parts =>
      rcases parts with ⟨authority, left⟩
      have hLeft : Untailed left := fun c hMem =>
        h.inside.untailed c
          ((suffix_of_parseAuthority hAuthority).subset
            hMem)
      have hPath := path_finishAfter scheme authority
        (hLeft.append (hRest.append hMore.cons_slash))
      dsimp only [Except.map]
      rw [hPath, List.append_assoc]

/- Behind the host of a file, what follows is a path. -/
theorem readsBehind_file
    [DomainNames]
    {a b : Char}
    (ha : isSlash true a = true)
    (hb : isSlash true b = true)
    {text : List Char}
    (hInside : Inside true text)
    (hSome : text ≠ [])
    (hDrive : isDriveLetter text = false)
    {rest : List Char}
    (hRest : Untailed rest)
    (hEnds : ∀ more, Ends true (rest ++ '/' :: more)) :
    ReadsBehind "file" (a :: b :: (text ++ rest))
      ((Host.parseSpecial text).map fun _ => rest) := by
  intro more hMore
  have hPath (authority : Authority) :=
    path_finishAfter "file" authority
      (hRest.append hMore.cons_slash)
  change (parseFile (a :: b ::
    (text ++ rest ++ '/' :: more))).map Url.path = _
  rw [List.append_assoc, parseFile_host ha hb hInside hSome
    hDrive (hEnds more)]
  -- Taking the host away does not change the path.
  have hKept
      (host : Host)
      (drops : Bool) :
      (let url := finishAfter "file"
          { nowhere with host := host } (rest ++ '/' :: more)
        if drops then
          Except.ok { url with authority := some nowhere }
        else Except.ok url : Except UrlError Url).map
            Url.path =
        .ok (.segments (parsePath (isSpecial "file")
          ("file" == "file") (rest ++ '/' :: more))) := by
    cases drops with
    | true => exact congrArg Except.ok (hPath _)
    | false => exact congrArg Except.ok (hPath _)
  cases Host.parseSpecial text with
  | error error => rfl
  | ok host => exact hKept host _

theorem ends_append_slash
    {special : Bool}
    {tail more : List Char}
    (h : Ends special (tail ++ more))
    (rest : List Char) :
    Ends special (tail ++ '/' :: rest) :=
  ends_append_mark h (.inl rfl) rest

/- What follows a base without its last slashes is a path. -/
theorem readsBehind_front
    [DomainNames]
    {scheme : String}
    {front slashes : List Char}
    (hSlashes : ∀ c ∈ slashes, c = '/')
    {home : Url}
    (hHome :
      parseAfterScheme scheme (front ++ slashes) = .ok home)
    (hHost : home.hasHost = true)
    (hQuery : home.query = none)
    (hFragment : home.fragment = none) :
    ∃ lead,
      ReadsBehind scheme front (.ok lead) ∧
      home.path = .segments (parsePath (isSpecial scheme)
        (scheme == "file") (lead ++ slashes)) := by
  cases hFile : scheme == "file" with
  | false =>
      rcases exists_authority hFile hHome hHost with
        ⟨lead, text, tail, authority, left, hAfter, hLeads,
          hTail, hAuthority, _, hFinish⟩
      rcases split_slashes hAfter hSlashes hLeads.some
        hLeads.inside.not_mem_slash with
        ⟨rest, hFront, hRest⟩
      rw [hFinish] at hQuery hFragment
      have hUntailed := untailed_of_finish hQuery hFragment
      have hPath := path_finishAfter scheme authority
        hUntailed
      rw [hRest] at hTail hUntailed
      have hReads := hLeads.readsBehind
        (fun c hMem => hUntailed c
          (List.mem_append_right _
            (List.mem_append_left _ hMem)))
        (ends_append_slash hTail)
      rw [hAuthority] at hReads
      refine ⟨left ++ rest, ?_, ?_⟩
      · rw [hFront]
        exact hReads
      · rw [hFinish, hPath, hFile, hRest, List.append_assoc]
  | true =>
      rw [beq_iff_eq] at hFile
      subst hFile
      rcases exists_fileHost hHome hHost with
        ⟨a, b, text, tail, host, hAfter, hFileHost, hTail,
          hFinish, _⟩
      have hSplit :
          front ++ slashes = [a, b] ++ (text ++ tail) :=
        hAfter
      rcases split_slashes hSplit hSlashes hFileHost.some
        hFileHost.inside.not_mem_slash with
        ⟨rest, hFront, hRest⟩
      rw [hFinish] at hQuery hFragment
      have hUntailed := untailed_of_finish hQuery hFragment
      have hPath := path_finishAfter "file"
        { nowhere with host := host } hUntailed
      rw [hRest] at hTail hUntailed
      have hReads := readsBehind_file hFileHost.first
        hFileHost.second hFileHost.inside hFileHost.some
        hFileHost.noDrive
        (fun c hMem => hUntailed c
          (List.mem_append_left _ hMem))
        (ends_append_slash hTail)
      rw [hFileHost.reads] at hReads
      refine ⟨rest, ?_, ?_⟩
      · rw [hFront]
        exact hReads
      · rw [hFinish, hPath, hRest]
        rfl

theorem Blanks.untailed
    {blanks : List Char}
    (h : Blanks blanks) :
    Untailed blanks :=
  (h.inside true).untailed

/- What follows a base and blanks is one path, or none. -/
theorem readsBehind_blanks
    [DomainNames]
    {scheme : String}
    {after blanks : List Char}
    (hBlanks : Blanks blanks)
    {home : Url}
    (hHome : parseAfterScheme scheme after = .ok home)
    (hHost : home.hasHost = true)
    (hQuery : home.query = none)
    (hFragment : home.fragment = none) :
    ∃ outcome,
      ReadsBehind scheme (after ++ blanks) outcome := by
  cases hFile : scheme == "file" with
  | false =>
      rcases exists_authority hFile hHome hHost with
        ⟨lead, text, tail, authority, left, hAfter, hLeads,
          hTail, hAuthority, _, hFinish⟩
      rw [hFinish] at hQuery hFragment
      have hUntailed : Untailed (tail ++ blanks) := by
        have hAll := untailed_of_finish hQuery hFragment
        exact Untailed.append
          (fun c hMem => hAll c (List.mem_append_right _ hMem))
          hBlanks.untailed
      rw [hAfter, List.append_assoc, List.append_assoc]
      by_cases hNone : tail = []
      · -- The blanks belong to the authority.
        have hInside := hLeads.inside.append
          (hBlanks.inside (isSpecial scheme))
        have hLonger : Leads scheme lead (text ++ blanks) := by
          refine ⟨hInside,
            List.append_ne_nil_of_left_ne_nil hLeads.some _,
            ?_, ?_⟩
          · intro hAt
            rcases List.append_eq_singleton_iff.mp hAt with
              ⟨hText, _⟩ | ⟨_, hBlank⟩
            · exact hLeads.some hText
            · exact hBlanks.some hBlank
          · intro rest
            rw [List.append_assoc]
            exact hLeads.reads (blanks ++ rest)
        have hReads := hLonger.readsBehind untailed_nil
          (ends_slash _)
        rw [hNone]
        rw [List.append_nil] at hReads
        exact ⟨_, hReads⟩
      · have hEnds (more : List Char) :
            Ends (isSpecial scheme)
              (tail ++ blanks ++ '/' :: more) := by
          rw [List.append_assoc]
          exact ends_append hTail hNone _
        exact ⟨_, hLeads.readsBehind hUntailed hEnds⟩
  | true =>
      rw [beq_iff_eq] at hFile
      subst hFile
      rcases exists_fileHost hHome hHost with
        ⟨a, b, text, tail, host, hAfter, hFileHost, hTail,
          hFinish, _⟩
      rw [hFinish] at hQuery hFragment
      have hUntailed : Untailed (tail ++ blanks) :=
        (untailed_of_finish hQuery hFragment).append
          hBlanks.untailed
      rw [hAfter]
      by_cases hNone : tail = []
      · have hReads := readsBehind_file hFileHost.first
          hFileHost.second
          (hFileHost.inside.append (hBlanks.inside true))
          (List.append_ne_nil_of_left_ne_nil
            hFileHost.some _)
          (isDriveLetter_blanks hBlanks text) untailed_nil
          (ends_slash true)
        rw [List.append_nil] at hReads
        rw [hNone, List.append_nil]
        exact ⟨_, hReads⟩
      · have hEnds (more : List Char) :
            Ends true (tail ++ blanks ++ '/' :: more) := by
          rw [List.append_assoc]
          exact ends_append hTail hNone _
        have hReads := readsBehind_file hFileHost.first
          hFileHost.second hFileHost.inside hFileHost.some
          hFileHost.noDrive hUntailed hEnds
        rw [List.cons_append, List.cons_append,
          List.append_assoc]
        exact ⟨_, hReads⟩

------------------------------------------------------------
-- Bases
------------------------------------------------------------

/- A base without its last slashes. -/
def trimSlashes (base : List Char) : List Char :=
  Text.dropWhileEnd (· == '/') base

theorem exists_trimSlashes (base : List Char) :
    ∃ slashes,
      (∀ c ∈ slashes, c = '/') ∧
      base = trimSlashes base ++ slashes := by
  rcases Text.exists_dropWhileEnd (p := (· == '/')) base with
    ⟨slashes, hSplit, hRun⟩
  exact ⟨slashes, fun c hMem => beq_iff_eq.mp (hRun c hMem),
    hSplit⟩

theorem Untailed.trimSlashes
    {base : List Char}
    (h : Untailed base) :
    Untailed (trimSlashes base) := by
  rcases exists_trimSlashes base with ⟨slashes, _, hSplit⟩
  intro c hMem
  apply h
  rw [hSplit]
  exact List.mem_append_left _ hMem

/- A base is continued after its last slashes. -/
theorem joinUrl_below
    {base : List Char}
    (h : base ≠ [])
    (text : List Char) :
    joinUrl base ('/' :: text) =
      trimSlashes base ++
        '/' :: text.dropWhile (· == '/') := by
  unfold joinUrl
  rw [if_neg (by simp [h])]
  rfl

variable [DomainNames]

/- What a base and a text below it are read as. -/
def ReadsBelow
    (scheme : String)
    (base : List Char)
    (outcome : Except UrlError (List Char)) :
    Prop :=
  ∀ text, Clear text →
    (parseChars (trimSlashes base ++ '/' :: text)).map
        Url.path =
      outcome.map fun front =>
        .segments (parsePath (isSpecial scheme)
          (scheme == "file") (front ++ '/' :: text))

theorem parseChars_below
    {front name before : List Char}
    (hKept : kept front = name ++ before)
    {scheme : String}
    (hReads : ∀ rest,
      splitScheme (name ++ rest) = some (scheme, rest))
    {text : List Char}
    (hText : Clear text) :
    parseChars (front ++ '/' :: text) =
      parseAfterScheme scheme (before ++ '/' :: text) := by
  unfold parseChars
  rw [clean_mark front (by decide) hText, hKept,
    List.append_assoc, hReads]

/-
  A text below a base is read as a path behind a front, or
  always fails.  Without blanks at the end of the base the
  front is that of the base itself.
-/
theorem exists_readsBelow
    {base : List Char}
    {home : Url}
    (hHome : parseChars base = .ok home)
    (hHost : home.hasHost = true)
    (hQuery : home.query = none)
    (hFragment : home.fragment = none) :
    ∃ outcome,
      ReadsBelow home.scheme base outcome ∧
      (endsInBlank base = false →
        ∃ lead slashes,
          outcome = .ok lead ∧
          (∀ c ∈ slashes, c = '/') ∧
          home.path = .segments
            (parsePath (isSpecial home.scheme)
              (home.scheme == "file")
              (lead ++ slashes))) := by
  rcases exists_parseAfterScheme hHome with
    ⟨scheme, after, hScheme, hRead⟩
  rw [scheme_of_parseAfterScheme hRead hHost]
  rcases exists_splitScheme hScheme with
    ⟨name, hSlash, hSome, hBase, hReads⟩
  rcases exists_trimSlashes base with
    ⟨slashes, hSlashes, hSplit⟩
  rw [hSplit] at hScheme hBase
  rcases kept_front hSlashes hScheme with
    ⟨hEnd, hKept⟩ | ⟨hEnd, blanks, hKept, hNone, hBlanks⟩
  · have hParts :
        kept (trimSlashes base) ++ slashes =
          [] ++ (name ++ after) := by
      rw [← hKept, hBase]
      rfl
    rcases split_slashes hParts hSlashes hSome hSlash with
      ⟨before, hFront, hAfter⟩
    rw [List.nil_append] at hFront
    rw [hAfter] at hRead
    rcases readsBehind_front hSlashes hRead hHost hQuery
      hFragment with ⟨lead, hBehind, hPath⟩
    refine ⟨.ok lead, ?_, ?_⟩
    · intro text hText
      rw [parseChars_below hFront hReads hText]
      exact hBehind text hText.untailed
    · intro _
      exact ⟨lead, slashes, rfl, hSlashes, hPath⟩
  · rw [hBase, List.append_assoc] at hKept
    have hRun : Blanks blanks :=
      ⟨hNone, fun c hMem => (hBlanks c hMem).1⟩
    rcases readsBehind_blanks hRun hRead hHost hQuery
      hFragment with ⟨outcome, hBehind⟩
    refine ⟨outcome, ?_, ?_⟩
    · intro text hText
      rw [parseChars_below hKept hReads hText]
      exact hBehind text hText.untailed
    · intro hNoBlank
      rw [hSplit, hEnd] at hNoBlank
      cases hNoBlank

end Url

end ServiceCalls
