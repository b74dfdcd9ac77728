import ServiceCalls.Proofs.Url.Authority

/-
  Where the host of a URL is found in its text.

  A URL that has a host has the text of an authority, and
  what is read of it does not depend on what comes after.
  The path of a file can start with a drive letter, and then
  the host is dropped.

  Key definitions include:
    * `Url.origin`
    * `Url.startsWithDrive`
    * `Url.isBare`
    * `Url.Leads`
    * `Url.FileHost`

  Main declarations:
    * `Url.exists_authority`
    * `Url.isBare_iff`
    * `Url.exists_fileHost`
    * `Url.origin_of_fileHost`
-/

namespace ServiceCalls

namespace Url

/- Scheme, host and port. -/
def origin (url : Url) :
    String × Option Host × Option Nat :=
  (url.scheme, url.host?, url.port?)

/- Whether a path starts with a drive letter. -/
def startsWithDrive (url : Url) : Bool :=
  match url.path with
  | .segments (first :: _) => isNormalDrive first
  | _ => false

/- A URL that ends after its host and port. -/
def isBare (url : Url) : Prop :=
  url.path = .segments [] ∧ url.query = none ∧
    url.fragment = none

------------------------------------------------------------
-- Empty Authorities
------------------------------------------------------------

theorem host_of_readHost_ends
    [DomainNames]
    {scheme : String}
    {rest left : List Char}
    (hRest : Ends (isSpecial scheme) rest)
    {host : Host}
    (h : readHost scheme rest = .ok (host, left)) :
    host = .empty := by
  have hOf := (of_readHost h).1
  rw [hostLength_ends hRest, List.take_zero] at hOf
  unfold hostOf at hOf
  split at hOf
  · cases hOf
  · cases hOf
    rfl

theorem splitUser_ends
    {special : Bool}
    {rest : List Char}
    (hRest : Ends special rest) :
    splitUser special rest = .ok (("", none), rest) := by
  unfold splitUser
  rw [Text.takeWhile_stops hRest]
  rfl

theorem host_of_parseAuthority_ends
    [DomainNames]
    {scheme : String}
    {rest left : List Char}
    (hRest : Ends (isSpecial scheme) rest)
    {authority : Authority}
    (h : parseAuthority scheme rest =
      .ok (authority, left)) :
    authority.host = .empty := by
  rw [parseAuthority_eq, splitUser_ends hRest] at h
  rcases Fallible.bind_eq_ok h with
    ⟨⟨user, named⟩, hUser, hRead⟩
  cases hUser
  rcases Fallible.bind_eq_ok hRead with
    ⟨⟨host, more⟩, hHost, hPort⟩
  rcases of_readPort hPort with ⟨port, _, hAuthority⟩
  rw [hAuthority]
  exact host_of_readHost_ends hRest hHost

theorem host_of_parseAuthority_at
    [DomainNames]
    {scheme : String}
    {rest left : List Char}
    (hRest : Ends (isSpecial scheme) rest)
    {authority : Authority}
    (h : parseAuthority scheme ('@' :: rest) =
      .ok (authority, left)) :
    authority.host = .empty := by
  have hInside : Inside (isSpecial scheme) ['@'] := by
    intro c hMem
    rw [List.mem_singleton.1 hMem]
    cases isSpecial scheme <;> rfl
  have hTake := hInside.takeWhile hRest
  rw [List.singleton_append] at hTake
  have hLast :
      Text.splitLast ['@'] ['@'] = some ([], []) := rfl
  rw [parseAuthority_eq] at h
  unfold splitUser at h
  dsimp only at h
  rw [hTake, hLast] at h
  cases rest with
  | nil =>
      rcases Fallible.bind_eq_ok h with
        ⟨⟨user, named⟩, hUser, hRead⟩
      cases hUser
      rcases Fallible.bind_eq_ok hRead with
        ⟨⟨host, more⟩, hHost, hPort⟩
      rcases of_readPort hPort with ⟨port, _, hAuthority⟩
      rw [hAuthority]
      exact host_of_readHost_ends Text.stops_nil hHost
  | cons c more =>
      have hEnd := hRest c rfl
      rw [Bool.not_eq_false'] at hEnd
      rcases Fallible.bind_eq_ok h with
        ⟨⟨user, named⟩, hUser, _⟩
      change (if endsAuthority (isSpecial scheme) c = true
        then _ else _) = _ at hUser
      rw [hEnd, if_pos rfl] at hUser
      cases hUser

------------------------------------------------------------
-- Authorities with a Host
------------------------------------------------------------

theorem host?_finishAfter
    (scheme : String)
    (authority : Authority)
    (text : List Char) :
    (finishAfter scheme authority text).host? =
      if authority.host = .empty then none
      else some authority.host := by
  unfold host? finishAfter finish
  dsimp only
  cases authority.host <;> rfl

theorem origin_finishAfter
    (scheme : String)
    (authority : Authority)
    (text : List Char) :
    (finishAfter scheme authority text).origin =
      (scheme,
        if authority.host = .empty then none
          else some authority.host,
        authority.port) := by
  unfold origin
  rw [host?_finishAfter]
  rfl

/-
  A text within an authority, and what comes before it, in
  a URL of a scheme.
-/
structure Leads
    [DomainNames]
    (scheme : String) (lead text : List Char) :
    Prop where
  inside : Inside (isSpecial scheme) text
  some : text ≠ []
  named : text ≠ ['@']
  reads : ∀ rest,
    parseAfterScheme scheme (lead ++ (text ++ rest)) =
      (parseAuthority scheme (text ++ rest)).map
        fun (authority, left) =>
          finishAfter scheme authority left

/- The slashes before an authority of a special scheme. -/
theorem leads_of_special
    [DomainNames]
    {scheme : String}
    (hFile : (scheme == "file") = false)
    (hSpecial : isSpecial scheme = true)
    {lead text : List Char}
    (hLead : ∀ c ∈ lead, isSlash true c = true)
    (hInside : Inside (isSpecial scheme) text)
    (hSome : text ≠ [])
    (hNamed : text ≠ ['@']) :
    Leads scheme lead text := by
  refine ⟨hInside, hSome, hNamed, ?_⟩
  intro rest
  have hStop : Text.Stops (isSlash true) (text ++ rest) := by
    cases text with
    | nil => exact absurd rfl hSome
    | cons c more =>
        apply Text.stops_cons
        have hEnds := hInside c List.mem_cons_self
        rw [hSpecial] at hEnds
        simp only [endsAuthority, isSlash, Bool.true_and,
          Bool.or_eq_false_iff] at hEnds ⊢
        exact ⟨hEnds.1.1.1, hEnds.2⟩
  unfold parseAfterScheme
  dsimp only
  rw [hFile, hSpecial,
    Text.dropWhile_append_stop hLead hStop]
  cases parseAuthority scheme (text ++ rest) with
  | error error => rfl
  | ok parts => rfl

theorem not_file_of_not_special
    {scheme : String}
    (h : isSpecial scheme = false) :
    (scheme == "file") = false := by
  unfold isSpecial at h
  exact (Bool.or_eq_false_iff.1 h).1

/- The two slashes before any other authority. -/
theorem leads_of_plain
    [DomainNames]
    {scheme : String}
    (hSpecial : isSpecial scheme = false)
    {text : List Char}
    (hInside : Inside (isSpecial scheme) text)
    (hSome : text ≠ [])
    (hNamed : text ≠ ['@']) :
    Leads scheme ['/', '/'] text := by
  refine ⟨hInside, hSome, hNamed, ?_⟩
  intro rest
  have hFile := not_file_of_not_special hSpecial
  unfold parseAfterScheme
  dsimp only
  rw [hFile, hSpecial]
  change (parseAuthority scheme (text ++ rest) >>= _) = _
  cases parseAuthority scheme (text ++ rest) with
  | error error => rfl
  | ok parts => rfl

/- A text up to where its authority ends. -/
theorem exists_inside
    (special : Bool)
    (text : List Char) :
    ∃ front tail, text = front ++ tail ∧
      Inside special front ∧ Ends special tail := by
  refine ⟨text.takeWhile fun c => !endsAuthority special c,
    text.dropWhile fun c => !endsAuthority special c,
    ?_, ?_, ?_⟩
  · rw [List.takeWhile_append_dropWhile]
  · intro c hMem
    have hAll :=
      List.all_eq_true.1 List.all_takeWhile c hMem
    rw [Bool.not_eq_true'] at hAll
    exact hAll
  · exact Text.stops_dropWhile text

/- The text of an authority that has a host. -/
theorem exists_text
    [DomainNames]
    {scheme : String}
    {text rest : List Char}
    {authority : Authority}
    (h : parseAuthority scheme text = .ok (authority, rest))
    (hHost : authority.host ≠ .empty) :
    ∃ front tail left,
      text = front ++ tail ∧
      Inside (isSpecial scheme) front ∧
      front ≠ [] ∧ front ≠ ['@'] ∧
      Ends (isSpecial scheme) tail ∧
      parseAuthority scheme front = .ok (authority, left) ∧
      rest = left ++ tail := by
  rcases exists_inside (isSpecial scheme) text with
    ⟨front, tail, hSplit, hInside, hTail⟩
  subst hSplit
  have hSome : front ≠ [] := by
    intro hNone
    subst hNone
    exact hHost (host_of_parseAuthority_ends hTail h)
  have hNamed : front ≠ ['@'] := by
    intro hAt
    subst hAt
    exact hHost (host_of_parseAuthority_at hTail h)
  rw [parseAuthority_append hInside hNamed hTail] at h
  rcases Fallible.map_eq_ok h with
    ⟨⟨found, left⟩, hFound, hPair⟩
  cases hPair
  exact ⟨front, tail, left, rfl, hInside, hSome, hNamed,
    hTail, hFound, rfl⟩

theorem host_ne_empty_of_hasHost
    {scheme : String}
    {authority : Authority}
    {text : List Char}
    (h : (finishAfter scheme authority text).hasHost =
      true) :
    authority.host ≠ .empty := by
  intro hEmpty
  unfold hasHost at h
  rw [host?_finishAfter, if_pos hEmpty] at h
  cases h

/- The authority of a URL that has a host and is no file. -/
theorem exists_authority
    [DomainNames]
    {scheme : String}
    (hFile : (scheme == "file") = false)
    {after : List Char}
    {home : Url}
    (h : parseAfterScheme scheme after = .ok home)
    (hHost : home.hasHost = true) :
    ∃ lead text tail authority left,
      after = lead ++ (text ++ tail) ∧
      Leads scheme lead text ∧
      Ends (isSpecial scheme) tail ∧
      parseAuthority scheme text = .ok (authority, left) ∧
      authority.host ≠ .empty ∧
      home = finishAfter scheme authority (left ++ tail) := by
  unfold parseAfterScheme at h
  dsimp only at h
  rw [hFile, if_neg Bool.false_ne_true] at h
  cases hSpecial : isSpecial scheme with
  | true =>
      rw [hSpecial, if_pos rfl] at h
      rcases Fallible.bind_eq_ok h with
        ⟨⟨authority, rest⟩, hRead, hHome⟩
      cases hHome
      have hSome := host_ne_empty_of_hasHost hHost
      rcases exists_text hRead hSome with
        ⟨text, tail, left, hText, hInside, hNone, hNamed,
          hTail, hAuthority, hRest⟩
      have hSplit := List.takeWhile_append_dropWhile
        (p := isSlash true) (l := after)
      rw [hText] at hSplit
      rw [hSpecial] at hTail
      refine ⟨_, text, tail, authority, left, hSplit.symm,
        leads_of_special hFile hSpecial ?_ hInside hNone
          hNamed, hTail, hAuthority, hSome, ?_⟩
      · exact List.all_eq_true.1 List.all_takeWhile
      · rw [hRest]
  | false =>
      rw [hSpecial, if_neg Bool.false_ne_true] at h
      split at h
      · next rest =>
          rcases Fallible.bind_eq_ok h with
            ⟨⟨authority, rest'⟩, hRead, hHome⟩
          cases hHome
          have hSome := host_ne_empty_of_hasHost hHost
          rcases exists_text hRead hSome with
            ⟨text, tail, left, hText, hInside, hNone,
              hNamed, hTail, hAuthority, hRest⟩
          rw [hSpecial] at hTail
          refine ⟨['/', '/'], text, tail, authority, left,
            ?_, leads_of_plain hSpecial hInside hNone
              hNamed, hTail, hAuthority, hSome, ?_⟩
          · rw [hText]
            rfl
          · rw [hRest]
      · cases h
        cases hHost
      · cases h
        cases hHost

------------------------------------------------------------
-- Bare URLs
------------------------------------------------------------

theorem splitBy_ne_nil
    (p : Char → Bool)
    (text : List Char) :
    Text.splitBy p text ≠ [] := by
  cases text with
  | nil => exact List.cons_ne_nil _ _
  | cons c rest =>
      unfold Text.splitBy
      split
      · exact List.cons_ne_nil _ _
      · split
        · exact List.cons_ne_nil _ _
        · exact List.cons_ne_nil _ _

/- The last segment of a text is part of the path. -/
theorem addSegments_ne_nil
    {segments : List (List Char)}
    (h : segments ≠ [])
    (file : Bool)
    (path : List String) :
    addSegments file path segments ≠ [] := by
  have hConcat (xs : List String) (x : String) :
      xs ++ [x] ≠ [] :=
    List.append_ne_nil_of_right_ne_nil _
      (List.cons_ne_nil x [])
  induction segments generalizing path with
  | nil => exact absurd rfl h
  | cons segment rest ih =>
      cases rest with
      | nil =>
          unfold addSegments
          split
          · exact hConcat _ _
          · split
            · exact hConcat _ _
            · exact hConcat _ _
      | cons next more =>
          have hMore := ih (List.cons_ne_nil _ _)
          unfold addSegments
          split
          · exact hMore _
          · split
            · exact hMore _
            · exact hMore _

theorem parsePath_ne_nil
    {text : List Char}
    (h : text ≠ []) :
    parsePath false false text ≠ [] := by
  cases text with
  | nil => exact absurd rfl h
  | cons c rest =>
      unfold parsePath parseSegments
      simp only [Bool.false_eq_true, if_false]
      split
      · exact addSegments_ne_nil (splitBy_ne_nil _ _) _ _
      · exact addSegments_ne_nil (splitBy_ne_nil _ _) _ _

/- Nothing follows the authority of a bare URL. -/
theorem isBare_iff
    {scheme : String}
    (hSpecial : isSpecial scheme = false)
    (authority : Authority)
    (text : List Char) :
    (finishAfter scheme authority text).isBare ↔
      text = [] := by
  have hFile := not_file_of_not_special hSpecial
  constructor
  · intro hBare
    rcases hBare with ⟨hPath, hQuery, hFragment⟩
    unfold finishAfter finish at hPath hQuery hFragment
    dsimp only at hPath hQuery hFragment
    rw [hSpecial, hFile] at hPath
    have hNames := Path.segments.inj hPath
    cases text with
    | nil => rfl
    | cons c rest =>
        by_cases hMark : c = '?'
        · subst hMark
          cases hQuery
        by_cases hHash : c = '#'
        · subst hHash
          cases hFragment
        have hGoes : (c != '?' && c != '#') = true := by
          rw [Bool.and_eq_true]
          exact ⟨bne_iff_ne.2 hMark, bne_iff_ne.2 hHash⟩
        refine absurd hNames (parsePath_ne_nil ?_)
        unfold splitTail
        dsimp only
        rw [List.takeWhile_cons_of_pos
          (p := fun c => c != '?' && c != '#') hGoes]
        exact List.cons_ne_nil _ _
  · intro hNone
    subst hNone
    refine ⟨?_, rfl, rfl⟩
    unfold finishAfter finish
    dsimp only
    rw [hSpecial]
    rfl

------------------------------------------------------------
-- Files
------------------------------------------------------------

variable [DomainNames]

/- A file URL with a host, and what follows the host. -/
theorem parseFile_host
    {a b : Char}
    (ha : isSlash true a = true)
    (hb : isSlash true b = true)
    {text rest : List Char}
    (hInside : Inside true text)
    (hSome : text ≠ [])
    (hDrive : isDriveLetter text = false)
    (hRest : Ends true rest) :
    parseFile (a :: b :: (text ++ rest)) =
      Host.parseSpecial text >>= fun host =>
        let url := finishAfter "file"
          { nowhere with host := host } rest
        if host == .name "localhost" ||
            url.startsWithDrive then
          .ok { url with authority := some nowhere }
        else .ok url := by
  have hTake := hInside.takeWhile hRest
  have hEmpty : text.isEmpty = false :=
    List.isEmpty_eq_false_iff.2 hSome
  unfold parseFile
  dsimp only
  rw [ha, hb, hTake, List.drop_left, hDrive, hEmpty]
  simp only [Bool.and_self, if_true, Bool.false_eq_true,
    if_false]
  cases Host.parseSpecial text with
  | error error => rfl
  | ok host =>
      rfl

/- The parts of a file URL that has a host. -/
structure FileHost
    (a b : Char)
    (text : List Char)
    (host : Host) :
    Prop where
  first : isSlash true a = true
  second : isSlash true b = true
  inside : Inside true text
  some : text ≠ []
  noDrive : isDriveLetter text = false
  reads : Host.parseSpecial text = .ok host
  notEmpty : host ≠ .empty
  notLocal : (host == .name "localhost") = false

theorem exists_fileHost
    {after : List Char}
    {home : Url}
    (h : parseFile after = .ok home)
    (hHost : home.hasHost = true) :
    ∃ a b text tail host,
      after = a :: b :: (text ++ tail) ∧
      FileHost a b text host ∧
      Ends true tail ∧
      home = finishAfter "file" { nowhere with host := host }
        tail ∧
      home.startsWithDrive = false := by
  have hNowhere (rest : List Char) :
      home ≠ finishAfter "file" nowhere rest := by
    intro hSame
    rw [hSame] at hHost
    exact host_ne_empty_of_hasHost hHost rfl
  cases after with
  | nil => exact absurd (Except.ok.inj h).symm (hNowhere _)
  | cons a more =>
      cases more with
      | nil =>
          exact absurd (Except.ok.inj h).symm (hNowhere _)
      | cons b rest =>
          rcases exists_inside true rest with
            ⟨text, tail, hSplit, hInside, hTail⟩
          subst hSplit
          have hTake := hInside.takeWhile hTail
          cases hSlashes : isSlash true a && isSlash true b
            with
          | false =>
              unfold parseFile at h
              dsimp only at h
              rw [hSlashes] at h
              exact absurd (Except.ok.inj h).symm
                (hNowhere _)
          | true =>
              rw [Bool.and_eq_true] at hSlashes
              rcases hSlashes with ⟨ha, hb⟩
              by_cases hSome : text = []
              · subst hSome
                unfold parseFile at h
                dsimp only at h
                rw [ha, hb, hTake] at h
                exact absurd (Except.ok.inj h).symm
                  (hNowhere _)
              cases hDrive : isDriveLetter text with
              | true =>
                  unfold parseFile at h
                  dsimp only at h
                  rw [ha, hb, hTake, hDrive] at h
                  exact absurd (Except.ok.inj h).symm
                    (hNowhere _)
              | false =>
                  rw [parseFile_host ha hb hInside hSome
                    hDrive hTail] at h
                  rcases Fallible.bind_eq_ok h with
                    ⟨host, hRead, hHome⟩
                  dsimp only at hHome
                  split at hHome
                  · cases hHome
                    cases hHost
                  · next hKeep =>
                      cases hHome
                      rw [Bool.not_eq_true,
                        Bool.or_eq_false_iff] at hKeep
                      have hNotEmpty :=
                        host_ne_empty_of_hasHost hHost
                      exact ⟨a, b, text, tail, host, rfl,
                        ⟨ha, hb, hInside, hSome, hDrive,
                          hRead, hNotEmpty, hKeep.1⟩,
                        hTail, rfl, hKeep.2⟩

/- Only a drive letter takes the host from a file URL. -/
theorem origin_of_fileHost
    {a b : Char}
    {text : List Char}
    {host : Host}
    (hFile : FileHost a b text host)
    {rest : List Char}
    (hRest : Ends true rest)
    {url : Url}
    (h : parseFile (a :: b :: (text ++ rest)) = .ok url) :
    url.origin = ("file", some host, none) ↔
      url.startsWithDrive = false := by
  rw [parseFile_host hFile.first hFile.second hFile.inside
    hFile.some hFile.noDrive hRest, hFile.reads] at h
  rcases Fallible.bind_eq_ok h with ⟨found, hFound, hUrl⟩
  cases hFound
  dsimp only at hUrl
  rw [hFile.notLocal, Bool.false_or] at hUrl
  split at hUrl
  · next hDrive =>
      cases hUrl
      constructor
      · intro hOrigin
        cases congrArg (fun parts => parts.2.1) hOrigin
      · intro hNone
        exact absurd (hDrive.symm.trans hNone) (by decide)
  · next hDrive =>
      cases hUrl
      constructor
      · intro _
        rw [Bool.not_eq_true] at hDrive
        exact hDrive
      · intro _
        rw [origin_finishAfter, if_neg hFile.notEmpty]
        rfl

end Url

end ServiceCalls
