import ServiceCalls.Proofs.Group.Registrations
import ServiceCalls.Proofs.Text.Runs

/-
  Packages are told apart by whole segments.

  The name of a type is a path of segments, and what it is
  applied to.  A type is in a package when the segments of
  the package are the first ones of its own, and a catalog
  finds the types of a package, each once, in the order in
  which they were registered first.

  Key definitions include:
    * `ServiceType.segments`
    * `ServiceType.pathText`
    * `ServiceType.IsSegment`
    * `TypeName`
    * `ServiceType.Encloses`

  Main declarations:
    * `ServiceType.segments_pathText`
    * `ServiceType.pathText_segments`
    * `ServiceType.prefix_pathText_iff`
    * `ServiceType.isInPackage_iff`
    * `Catalog.pairwise_idxOf`
    * `Catalog.packages_of_types`
-/

namespace ServiceCalls

namespace ServiceType

------------------------------------------------------------
-- Segments
------------------------------------------------------------

theorem separator_ne_nil : separator ≠ [] :=
  List.cons_ne_nil _ _

theorem length_separator : separator.length = 2 := rfl

/- What follows a segment is shorter. -/
theorem length_of_segment
    {path before after : List Char}
    (h : Text.splitOnce separator path =
      some (before, after)) :
    after.length < path.length := by
  have hLength := Text.length_of_splitOnce h
  change before.length + 2 + after.length = _ at hLength
  omega

/- The segments of a path, from left to right. -/
def segments (path : List Char) : List (List Char) :=
  match h : Text.splitOnce separator path with
  | none => [path]
  | some (before, after) =>
      have : after.length < path.length :=
        length_of_segment h
      before :: segments after
termination_by path.length

/- The path with some segments. -/
def pathText (names : List (List Char)) : List Char :=
  separator.intercalate names

/- A segment is not empty, and nothing in it ends it. -/
def IsSegment (name : List Char) : Prop :=
  name ≠ [] ∧ ':' ∉ name ∧ '<' ∉ name

instance (name : List Char) : Decidable (IsSegment name) :=
  inferInstanceAs (Decidable
    (name ≠ [] ∧ ':' ∉ name ∧ '<' ∉ name))

theorem pathText_singleton (name : List Char) :
    pathText [name] = name :=
  List.intercalate_singleton

theorem pathText_cons
    (name : List Char)
    {rest : List (List Char)}
    (h : rest ≠ []) :
    pathText (name :: rest) =
      name ++ separator ++ pathText rest := by
  rw [pathText, List.intercalate_cons_of_ne_nil h]
  rfl

/- A path goes on behind a separator. -/
theorem pathText_append
    {front back : List (List Char)}
    (hFront : front ≠ [])
    (hBack : back ≠ []) :
    pathText (front ++ back) =
      pathText front ++ separator ++ pathText back := by
  induction front with
  | nil => exact absurd rfl hFront
  | cons name rest ih =>
      by_cases hRest : rest = []
      · rw [hRest, List.singleton_append,
          pathText_cons name hBack, pathText_singleton]
      · rw [List.cons_append,
          pathText_cons name
            (List.append_ne_nil_of_left_ne_nil hRest back),
          ih hRest, pathText_cons name hRest]
        simp only [List.append_assoc]

theorem segments_ne_nil (path : List Char) :
    segments path ≠ [] := by
  rw [segments]
  split <;> exact List.cons_ne_nil _ _

/- No character of a path is lost. -/
theorem pathText_segments (path : List Char) :
    pathText (segments path) = path := by
  fun_induction segments path with
  | case1 path hNone => exact pathText_singleton path
  | case2 path before after hSome hShorter ih =>
      rw [pathText_cons before (segments_ne_nil after), ih]
      exact (Text.append_of_splitOnce hSome).symm

/- Two colons do not fit where there is one. -/
theorem not_infix_of_count
    {text : List Char}
    (h : text.count ':' ≤ 1) :
    ¬ separator <:+: text := by
  intro hInfix
  have hCount := hInfix.sublist.count_le ':'
  have hTwo : separator.count ':' = 2 := by decide
  omega

theorem splitOnce_segment
    {name : List Char}
    (h : ':' ∉ name)
    (rest : List Char) :
    Text.splitOnce separator (name ++ separator ++ rest) =
      some (name, rest) := by
  apply Text.splitOnce_append_pattern
  apply not_infix_of_count
  rw [List.count_append, List.count_eq_zero.mpr h]
  decide

theorem splitOnce_of_segment
    {name : List Char}
    (h : ':' ∉ name) :
    Text.splitOnce separator name = none := by
  rw [Text.splitOnce_eq_none_iff separator_ne_nil]
  apply not_infix_of_count
  rw [List.count_eq_zero.mpr h]
  exact Nat.zero_le 1

/- A path of segments is taken apart into them. -/
theorem segments_pathText
    {names : List (List Char)}
    (hSome : names ≠ [])
    (h : ∀ name ∈ names, IsSegment name) :
    segments (pathText names) = names := by
  induction names with
  | nil => exact absurd rfl hSome
  | cons name rest ih =>
      rw [List.forall_mem_cons] at h
      by_cases hRest : rest = []
      · rw [hRest, pathText_singleton, segments]
        split
        · rfl
        · next hSplit =>
            cases (splitOnce_of_segment h.1.2.1).symm.trans
              hSplit
      · have hSplit :=
          splitOnce_segment h.1.2.1 (pathText rest)
        rw [pathText_cons name hRest, segments]
        split
        · next hNone => cases hSplit.symm.trans hNone
        · next hOther =>
            cases hSplit.symm.trans hOther
            rw [ih hRest h.2]

/- The last segment of a path stands behind the others. -/
theorem splitLast_pathText
    {front : List (List Char)}
    (hFront : front ≠ [])
    {last : List Char}
    (h : ':' ∉ last) :
    Text.splitLast separator (pathText (front ++ [last])) =
      some (pathText front, last) := by
  have hReverse : ':' ∉ last.reverse := by
    rw [List.mem_reverse]
    exact h
  have hSplit := splitOnce_segment hReverse
    (pathText front).reverse
  unfold Text.splitLast
  rw [pathText_append hFront (List.cons_ne_nil _ _),
    pathText_singleton, List.reverse_append,
    List.reverse_append, ← List.append_assoc]
  change (Text.splitOnce separator
    (last.reverse ++ separator ++
      (pathText front).reverse)).map _ = _
  rw [hSplit]
  simp

theorem splitLast_of_segment
    {name : List Char}
    (h : ':' ∉ name) :
    Text.splitLast separator name = none := by
  have hReverse : ':' ∉ name.reverse := by
    rw [List.mem_reverse]
    exact h
  unfold Text.splitLast
  change (Text.splitOnce separator name.reverse).map _ = _
  rw [splitOnce_of_segment hReverse]
  rfl

------------------------------------------------------------
-- Packages around Paths
------------------------------------------------------------

/- No path begins where a separator could end. -/
theorem head?_pathText
    {names : List (List Char)}
    (h : ∀ name ∈ names, IsSegment name) :
    (pathText names).head? ≠ some ':' := by
  cases names with
  | nil => exact fun hHead => nomatch hHead
  | cons name rest =>
      have hName := h name List.mem_cons_self
      cases name with
      | nil => exact absurd rfl hName.1
      | cons c more =>
          have hFirst : c ≠ ':' := fun hSame =>
            hName.2.1 (hSame ▸ List.mem_cons_self)
          have hHead :
              (pathText ((c :: more) :: rest)).head? =
                some c := by
            by_cases hRest : rest = []
            · rw [hRest, pathText_singleton]
              rfl
            · rw [pathText_cons _ hRest]
              rfl
          rw [hHead]
          exact fun hSame => hFirst (Option.some.inj hSame)

/- What a path continues is its first segment, or goes on. -/
theorem eq_or_exists_of_prefix
    {name rest outer : List Char}
    (hName : ':' ∉ name)
    (hRest : rest.head? ≠ some ':')
    (h : outer ++ separator <+: name ++ separator ++ rest) :
    outer = name ∨
      ∃ inner,
        outer = name ++ separator ++ inner ∧
          inner ++ separator <+: rest := by
  rcases h with ⟨after, hAfter⟩
  rw [List.append_assoc, List.append_assoc] at hAfter
  rcases List.append_eq_append_iff.mp hAfter with
    ⟨more, hLonger, hMore⟩ | ⟨more, hOuter, hMore⟩
  · cases more with
    | nil =>
        rw [List.append_nil] at hLonger
        exact .inl hLonger.symm
    | cons c others =>
        -- The separator would begin inside a segment.
        refine absurd ?_ hName
        rw [hLonger, ← (List.cons.inj hMore).1]
        exact List.mem_append_right _ List.mem_cons_self
  · match more with
    | [] =>
        rw [List.append_nil] at hOuter
        exact .inl hOuter
    | [c] =>
        -- The next segment would begin with a colon.
        have hText : rest = ':' :: after :=
          (List.cons.inj (List.cons.inj hMore).2).2
        rw [hText] at hRest
        exact absurd rfl hRest
    | c :: d :: inner =>
        have hTail := (List.cons.inj hMore).2
        refine .inr ⟨inner, ?_, after, ?_⟩
        · rw [hOuter, ← (List.cons.inj hMore).1,
            ← (List.cons.inj hTail).1, List.append_assoc]
          rfl
        · rw [List.append_assoc]
          exact (List.cons.inj hTail).2.symm

/-
  What is continued by a path inside it is made of the first
  segments of the path.
-/
theorem exists_of_prefix_pathText
    {names : List (List Char)}
    (hNames : ∀ name ∈ names, IsSegment name)
    {outer : List Char}
    (h : outer ++ separator <+: pathText names) :
    ∃ front back,
      names = front ++ back ∧ front ≠ [] ∧
        outer = pathText front := by
  induction names generalizing outer with
  | nil =>
      have hLength := h.length_le
      rw [List.length_append, length_separator] at hLength
      exact absurd hLength (Nat.not_succ_le_zero _)
  | cons name rest ih =>
      rw [List.forall_mem_cons] at hNames
      by_cases hRest : rest = []
      · rw [hRest, pathText_singleton] at h
        exact absurd
          (h.subset (List.mem_append_right _
            List.mem_cons_self)) hNames.1.2.1
      rw [pathText_cons name hRest] at h
      rcases eq_or_exists_of_prefix hNames.1.2.1
          (head?_pathText hNames.2) h with
        hHere | ⟨inner, hOuter, hInner⟩
      · exact ⟨[name], rest, rfl, List.cons_ne_nil _ _,
          hHere.trans (pathText_singleton name).symm⟩
      · rcases ih hNames.2 hInner with
          ⟨front, back, hSplit, hFront, hText⟩
        refine ⟨name :: front, back, ?_,
          List.cons_ne_nil _ _, ?_⟩
        · rw [hSplit, List.cons_append]
        · rw [pathText_cons name hFront, hOuter, hText]

/- First segments are a path, or one that is continued. -/
theorem prefix_of_segments
    {outer : List Char}
    {names : List (List Char)}
    (h : segments outer <+: names) :
    pathText names = outer ∨
      outer ++ separator <+: pathText names := by
  rcases h with ⟨back, hSplit⟩
  by_cases hBack : back = []
  · left
    rw [← hSplit, hBack, List.append_nil,
      pathText_segments]
  · right
    rw [← hSplit,
      pathText_append (segments_ne_nil outer) hBack,
      pathText_segments]
    exact List.prefix_append _ _

/- A path lies inside another one segment by segment. -/
theorem prefix_pathText_iff
    {names : List (List Char)}
    (hNames : ∀ name ∈ names, IsSegment name)
    {outer : List Char}
    (hOuter : outer ≠ []) :
    (pathText names = outer ∨
        outer ++ separator <+: pathText names) ↔
      segments outer <+: names := by
  refine ⟨?_, prefix_of_segments⟩
  rintro (hSame | hInside)
  · have hSome : names ≠ [] := by
      intro hNil
      rw [hNil] at hSame
      exact hOuter hSame.symm
    rw [← hSame, segments_pathText hSome hNames]
  · rcases exists_of_prefix_pathText hNames hInside with
      ⟨front, back, hSplit, hFront, hText⟩
    rw [hSplit, List.forall_mem_append] at hNames
    rw [hText, segments_pathText hFront hNames.1, hSplit]
    exact List.prefix_append front back

end ServiceType

------------------------------------------------------------
-- Names of Types
------------------------------------------------------------

/-
  The name of a type taken apart: the segments of its
  package, its simple name, and in angle brackets what it is
  applied to, if it is.
-/
structure TypePath where
  package : List (List Char)
  simple : List Char
  applied : List Char
  segmented :
    ∀ name ∈ package ++ [simple],
      ServiceType.IsSegment name
  bracketed :
    applied = [] ∨
      ∃ inside, applied = '<' :: (inside ++ ['>'])

/- The whole name. -/
def TypePath.text (path : TypePath) : List Char :=
  ServiceType.pathText (path.package ++ [path.simple]) ++
    path.applied

namespace ServiceType

/-
  A package is around a path if it has no name, or if its
  segments are the first ones of the path.
-/
def Encloses
    (package : String)
    (names : List (List Char)) :
    Prop :=
  package = "" ∨ segments package.toList <+: names

instance (package : String) (names : List (List Char)) :
    Decidable (Encloses package names) :=
  inferInstanceAs (Decidable
    (package = "" ∨ segments package.toList <+: names))

/- What is in a package is in every package around it. -/
theorem isInPackage_of_encloses
    {outer inner : String}
    (hOuter : Encloses outer (segments inner.toList))
    {type : ServiceType}
    (h : type.isInPackage inner = true) :
    type.isInPackage outer = true := by
  unfold isInPackage at h ⊢
  dsimp only at h ⊢
  rw [Bool.or_eq_true, Bool.or_eq_true, beq_iff_eq,
    List.isEmpty_iff, List.isPrefixOf_iff_prefix] at h ⊢
  rcases hOuter with hEmpty | hOuter
  · rw [hEmpty]
    exact .inl (.inl rfl)
  have hInside := prefix_of_segments hOuter
  rw [pathText_segments] at hInside
  rcases h with (hNone | hSame) | hInner
  · rw [hNone] at hInside
    rcases hInside with hSame | hPrefix
    · exact .inl (.inl hSame.symm)
    · exact .inl (.inl
        (List.append_eq_nil_iff.mp
          (List.prefix_nil.mp hPrefix)).1)
  · rw [hSame]
    rcases hInside with hSame | hPrefix
    · exact .inl (.inr hSame)
    · exact .inr hPrefix
  · rcases hInside with hSame | hPrefix
    · rw [← hSame]
      exact .inr hInner
    · exact .inr (hPrefix.trans
        ((List.prefix_append _ _).trans hInner))

theorem not_mem_pathText
    {names : List (List Char)}
    (h : ∀ name ∈ names, IsSegment name) :
    '<' ∉ pathText names := by
  induction names with
  | nil => exact List.not_mem_nil
  | cons name rest ih =>
      rw [List.forall_mem_cons] at h
      by_cases hRest : rest = []
      · rw [hRest, pathText_singleton]
        exact h.1.2.2
      · rw [pathText_cons name hRest, List.mem_append,
          List.mem_append, not_or, not_or]
        exact ⟨⟨h.1.2.2, by decide⟩, ih h.2⟩

section Named

variable {type : ServiceType}
variable {path : TypePath}
variable (h : type.name.toList = path.text)

include h

/- The path is the name up to the first bracket. -/
theorem path_eq :
    type.path =
      pathText (path.package ++ [path.simple]) := by
  have hGoes :
      ∀ c ∈ pathText (path.package ++ [path.simple]),
        (c != '<') = true := by
    intro c hMem
    rw [bne_iff_ne]
    intro hSame
    rw [hSame] at hMem
    exact not_mem_pathText path.segmented hMem
  have hStop : Text.Stops (· != '<') path.applied := by
    rcases path.bracketed with hNone | ⟨inside, hSome⟩
    · rw [hNone]
      exact Text.stops_nil
    · rw [hSome]
      exact Text.stops_cons rfl _
  unfold ServiceType.path
  rw [h]
  exact Text.takeWhile_append_stop hGoes hStop

theorem splitLast_path :
    Text.splitLast separator type.path =
      if path.package = [] then none
      else some (pathText path.package, path.simple) := by
  have hSimple := path.segmented path.simple
    (List.mem_append_right _ List.mem_cons_self)
  rw [path_eq h]
  split
  · next hNone =>
      rw [hNone, List.nil_append, pathText_singleton]
      exact splitLast_of_segment hSimple.2.1
  · next hSome =>
      exact splitLast_pathText hSome hSimple.2.1

theorem toList_simpleName :
    type.simpleName.toList = path.simple := by
  unfold simpleName
  rw [splitLast_path h]
  split
  · next hSplit =>
      split at hSplit
      · cases hSplit
      · cases hSplit
        exact String.toList_ofList
  · next hSplit =>
      split at hSplit
      · next hNone =>
          rw [path_eq h, hNone, List.nil_append,
            pathText_singleton, String.toList_ofList]
      · cases hSplit

theorem toList_packageName :
    type.packageName.toList = pathText path.package := by
  unfold packageName
  rw [splitLast_path h]
  split
  · next hSplit =>
      split at hSplit
      · cases hSplit
      · cases hSplit
        exact String.toList_ofList
  · next hSplit =>
      split at hSplit
      · next hNone =>
          rw [hNone]
          rfl
      · cases hSplit

theorem isInPackage_iff (package : String) :
    type.isInPackage package = true ↔
      Encloses package path.package := by
  have hSegments :
      ∀ name ∈ path.package, IsSegment name :=
    fun name hMem =>
      path.segmented name (List.mem_append_left _ hMem)
  unfold isInPackage Encloses
  dsimp only
  rw [toList_packageName h]
  by_cases hEmpty : package = ""
  · simp [hEmpty]
  · have hSome : package.toList ≠ [] := by
      rw [ne_eq, String.toList_eq_nil_iff]
      exact hEmpty
    rw [← prefix_pathText_iff hSegments hSome,
      ← List.isPrefixOf_iff_prefix]
    simp [hEmpty]

end Named

------------------------------------------------------------
-- Registration Order
------------------------------------------------------------

/- Types are kept in the order of their first registration. -/
theorem pairwise_idxOf_addAll (types : List ServiceType) :
    (addAll [] types).Pairwise fun first second =>
      types.idxOf first < types.idxOf second := by
  induction types using List.reverseRecOn with
  | nil => exact List.Pairwise.nil
  | append_singleton types type ih =>
      have hKnown :
          ∀ other ∈ addAll [] types, other ∈ types := by
        intro other hOther
        rw [mem_addAll_iff] at hOther
        exact hOther.resolve_left List.not_mem_nil
      have hEarlier :
          (addAll [] types).Pairwise fun first second =>
            (types ++ [type]).idxOf first <
              (types ++ [type]).idxOf second := by
        refine ih.imp_of_mem ?_
        intro first second hFirst hSecond hLess
        rw [List.idxOf_append_of_mem (hKnown first hFirst),
          List.idxOf_append_of_mem (hKnown second hSecond)]
        exact hLess
      rw [addAll_append, addAll]
      split
      · exact hEarlier
      · next hNew =>
          rw [mem_addAll_iff, not_or] at hNew
          rw [addAll, List.pairwise_append]
          refine ⟨hEarlier, List.pairwise_singleton _ _, ?_⟩
          intro first hFirst second hSecond
          have hMem := hKnown first hFirst
          rw [List.mem_singleton.mp hSecond,
            List.idxOf_append_of_mem hMem,
            List.idxOf_append_of_notMem hNew.2]
          exact Nat.lt_add_right _
            (List.idxOf_lt_length_of_mem hMem)

end ServiceType

------------------------------------------------------------
-- Types of a Package
------------------------------------------------------------

namespace Catalog

open ServiceType (Encloses segments pathText)

section Registered

variable {types : List ServiceType}
variable {pathOf : ServiceType → TypePath}

/- A catalog has the types of a package that it was given. -/
theorem mem_candidates_iff
    (h : ∀ type ∈ types,
      type.name.toList = (pathOf type).text)
    (package : String)
    (type : ServiceType) :
    type ∈ (ofTypes types).discovery.candidates package ↔
      type ∈ types ∧
        Encloses package (pathOf type).package := by
  unfold discovery ofTypes
  dsimp only
  rw [List.mem_filter, ServiceType.mem_addAll_iff]
  constructor
  · rintro ⟨hMem, hIn⟩
    have hType := hMem.resolve_left List.not_mem_nil
    exact ⟨hType,
      (ServiceType.isInPackage_iff (h type hType) _).mp hIn⟩
  · rintro ⟨hType, hIn⟩
    exact ⟨.inr hType,
      (ServiceType.isInPackage_iff (h type hType) _).mpr hIn⟩

/- A package has all types of the packages inside it. -/
theorem candidates_sublist
    {outer inner : String}
    (hOuter : Encloses outer (segments inner.toList))
    (types : List ServiceType) :
    ((ofTypes types).discovery.candidates inner).Sublist
      ((ofTypes types).discovery.candidates outer) :=
  List.monotone_filter_right _ fun _ hInner =>
    ServiceType.isInPackage_of_encloses hOuter hInner

/-
  The path and the simple name of a type are those before
  its first bracket, and it is in a package if the segments
  of the package are the first ones of its own.  So a
  catalog has the types of a package that it was given, each
  once, in the order in which they came first, and with them
  those of every package inside it.
-/
theorem packages_of_types :
    (∀ (type : ServiceType) (path : TypePath),
      type.name.toList = path.text →
      type.path =
          pathText (path.package ++ [path.simple]) ∧
        type.simpleName.toList = path.simple ∧
        type.packageName.toList = pathText path.package ∧
        ∀ package,
          type.isInPackage package = true ↔
            Encloses package path.package) ∧
    ∀ (types : List ServiceType)
        (pathOf : ServiceType → TypePath),
      (∀ type ∈ types,
        type.name.toList = (pathOf type).text) →
      let candidates :=
        (ofTypes types).discovery.candidates
      ∀ package,
        (∀ type,
          type ∈ candidates package ↔
            type ∈ types ∧
              Encloses package (pathOf type).package) ∧
        (candidates package).Pairwise
          (fun first second =>
            types.idxOf first < types.idxOf second) ∧
        ∀ inner : String,
          Encloses package (segments inner.toList) →
            (candidates inner).Sublist
              (candidates package) := by
  constructor
  · intro type path hName
    exact ⟨ServiceType.path_eq hName,
      ServiceType.toList_simpleName hName,
      ServiceType.toList_packageName hName,
      ServiceType.isInPackage_iff hName⟩
  · intro types pathOf hNames candidates package
    exact ⟨mem_candidates_iff hNames package,
      (ServiceType.pairwise_idxOf_addAll types).filter _,
      fun _ hInner => candidates_sublist hInner types⟩

end Registered

/- A type in a package, applied to one of another package. -/
def wrapType : ServiceType :=
  ⟨"app::api::Wrap<b::T>", .empty⟩

/- The name of the type taken apart. -/
def wrapPath : TypePath where
  package := ["app".toList, "api".toList]
  simple := "Wrap".toList
  applied := "<b::T>".toList
  segmented := by decide
  bracketed := .inr ⟨"b::T".toList, rfl⟩

/-
  Half a segment is no package, and a type that is given
  twice is there once in its package and the one around it.
-/
theorem packages_of_wrapped :
    wrapType.simpleName = "Wrap" ∧
    wrapType.isInPackage "app" = true ∧
    wrapType.isInPackage "app::a" = false ∧
    let candidates :=
      (ofTypes [wrapType, wrapType]).discovery.candidates
    wrapType ∈ candidates "app" ∧
      (candidates "app").Nodup ∧
      (candidates "app::api").Sublist (candidates "app") := by
  obtain ⟨hNamed, hCatalog⟩ := packages_of_types
  obtain ⟨_, hSimple, _, hIn⟩ := hNamed wrapType wrapPath rfl
  obtain ⟨hMem, hOrder, hInner⟩ := hCatalog
    [wrapType, wrapType] (fun _ => wrapPath) (by decide)
    "app"
  refine ⟨?_, (hIn "app").mpr ?_, ?_, (hMem wrapType).mpr ?_,
    hOrder.imp ?_, hInner "app::api" ?_⟩
  · exact String.toList_inj.mp hSimple
  · decide +kernel
  · rw [Bool.eq_false_iff, ne_eq, hIn "app::a"]
    decide +kernel
  · exact ⟨List.mem_cons_self, by decide +kernel⟩
  · intro first second hLess hSame
    rw [hSame] at hLess
    exact Nat.lt_irrefl _ hLess
  · decide +kernel

end Catalog

end ServiceCalls
