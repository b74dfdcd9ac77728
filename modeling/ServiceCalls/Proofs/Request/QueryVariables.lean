import ServiceCalls.Proofs.Template.Pieces
import ServiceCalls.Proofs.Url.Pairs
import ServiceCalls.Request.QueryVariables

/-
  What a template with added parameters stands for.

  The placeholder of a parameter has a name that is not
  bound, so that no placeholder of the template takes its
  value.  The text of the template is followed by the pairs
  of the parameters as components.

  Key definitions include:
    * `addedText`

  Main declarations:
    * `isTaken_iff`
    * `isTaken_firstFree`
    * `placeholderName_queryVariable`
    * `expandPieces_appendQuery`
-/

namespace ServiceCalls

------------------------------------------------------------
-- Names of Variables
------------------------------------------------------------

theorem toList_queryVariable_ne_nil (n : Nat) :
    (queryVariable n).toList ≠ [] := by
  unfold queryVariable
  rw [String.toList_ofList]
  exact List.cons_ne_nil _ _

theorem isTaken_iff
    (template : List Char)
    (uriVariables : List (String × String))
    (n : Nat) :
    isTaken template uriVariables n = true ↔
      queryVariable n ∈ uriVariables.map Prod.fst ∨
        (queryVariable n).toList <:+: template := by
  have hBound :
      uriVariables.any (·.1 == queryVariable n) = true ↔
        queryVariable n ∈ uriVariables.map Prod.fst := by
    simp [List.any_eq_true]
  unfold isTaken
  rw [Bool.or_eq_true, hBound, Text.contains_iff_infix
    (toList_queryVariable_ne_nil n)]

/- A free number is that of a variable that is nowhere. -/
theorem isTaken_eq_false_iff
    (template : List Char)
    (uriVariables : List (String × String))
    (n : Nat) :
    isTaken template uriVariables n = false ↔
      queryVariable n ∉ uriVariables.map Prod.fst ∧
        ¬ (queryVariable n).toList <:+: template := by
  rw [Bool.eq_false_iff, ne_eq, isTaken_iff, not_or]

theorem isTaken_firstFree
    (template : List Char)
    (uriVariables : List (String × String))
    (n : Nat) :
    isTaken template uriVariables
      (firstFree template uriVariables n) = false := by
  fun_induction firstFree template uriVariables n with
  | case1 n hTaken ih => exact ih
  | case2 n hFree => exact Bool.eq_false_iff.mpr hFree

/- A name that is free has no value. -/
theorem lookup_queryVariable
    {template : List Char}
    {uriVariables : List (String × String)}
    {n : Nat}
    (h : isTaken template uriVariables n = false) :
    uriVariables.lookup (queryVariable n) = none := by
  rw [isTaken_eq_false_iff] at h
  rw [List.lookup_eq_none_iff]
  intro entry hMem
  rw [bne_iff_ne]
  intro hSame
  exact h.1 (hSame ▸ List.mem_map_of_mem hMem)

theorem isComponentChar_queryVariable
    {n : Nat}
    {c : Char}
    (h : c ∈ (queryVariable n).toList) :
    Text.isComponentChar c = true := by
  unfold queryVariable at h
  rw [String.toList_ofList, List.mem_append] at h
  rcases h with hMark | hDigit
  · have hAll :
        "__qp".toList.all Text.isComponentChar = true := by
      decide
    exact List.all_eq_true.mp hAll c hMark
  · have hIs := Nat.isDigit_of_mem_toDigits (b := 10)
      (by decide) (by decide) hDigit
    unfold Text.isComponentChar Char.isAlphanum
    rw [hIs]
    simp

/- A name of a placeholder is not changed by trimming. -/
theorem placeholderName_queryVariable (n : Nat) :
    UriTemplate.placeholderName (queryVariable n).toList =
      queryVariable n := by
  have hBlank :
      ∀ c ∈ (queryVariable n).toList,
        Text.isBlank c = false := by
    intro c hMem
    have hNot := Text.of_isComponentChar
      (p := fun c => !Text.isBlank c) (by decide)
      (isComponentChar_queryVariable hMem)
    rw [Bool.not_eq_true'] at hNot
    exact hNot
  have hStops :
      Text.Stops Text.isBlank (queryVariable n).toList :=
    fun c hHead => hBlank c (List.mem_of_head? hHead)
  have hEnd :
      Text.Stops Text.isBlank
        (queryVariable n).toList.reverse := by
    intro c hHead
    exact hBlank c
      (List.mem_reverse.mp (List.mem_of_head? hHead))
  unfold UriTemplate.placeholderName Text.trim
    Text.stripWhile Text.dropWhileEnd
  rw [String.toList_ofList, Text.dropWhile_stops hStops,
    Text.dropWhile_stops hEnd, List.reverse_reverse,
    String.ofList_toList]

------------------------------------------------------------
-- Added Parameters
------------------------------------------------------------

namespace UriTemplate

/- A new value leaves what was bound as it was. -/
theorem expandPieces_insert
    {uriVariables : List (String × String)}
    {key : String}
    (hFree : uriVariables.lookup key = none)
    (value : String)
    {pieces : List Piece}
    {text : List Char}
    (h : expandPieces uriVariables pieces = .ok text) :
    expandPieces (Assoc.insert key value uriVariables)
        pieces =
      .ok text := by
  induction pieces generalizing text with
  | nil => exact h
  | cons piece rest ih =>
      cases piece with
      | plain c =>
          rcases Fallible.map_eq_ok h with
            ⟨more, hMore, hText⟩
          subst hText
          unfold expandPieces
          rw [ih hMore]
          rfl
      | placeholder name =>
          unfold expandPieces at h ⊢
          split at h
          · cases h
          · next bound hBound =>
              rcases Fallible.map_eq_ok h with
                ⟨more, hMore, hText⟩
              subst hText
              have hOther : placeholderName name ≠ key := by
                intro hSame
                rw [hSame, hFree] at hBound
                cases hBound
              rw [Assoc.lookup_insert, if_neg hOther,
                hBound, ih hMore]
              rfl

/- What a parameter writes before its placeholder. -/
def pieceLead (template : List Char) (name : String) :
    List Char :=
  querySeparator template ::
    (Text.encodeComponent name.toList ++ ['='])

theorem queryPiece_eq
    (template : List Char)
    (name key : String) :
    queryPiece template name key =
      pieceLead template name ++
        '\x7b' :: (key.toList ++ '\x7d' :: []) := by
  unfold queryPiece pieceLead
  rw [List.cons_append, List.append_assoc]
  rfl

theorem not_isBrace_of_component
    {c : Char}
    (h : Text.isComponentChar c = true) :
    isBrace c = false := by
  have hNot := Text.of_isComponentChar
    (p := fun c => !isBrace c) (by decide) h
  rw [Bool.not_eq_true'] at hNot
  exact hNot

theorem not_isBrace_pieceLead
    (template : List Char)
    (name : String) :
    ∀ c ∈ pieceLead template name, isBrace c = false := by
  intro c hMem
  rcases List.mem_cons.mp hMem with hMark | hMem
  · rw [hMark]
    unfold querySeparator
    split
    · rfl
    · rfl
  · rcases List.mem_append.mp hMem with hName | hEqual
    · exact not_isBrace_of_component
        (Text.isComponentChar_of_mem hName)
    · rw [List.mem_singleton.mp hEqual]
      rfl

/- The first brace of a parameter opens its placeholder. -/
theorem opensFirst_pieceLead
    (template : List Char)
    (name : String)
    (rest : List Char) :
    OpensFirst (pieceLead template name ++ '\x7b' :: rest) := by
  have hGoes :
      ∀ c ∈ pieceLead template name,
        (fun c => !isBrace c) c = true := by
    intro c hMem
    dsimp only
    rw [not_isBrace_pieceLead template name c hMem]
    rfl
  have hStop :
      Text.Stops (fun c => !isBrace c) ('\x7b' :: rest) :=
    Text.stops_cons rfl _
  intro c hHead
  rw [Text.dropWhile_append_stop hGoes hStop] at hHead
  exact (Option.some.inj hHead).symm

theorem opensFirst_queryPiece
    (template : List Char)
    (name key : String) :
    OpensFirst (queryPiece template name key) := by
  rw [queryPiece_eq]
  exact opensFirst_pieceLead template name _

theorem pieces_queryPiece
    (template : List Char)
    (name : String)
    (n : Nat) :
    pieces (queryPiece template name (queryVariable n)) =
      (pieceLead template name).map Piece.plain ++
        [.placeholder (queryVariable n).toList] := by
  have hPlain :
      ∀ c ∈ pieceLead template name, c ≠ '\x7b' := by
    intro c hMem hSame
    have hNot := not_isBrace_pieceLead template name c hMem
    rw [hSame] at hNot
    cases hNot
  have hKey :
      ∀ c ∈ (queryVariable n).toList, isBrace c = false :=
    fun c hMem => not_isBrace_of_component
      (isComponentChar_queryVariable hMem)
  rw [queryPiece_eq, pieces_plain hPlain,
    pieces_placeholder (toList_queryVariable_ne_nil n) hKey,
    pieces]

/- A parameter is expanded to its pair. -/
theorem expandPieces_queryPiece
    {template text : List Char}
    {uriVariables : List (String × String)}
    (h :
      expandPieces uriVariables (pieces template) =
        .ok text)
    {n : Nat}
    (hFree : isTaken template uriVariables n = false)
    (pair : String × String) :
    expandPieces
        (Assoc.insert (queryVariable n) pair.2 uriVariables)
        (pieces (template ++
          queryPiece template pair.1 (queryVariable n))) =
      .ok (text ++
        querySeparator template ::
          Url.componentPair pair) := by
  have hBefore := expandPieces_insert
    (lookup_queryVariable hFree) pair.2 h
  have hBound :
      (Assoc.insert (queryVariable n) pair.2
          uriVariables).lookup
            (placeholderName (queryVariable n).toList) =
        some pair.2 := by
    rw [placeholderName_queryVariable, Assoc.lookup_insert,
      if_pos rfl]
  have hPair := expandPieces_append
    (expandPieces_plain (pieceLead template pair.1))
    (expandPieces_placeholder hBound)
  rw [pieces_append (opensFirst_queryPiece _ _ _),
    pieces_queryPiece, expandPieces_append hBefore hPair]
  unfold pieceLead Url.componentPair
  rw [List.cons_append, List.append_assoc]
  rfl

/- What parameters add to the text of a template. -/
def addedText (mark : Char) :
    List (String × String) → List Char
  | [] => []
  | added => mark :: Url.pairsText added

theorem addedText_cons
    (mark : Char)
    (pair : String × String)
    (rest : List (String × String)) :
    addedText mark (pair :: rest) =
      mark :: (Url.componentPair pair ++
        addedText '&' rest) := by
  cases rest with
  | nil =>
      unfold addedText
      rw [List.append_nil]
      rfl
  | cons next more => rfl

/- Behind one parameter another is separated by a mark. -/
theorem querySeparator_queryPiece
    (template : List Char)
    (name key : String) :
    querySeparator
        (template ++ queryPiece template name key) =
      '&' := by
  have hMem :
      '?' ∈ template ++ queryPiece template name key := by
    rw [List.mem_append]
    by_cases hHas : '?' ∈ template
    · exact .inl hHas
    · refine .inr ?_
      unfold queryPiece querySeparator
      rw [if_neg (by
        rw [List.contains_iff_mem]
        exact hHas)]
      exact List.mem_cons_self
  unfold querySeparator
  rw [if_pos (List.contains_iff_mem.mpr hMem)]

/-
  A template with parameters stands for the text of the
  template and the pairs of the parameters.
-/
theorem expandPieces_appendQuery
    {template text : List Char}
    {uriVariables : List (String × String)}
    (h :
      expandPieces uriVariables (pieces template) =
        .ok text)
    (next : Nat)
    (added : List (String × String)) :
    expandPieces
        (appendQuery template uriVariables next added).2
        (pieces
          (appendQuery template uriVariables next
            added).1) =
      .ok (text ++
        addedText (querySeparator template) added) := by
  induction added
    generalizing template text uriVariables next with
  | nil =>
      unfold appendQuery addedText
      rw [List.append_nil]
      exact h
  | cons pair rest ih =>
      have hFirst := expandPieces_queryPiece h
        (isTaken_firstFree template uriVariables next) pair
      have hRest := ih hFirst
        (firstFree template uriVariables next + 1)
      rw [querySeparator_queryPiece, List.append_assoc,
        List.cons_append, ← addedText_cons] at hRest
      unfold appendQuery
      exact hRest

end UriTemplate

end ServiceCalls
