import Mathlib.Data.List.Infix
import Mathlib.Data.List.Nodup
import Mathlib.Data.List.Perm.Subperm
import ServiceCalls.Proofs.Request.QueryVariables
import ServiceCalls.Proofs.Template.Substitution

/-
  Variables of added parameters are new.

  A text ends with one number only, so that a template and
  its variables have no more numbers in use than they have
  characters and entries, and the search for a free one
  ends.  The variables that are found are apart from each
  other, from those that are bound, and from all that occurs
  in the template.  So every placeholder of the template
  keeps its value, or stays without one.

  Key definitions include:
    * `endNumber`
    * `numbersInUse`
    * `placeholderPairs`
    * `AddsWith`

  Main declarations:
    * `endNumber_append_queryVariable`
    * `le_of_all_taken`
    * `AddsWith.cons`
    * `exists_addsWith`
    * `UriTemplate.lookup_placeholderName`
    * `UriTemplate.expandPieces_of_addsWith`
    * `UriTemplate.fresh_variables_of_parameters`
-/

namespace ServiceCalls

------------------------------------------------------------
-- Numbers in Use
------------------------------------------------------------

/- The number that the digits at the end of a text make. -/
def endNumber (text : List Char) : Nat :=
  Nat.ofDigitChars 10
    (text.reverse.takeWhile Char.isDigit).reverse 0

/- The variable with a number ends with it. -/
theorem endNumber_append_queryVariable
    (front : List Char)
    (n : Nat) :
    endNumber (front ++ (queryVariable n).toList) = n := by
  have hDigits :
      ∀ c ∈ (Nat.toDigits 10 n).reverse,
        c.isDigit = true := by
    intro c hMem
    exact Nat.isDigit_of_mem_toDigits (b := 10) (by decide)
      (by decide) (List.mem_reverse.mp hMem)
  have hStop :
      Text.Stops Char.isDigit
        ("__qp".toList.reverse ++ front.reverse) :=
    Text.stops_cons rfl _
  have hText :
      (front ++ (queryVariable n).toList).reverse =
        (Nat.toDigits 10 n).reverse ++
          ("__qp".toList.reverse ++ front.reverse) := by
    unfold queryVariable
    rw [String.toList_ofList, List.reverse_append,
      List.reverse_append, List.append_assoc]
  unfold endNumber
  rw [hText, Text.takeWhile_append_stop hDigits hStop,
    List.reverse_reverse]
  exact Nat.ofDigitChars_toDigits (by decide) (by decide)

theorem queryVariable_injective :
    Function.Injective queryVariable := by
  intro m n hSame
  rw [← endNumber_append_queryVariable [] m, hSame,
    endNumber_append_queryVariable]

/-
  What the variables end with, and the template up to any of
  its places.
-/
def numbersInUse
    (template : List Char)
    (uriVariables : List (String × String)) :
    List Nat :=
  uriVariables.map (fun entry => endNumber entry.1.toList) ++
    template.inits.map endNumber

theorem mem_numbersInUse
    {template : List Char}
    {uriVariables : List (String × String)}
    {n : Nat}
    (h : isTaken template uriVariables n = true) :
    n ∈ numbersInUse template uriVariables := by
  rw [isTaken_iff] at h
  unfold numbersInUse
  rw [List.mem_append, List.mem_map, List.mem_map]
  rcases h with hBound | ⟨front, rest, hText⟩
  · rcases List.mem_map.mp hBound with ⟨entry, hMem, hName⟩
    refine .inl ⟨entry, hMem, ?_⟩
    rw [hName]
    exact endNumber_append_queryVariable [] n
  · refine .inr ⟨front ++ (queryVariable n).toList, ?_,
      endNumber_append_queryVariable front n⟩
    rw [List.mem_inits, ← hText]
    exact List.prefix_append _ _

/-
  Not all numbers up to one that is larger than this can be
  in use, since each of them ends another text.
-/
theorem le_of_all_taken
    {template : List Char}
    {uriVariables : List (String × String)}
    {n : Nat}
    (h : ∀ m ≤ n, isTaken template uriVariables m = true) :
    n ≤ uriVariables.length + template.length := by
  have hSubset :
      List.range (n + 1) ⊆
        numbersInUse template uriVariables := by
    intro m hMem
    exact mem_numbersInUse
      (h m (Nat.lt_succ_iff.mp (List.mem_range.mp hMem)))
  have hLength :=
    (List.subperm_of_subset List.nodup_range
      hSubset).length_le
  unfold numbersInUse at hLength
  rw [List.length_range, List.length_append, List.length_map,
    List.length_map, List.length_inits] at hLength
  omega

------------------------------------------------------------
-- One Search
------------------------------------------------------------

theorem le_firstFree
    (template : List Char)
    (uriVariables : List (String × String))
    (n : Nat) :
    n ≤ firstFree template uriVariables n := by
  fun_induction firstFree template uriVariables n with
  | case1 n hTaken ih => exact (Nat.le_succ n).trans ih
  | case2 n hFree => exact Nat.le_refl n

/- Only numbers in use are passed over. -/
theorem isTaken_of_lt_firstFree
    {template : List Char}
    {uriVariables : List (String × String)}
    {n m : Nat}
    (hStart : n ≤ m)
    (h : m < firstFree template uriVariables n) :
    isTaken template uriVariables m = true := by
  fun_induction firstFree template uriVariables n with
  | case1 n hTaken ih =>
      rcases Nat.eq_or_lt_of_le hStart with hSame | hLater
      · rw [← hSame]
        exact hTaken
      · exact ih hLater h
  | case2 n hFree => omega

/- What is in use stays in use. -/
theorem isTaken_append
    {template : List Char}
    {uriVariables : List (String × String)}
    {n : Nat}
    (h : isTaken template uriVariables n = true)
    (rest : List Char)
    (others : List (String × String)) :
    isTaken (template ++ rest) (uriVariables ++ others) n =
      true := by
  rw [isTaken_iff] at h ⊢
  rcases h with hBound | hOccurs
  · left
    rw [List.map_append]
    exact List.mem_append_left _ hBound
  · right
    exact hOccurs.trans (List.prefix_append _ _).isInfix

/- Once the number that is found is bound, all are in use. -/
theorem isTaken_of_le_firstFree
    {template : List Char}
    {uriVariables : List (String × String)}
    {n m : Nat}
    (hStart : n ≤ m)
    (h : m ≤ firstFree template uriVariables n)
    (value : String)
    (rest : List Char) :
    isTaken (template ++ rest)
        (uriVariables ++
          [(queryVariable (firstFree template uriVariables n),
            value)]) m =
      true := by
  rcases Nat.lt_or_eq_of_le h with hEarlier | hFound
  · exact isTaken_append
      (isTaken_of_lt_firstFree hStart hEarlier) _ _
  · rw [isTaken_iff, hFound]
    simp

------------------------------------------------------------
-- All Searches
------------------------------------------------------------

/-
  Names and the variables of their values, as they are added
  to a template.
-/
def placeholderPairs (mark : Char) :
    List (String × String) → List Char
  | [] => []
  | (name, key) :: rest =>
      mark :: (Text.encodeComponent name.toList ++
        '=' :: '\x7b' :: (key.toList ++
          '\x7d' :: placeholderPairs '&' rest))

theorem queryPiece_append
    (template : List Char)
    (name key : String)
    (rest : List (String × String)) :
    queryPiece template name key ++
        placeholderPairs '&' rest =
      placeholderPairs (querySeparator template)
        ((name, key) :: rest) := by
  unfold queryPiece
  rw [placeholderPairs]
  simp

/- The variables with some numbers. -/
def queryVariables (numbers : List Nat) : List String :=
  numbers.map queryVariable

/- Adding parameters with the variables of some numbers. -/
structure AddsWith
    (template : List Char)
    (uriVariables : List (String × String))
    (next : Nat)
    (added : List (String × String))
    (numbers : List Nat) :
    Prop where
  paired : numbers.length = added.length
  increasing : numbers.Pairwise (· < ·)
  later : ∀ n ∈ numbers, next ≤ n
  free :
    ∀ n ∈ numbers, isTaken template uriVariables n = false
  text :
    (appendQuery template uriVariables next added).1 =
      template ++
        placeholderPairs (querySeparator template)
          ((added.map Prod.fst).zip (queryVariables numbers))
  bound :
    (appendQuery template uriVariables next added).2 =
      uriVariables ++
        (queryVariables numbers).zip (added.map Prod.snd)
  passed :
    ∀ n ∈ numbers, ∀ m, next ≤ m → m ≤ n →
      isTaken
        (appendQuery template uriVariables next added).1
        (appendQuery template uriVariables next added).2 m =
          true

section Search

variable (template : List Char)
variable (uriVariables : List (String × String))
variable (next : Nat)

/- One parameter is added, and then the others. -/
theorem appendQuery_cons
    (name value : String)
    (rest : List (String × String)) :
    appendQuery template uriVariables next
        ((name, value) :: rest) =
      let n := firstFree template uriVariables next
      appendQuery
        (template ++
          queryPiece template name (queryVariable n))
        (uriVariables ++ [(queryVariable n, value)])
        (n + 1) rest := by
  have hFree :=
    isTaken_firstFree template uriVariables next
  rw [isTaken_eq_false_iff] at hFree
  dsimp only
  rw [appendQuery, Assoc.insert_of_not_mem hFree.1]

/- What is free behind a parameter was free before it. -/
theorem AddsWith.cons
    {name value : String}
    {rest : List (String × String)}
    {numbers : List Nat}
    {n : Nat}
    (hFirst : firstFree template uriVariables next = n)
    (h : AddsWith
      (template ++
        queryPiece template name (queryVariable n))
      (uriVariables ++ [(queryVariable n, value)])
      (n + 1) rest numbers) :
    AddsWith template uriVariables next
      ((name, value) :: rest) (n :: numbers) := by
  have hSame :=
    appendQuery_cons template uriVariables next name value
      rest
  dsimp only at hSame
  rw [hFirst] at hSame
  have hStart : next ≤ n :=
    hFirst ▸ le_firstFree template uriVariables next
  -- What was passed over is still in use in the end.
  have hUsed (m : Nat)
      (hNext : next ≤ m)
      (hLast : m ≤ n) :
      isTaken
          (appendQuery template uriVariables next
            ((name, value) :: rest)).1
          (appendQuery template uriVariables next
            ((name, value) :: rest)).2 m =
        true := by
    rw [hSame, h.text, h.bound]
    rw [← hFirst] at hLast ⊢
    exact isTaken_append
      (isTaken_of_le_firstFree hNext hLast value _) _ _
  constructor
  case paired =>
    rw [List.length_cons, List.length_cons, h.paired]
  case increasing =>
    rw [List.pairwise_cons]
    exact ⟨h.later, h.increasing⟩
  case later =>
    rw [List.forall_mem_cons]
    exact ⟨hStart, fun m hMem =>
      hStart.trans ((Nat.le_succ n).trans (h.later m hMem))⟩
  case free =>
    rw [List.forall_mem_cons]
    refine ⟨hFirst ▸ isTaken_firstFree _ _ _,
      fun m hMem => ?_⟩
    have hFree := h.free m hMem
    rw [Bool.eq_false_iff] at hFree ⊢
    exact fun hTaken => hFree (isTaken_append hTaken _ _)
  case text =>
    rw [hSame, h.text,
      UriTemplate.querySeparator_queryPiece,
      List.append_assoc, queryPiece_append]
    rfl
  case bound =>
    rw [hSame, h.bound, List.append_assoc]
    rfl
  case passed =>
    rw [List.forall_mem_cons]
    refine ⟨hUsed, fun k hMem m hNext hLast => ?_⟩
    rcases Nat.lt_or_ge n m with hLater | hEarlier
    · rw [hSame]
      exact h.passed k hMem m hLater hLast
    · exact hUsed m hNext hEarlier

theorem exists_addsWith
    (added : List (String × String)) :
    ∃ numbers,
      AddsWith template uriVariables next added numbers := by
  induction added
    generalizing template uriVariables next with
  | nil =>
      have hNone :
          AddsWith template uriVariables next [] [] :=
        { paired := rfl
          increasing := List.Pairwise.nil
          later := List.forall_mem_nil _
          free := List.forall_mem_nil _
          text := (List.append_nil template).symm
          bound := (List.append_nil uriVariables).symm
          passed := List.forall_mem_nil _ }
      exact ⟨[], hNone⟩
  | cons pair rest ih =>
      rcases ih
        (template ++ queryPiece template pair.1
          (queryVariable
            (firstFree template uriVariables next)))
        (uriVariables ++
          [(queryVariable
            (firstFree template uriVariables next), pair.2)])
        (firstFree template uriVariables next + 1) with
        ⟨numbers, hNumbers⟩
      exact ⟨_, hNumbers.cons template uriVariables next rfl⟩

end Search

section Added

variable {template : List Char}
variable {uriVariables added : List (String × String)}
variable {numbers : List Nat}

theorem AddsWith.nodup
    {next : Nat}
    (h : AddsWith template uriVariables next added numbers) :
    (queryVariables numbers).Nodup := by
  have hNumbers : numbers.Nodup :=
    h.increasing.imp Nat.ne_of_lt
  exact hNumbers.map queryVariable_injective

/- No more numbers are tried than are in use in the end. -/
theorem AddsWith.le
    (h : AddsWith template uriVariables 0 added numbers) :
    ∀ n ∈ numbers,
      n ≤ (appendQuery template uriVariables 0
            added).2.length +
        (appendQuery template uriVariables 0
          added).1.length :=
  fun n hMem => le_of_all_taken fun m hLast =>
    h.passed n hMem m (Nat.zero_le m) hLast

namespace UriTemplate

------------------------------------------------------------
-- Placeholders That Were There
------------------------------------------------------------

/- A placeholder is named by what occurs in its template. -/
theorem infix_of_placeholder
    {name : List Char}
    (h : .placeholder name ∈ pieces template) :
    (placeholderName name).toList <:+: template := by
  rcases List.append_of_mem h with ⟨front, back, hParts⟩
  have hText := ((marks_pieces template).exact _ name _).mp
    ⟨front, back, hParts, rfl, rfl⟩
  have hName : name <:+: template := by
    refine ⟨written front ++ ['\x7b'],
      '\x7d' :: written back, ?_⟩
    rw [hText.1]
    simp [braced]
  have hTrim : (placeholderName name).toList <:+: name := by
    unfold placeholderName Text.trim
    rw [String.toList_ofList, String.toList_ofList]
    exact Text.stripWhile_infix name
  exact hTrim.trans hName

/- A placeholder keeps its value, or stays without one. -/
theorem lookup_placeholderName
    (hFree : ∀ n ∈ numbers,
      isTaken template uriVariables n = false)
    {name : List Char}
    (h : .placeholder name ∈ pieces template)
    (values : List String) :
    (uriVariables ++
        (queryVariables numbers).zip values).lookup
          (placeholderName name) =
      uriVariables.lookup (placeholderName name) := by
  have hNone :
      ((queryVariables numbers).zip values).lookup
          (placeholderName name) =
        none := by
    rw [List.lookup_eq_none_iff]
    intro entry hEntry
    rw [bne_iff_ne]
    intro hSame
    rcases List.mem_map.mp (List.of_mem_zip hEntry).1 with
      ⟨n, hMem, hKey⟩
    have hNew := hFree n hMem
    rw [isTaken_eq_false_iff, hKey, ← hSame] at hNew
    exact hNew.2 (infix_of_placeholder h)
  rw [List.lookup_append, hNone, Option.or_none]

theorem mem_names_iff
    (name : String)
    (parts : List Piece) :
    name ∈ names parts ↔
      ∃ raw, .placeholder raw ∈ parts ∧
        placeholderName raw = name := by
  unfold names
  rw [List.mem_filterMap]
  constructor
  · rintro ⟨piece, hMem, hName⟩
    cases piece with
    | plain c => cases hName
    | placeholder raw =>
        exact ⟨raw, hMem, Option.some.inj hName⟩
  · rintro ⟨raw, hMem, hName⟩
    exact ⟨_, hMem, congrArg some hName⟩

------------------------------------------------------------
-- Templates That Are Extended
------------------------------------------------------------

theorem opensFirst_placeholderPairs
    (before : List Char)
    (entries : List (String × String)) :
    OpensFirst
      (placeholderPairs (querySeparator before) entries) := by
  cases entries with
  | nil =>
      intro c hHead
      cases hHead
  | cons entry rest =>
      have hLead := opensFirst_pieceLead before entry.1
        (entry.2.toList ++
          '\x7d' :: placeholderPairs '&' rest)
      unfold pieceLead at hLead
      rw [List.cons_append, List.append_assoc] at hLead
      exact hLead

/- The first placeholder without a value is still the first. -/
theorem expandPieces_append_error
    {before : List Piece}
    {name : String}
    (h : expandPieces uriVariables before = .error name)
    (after : List Piece) :
    expandPieces uriVariables (before ++ after) =
      .error name := by
  induction before with
  | nil => cases h
  | cons piece rest ih =>
      rw [List.cons_append]
      cases piece with
      | plain c =>
          rw [expandPieces] at h ⊢
          cases hRest : expandPieces uriVariables rest with
          | ok text =>
              rw [hRest] at h
              cases h
          | error other =>
              rw [hRest] at h
              cases h
              rw [ih hRest]
              rfl
      | placeholder raw =>
          rw [expandPieces] at h ⊢
          cases hValue :
              uriVariables.lookup (placeholderName raw) with
          | none =>
              rw [hValue] at h
              exact h
          | some value =>
              rw [hValue] at h
              dsimp only at h ⊢
              cases hRest : expandPieces uriVariables rest with
              | ok text =>
                  rw [hRest] at h
                  cases h
              | error other =>
                  rw [hRest] at h
                  cases h
                  rw [ih hRest]
                  rfl

section Extended

variable {next : Nat}
variable
  (h : AddsWith template uriVariables next added numbers)

include h

/- No placeholder reaches into what is added. -/
theorem pieces_of_addsWith :
    pieces (appendQuery template uriVariables next added).1 =
      pieces template ++
        pieces (placeholderPairs (querySeparator template)
          ((added.map Prod.fst).zip
            (queryVariables numbers))) := by
  rw [h.text,
    pieces_append (opensFirst_placeholderPairs template _)]

/- Old placeholders are expanded with old values. -/
theorem expandPieces_of_addsWith :
    expandPieces
        (appendQuery template uriVariables next added).2
        (pieces
          (appendQuery template uriVariables next added).1) =
      (expandPieces uriVariables (pieces template)).map
        (· ++ addedText (querySeparator template) added) := by
  cases hText : expandPieces uriVariables
      (pieces template) with
  | ok text => exact expandPieces_appendQuery hText next added
  | error name =>
      have hOld :
          expandPieces
              (appendQuery template uriVariables next added).2
              (pieces template) =
            .error name := by
        rw [← hText, h.bound]
        apply expandPieces_congr
        intro found hFound
        rcases (mem_names_iff found _).mp hFound with
          ⟨raw, hRaw, hName⟩
        rw [← hName]
        exact lookup_placeholderName h.free hRaw _
      rw [pieces_of_addsWith h]
      exact expandPieces_append_error hOld _

end Extended

end UriTemplate

end Added

namespace UriTemplate

/-
  Each parameter has a variable of its own, which is neither
  bound nor part of the template, and no more are tried than
  are in use in the end.  The placeholders of the template
  stay what they are and keep their values.  Its text is
  followed by the pairs of the parameters, and its first
  placeholder without a value is still the one reported.
-/
theorem fresh_variables_of_parameters
    (template : List Char)
    (uriVariables added : List (String × String)) :
    let extended := appendQuery template uriVariables 0 added
    ∃ keys : List String,
      keys.length = added.length ∧
      keys.Nodup ∧
      (∀ key ∈ keys,
        key ∉ uriVariables.map Prod.fst ∧
        ¬ key.toList <:+: template ∧
        ∃ n ≤ extended.2.length + extended.1.length,
          key = queryVariable n) ∧
      extended.2 =
        uriVariables ++ keys.zip (added.map Prod.snd) ∧
      extended.1 =
        template ++ placeholderPairs (querySeparator template)
          ((added.map Prod.fst).zip keys) ∧
      pieces extended.1 =
        pieces template ++
          pieces (placeholderPairs (querySeparator template)
            ((added.map Prod.fst).zip keys)) ∧
      (∀ name, .placeholder name ∈ pieces template →
        extended.2.lookup (placeholderName name) =
          uriVariables.lookup (placeholderName name)) ∧
      expandPieces extended.2 (pieces extended.1) =
        (expandPieces uriVariables (pieces template)).map
          (· ++ addedText (querySeparator template)
            added) := by
  rcases exists_addsWith template uriVariables 0 added with
    ⟨numbers, h⟩
  refine ⟨queryVariables numbers, ?_, h.nodup, ?_, h.bound,
    h.text, pieces_of_addsWith h, ?_,
    expandPieces_of_addsWith h⟩
  · exact (List.length_map _).trans h.paired
  · intro key hKey
    rcases List.mem_map.mp hKey with ⟨n, hMem, hName⟩
    have hNew := (isTaken_eq_false_iff ..).mp (h.free n hMem)
    rw [hName] at hNew
    exact ⟨hNew.1, hNew.2, n, h.le n hMem, hName.symm⟩
  · intro name hName
    rw [h.bound]
    exact lookup_placeholderName h.free hName _

/- A template with a brace that is not closed. -/
def openTemplate : List Char :=
  "/a/\x7bid\x7d/\x7b __qp0 \x7d/\x7bopen".toList

/- A variable with a number, and not the one in use there. -/
def openVariables : List (String × String) :=
  [("id", "a?"), ("__qp1", "x")]

theorem pieces_openTemplate :
    pieces openTemplate =
      "/a/".toList.map Piece.plain ++
        [.placeholder "id".toList, .plain '/'] ++
      .placeholder " __qp0 ".toList ::
        "/\x7bopen".toList.map Piece.plain := by
  decide +kernel

/-
  The placeholder with a number has no value, and none of
  the parameters gives it one.
-/
theorem fresh_variables_of_open :
    ∃ keys : List String,
      keys.length = 2 ∧
      keys.Nodup ∧
      (∀ key ∈ keys, key ≠ "__qp1") ∧
      (∀ key ∈ keys, ¬ key.toList <:+: openTemplate) ∧
      expandPieces (appendQuery openTemplate openVariables 0
          [("q", "1"), ("r", "2")]).2
        (pieces (appendQuery openTemplate openVariables 0
          [("q", "1"), ("r", "2")]).1) =
        .error "__qp0" := by
  rcases fresh_variables_of_parameters openTemplate
      openVariables [("q", "1"), ("r", "2")] with
    ⟨keys, hLength, hNodup, hKeys, _, _, _, _, hText⟩
  have hOld :
      expandPieces openVariables (pieces openTemplate) =
        .error "__qp0" := by
    rw [pieces_openTemplate]
    exact expandPieces_of_unbound (by decide) (by decide)
  refine ⟨keys, hLength, hNodup, ?_, ?_, ?_⟩
  · intro key hKey hSame
    exact (hKeys key hKey).1 (by rw [hSame]; decide)
  · exact fun key hKey => (hKeys key hKey).2.1
  · rw [hText, hOld]
    rfl

end UriTemplate

end ServiceCalls
