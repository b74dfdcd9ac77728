import ServiceCalls.Proofs.Fallible
import ServiceCalls.Proofs.Text.Percent
import ServiceCalls.Proofs.Text.Runs
import ServiceCalls.Template.Expansion

/-
  The pieces of a template that is put together.

  Characters other than opening braces are pieces of their
  own, and a name in braces is a placeholder.  Pieces are
  expanded one after the other.

  Main declarations:
    * `UriTemplate.pieces_plain`
    * `UriTemplate.pieces_placeholder`
    * `UriTemplate.expandPieces_append`
    * `UriTemplate.mem_expandPieces_iff`
-/

namespace ServiceCalls

namespace UriTemplate

------------------------------------------------------------
-- Pieces of Parts
------------------------------------------------------------

theorem pieces_cons
    {c : Char}
    (h : c ≠ '\x7b')
    (rest : List Char) :
    pieces (c :: rest) = .plain c :: pieces rest := by
  rw [pieces, if_neg h]

/- Characters that open no placeholder stay as they are. -/
theorem pieces_plain
    {text : List Char}
    (h : ∀ c ∈ text, c ≠ '\x7b')
    (rest : List Char) :
    pieces (text ++ rest) =
      text.map Piece.plain ++ pieces rest := by
  induction text with
  | nil => rfl
  | cons c more ih =>
      rw [List.cons_append,
        pieces_cons (h c List.mem_cons_self),
        ih fun d hd => h d (List.mem_cons_of_mem _ hd)]
      rfl

/- The name of a placeholder ends at its brace. -/
theorem placeholder?_append
    {name : List Char}
    (hSome : name ≠ [])
    (hName : ∀ c ∈ name, isBrace c = false)
    (rest : List Char) :
    placeholder? (name ++ '\x7d' :: rest) =
      some (name, rest) := by
  have hGoes :
      ∀ c ∈ name, (fun c => !isBrace c) c = true := by
    intro c hMem
    dsimp only
    rw [hName c hMem]
    rfl
  have hStop :
      Text.Stops (fun c => !isBrace c) ('\x7d' :: rest) :=
    Text.stops_cons rfl rest
  have hEmpty : name.isEmpty = false :=
    List.isEmpty_eq_false_iff.mpr hSome
  unfold placeholder?
  rw [Text.takeWhile_append_stop hGoes hStop,
    Text.dropWhile_append_stop hGoes hStop]
  dsimp only
  rw [hEmpty, if_neg Bool.false_ne_true]
  rfl

theorem pieces_placeholder
    {name : List Char}
    (hSome : name ≠ [])
    (hName : ∀ c ∈ name, isBrace c = false)
    (rest : List Char) :
    pieces ('\x7b' :: (name ++ '\x7d' :: rest)) =
      .placeholder name :: pieces rest := by
  rw [pieces, if_pos rfl]
  split
  · next other after hFound =>
      rw [placeholder?_append hSome hName] at hFound
      cases hFound
      rfl
  · next hNone =>
      rw [placeholder?_append hSome hName] at hNone
      cases hNone

------------------------------------------------------------
-- Pieces of Texts that Go On
------------------------------------------------------------

/- A text whose first brace, if there is one, opens. -/
def OpensFirst (text : List Char) : Prop :=
  ∀ c,
    (text.dropWhile fun c => !isBrace c).head? = some c →
      c = '\x7b'

/- A placeholder is a name and the brace after it. -/
theorem of_placeholder?
    {text name after : List Char}
    (h : placeholder? text = some (name, after)) :
    text = name ++ '\x7d' :: after ∧
      name ≠ [] ∧
      ∀ c ∈ name, isBrace c = false := by
  unfold placeholder? at h
  dsimp only at h
  split at h
  · cases h
  · next hSome =>
      split at h
      · next rest hDrop =>
          cases h
          have hSplit := List.takeWhile_append_dropWhile
            (p := fun c => !isBrace c) (l := text)
          rw [hDrop] at hSplit
          refine ⟨hSplit.symm, ?_, ?_⟩
          · intro hNone
            exact hSome (List.isEmpty_iff.mpr hNone)
          · intro c hMem
            have hGoes :=
              List.all_eq_true.mp List.all_takeWhile c hMem
            rw [Bool.not_eq_true'] at hGoes
            exact hGoes
      · cases h

/- A placeholder is found whatever follows its text. -/
theorem placeholder?_of_opensFirst
    {rest : List Char}
    (h : OpensFirst rest)
    (text : List Char) :
    placeholder? (text ++ rest) =
      (placeholder? text).map fun (name, after) =>
        (name, after ++ rest) := by
  cases hText : placeholder? text with
  | some parts =>
      rcases parts with ⟨name, after⟩
      rcases of_placeholder? hText with
        ⟨hSplit, hSome, hName⟩
      rw [hSplit, List.append_assoc, List.cons_append,
        placeholder?_append hSome hName]
      rfl
  | none =>
      cases hBoth : placeholder? (text ++ rest) with
      | none => rfl
      | some parts =>
          rcases parts with ⟨name, after⟩
          rcases of_placeholder? hBoth with
            ⟨hSplit, hSome, hName⟩
          rcases List.append_eq_append_iff.mp hSplit with
            ⟨more, hLonger, hRest⟩ | ⟨more, hInside, hMore⟩
          · -- The brace would be the first one of the rest.
            have hGoes :
                ∀ c ∈ more,
                  (fun c => !isBrace c) c = true := by
              intro c hMem
              dsimp only
              rw [hName c (by
                rw [hLonger]
                exact List.mem_append_right _ hMem)]
              rfl
            have hStop : Text.Stops (fun c => !isBrace c)
                ('\x7d' :: after) :=
              Text.stops_cons rfl after
            have hOpen := h '\x7d' (by
              rw [hRest,
                Text.dropWhile_append_stop hGoes hStop]
              rfl)
            exact absurd hOpen (by decide)
          · cases more with
            | nil =>
                rw [List.append_nil] at hInside
                have hOpen := h '\x7d' (by
                  rw [← List.nil_append rest, ← hMore]
                  rfl)
                exact absurd hOpen (by decide)
            | cons c others =>
                rw [← (List.cons.inj hMore).1] at hInside
                rw [hInside, placeholder?_append hSome
                  hName] at hText
                cases hText

/- The pieces of a text are those of its parts. -/
theorem pieces_append
    {rest : List Char}
    (h : OpensFirst rest)
    (text : List Char) :
    pieces (text ++ rest) = pieces text ++ pieces rest := by
  fun_induction pieces text with
  | case1 => rfl
  | case2 more name after hFound hShorter ih =>
      have hBoth := placeholder?_of_opensFirst h more
      rw [hFound] at hBoth
      rw [List.cons_append, pieces, if_pos rfl]
      split
      · next other left hOther =>
          rw [hBoth] at hOther
          cases hOther
          rw [ih]
          rfl
      · next hNone =>
          rw [hBoth] at hNone
          cases hNone
  | case3 more hNone ih =>
      have hBoth := placeholder?_of_opensFirst h more
      rw [hNone] at hBoth
      rw [List.cons_append, pieces, if_pos rfl]
      split
      · next hFound =>
          rw [hBoth] at hFound
          cases hFound
      · rw [ih]
        rfl
  | case4 c more hOther ih =>
      rw [List.cons_append, pieces_cons hOther, ih]
      rfl

------------------------------------------------------------
-- Expanded Parts
------------------------------------------------------------

variable {uriVariables : List (String × String)}

theorem expandPieces_plain (text : List Char) :
    expandPieces uriVariables (text.map Piece.plain) =
      .ok text := by
  induction text with
  | nil => rfl
  | cons c rest ih =>
      rw [List.map_cons]
      unfold expandPieces
      rw [ih]
      rfl

/- Parts that are expanded are expanded together. -/
theorem expandPieces_append
    {before after : List Piece}
    {front back : List Char}
    (hBefore :
      expandPieces uriVariables before = .ok front)
    (hAfter : expandPieces uriVariables after = .ok back) :
    expandPieces uriVariables (before ++ after) =
      .ok (front ++ back) := by
  induction before generalizing front with
  | nil =>
      cases hBefore
      exact hAfter
  | cons piece rest ih =>
      cases piece with
      | plain c =>
          rcases Fallible.map_eq_ok hBefore with
            ⟨text, hText, hFront⟩
          subst hFront
          rw [List.cons_append]
          unfold expandPieces
          rw [ih hText]
          rfl
      | placeholder name =>
          unfold expandPieces at hBefore
          rw [List.cons_append]
          unfold expandPieces
          split at hBefore
          · cases hBefore
          · next value hValue =>
              rcases Fallible.map_eq_ok hBefore with
                ⟨text, hText, hFront⟩
              subst hFront
              rw [ih hText, List.append_assoc]
              rfl

/- A placeholder is expanded to its encoded value. -/
theorem expandPieces_placeholder
    {name : List Char}
    {value : String}
    (h :
      uriVariables.lookup (placeholderName name) =
        some value) :
    expandPieces uriVariables [.placeholder name] =
      .ok (Text.encodeComponent value.toList) := by
  unfold expandPieces
  rw [h]
  change Except.ok (Text.encodeComponent value.toList ++
    []) = _
  rw [List.append_nil]

------------------------------------------------------------
-- Characters of Templates
------------------------------------------------------------

theorem mem_of_plain_mem
    {c : Char}
    {text : List Char}
    (h : .plain c ∈ pieces text) :
    c ∈ text := by
  fun_induction pieces text with
  | case1 => cases h
  | case2 rest name after hFound hShorter ih =>
      have hAfter : c ∈ after := by
        rcases List.mem_cons.mp h with hSame | hMem
        · cases hSame
        · exact ih hMem
      rw [(of_placeholder? hFound).1]
      exact List.mem_cons_of_mem _
        (List.mem_append_right _
          (List.mem_cons_of_mem _ hAfter))
  | case3 rest hNone ih =>
      rcases List.mem_cons.mp h with hSame | hMem
      · cases hSame
        exact List.mem_cons_self
      · exact List.mem_cons_of_mem _ (ih hMem)
  | case4 d rest hOther ih =>
      rcases List.mem_cons.mp h with hSame | hMem
      · cases hSame
        exact List.mem_cons_self
      · exact List.mem_cons_of_mem _ (ih hMem)

/- A character that values do not bring is a piece. -/
theorem mem_expandPieces_iff
    {c : Char}
    (hc : Text.isComponentChar c = false)
    {pieces : List Piece}
    {text : List Char}
    (h : expandPieces uriVariables pieces = .ok text) :
    c ∈ text ↔ .plain c ∈ pieces := by
  induction pieces generalizing text with
  | nil =>
      cases h
      constructor
      · intro hMem
        cases hMem
      · intro hMem
        cases hMem
  | cons piece rest ih =>
      rw [List.mem_cons]
      cases piece with
      | plain d =>
          rcases Fallible.map_eq_ok h with
            ⟨more, hMore, hText⟩
          rw [← hText, List.mem_cons, ih hMore,
            Piece.plain.injEq]
      | placeholder name =>
          unfold expandPieces at h
          split at h
          · cases h
          · next value hValue =>
              rcases Fallible.map_eq_ok h with
                ⟨more, hMore, hText⟩
              have hNot :
                  c ∉ Text.encodeComponent value.toList := by
                intro hMem
                rw [Text.isComponentChar_of_mem hMem] at hc
                cases hc
              rw [← hText, List.mem_append, ih hMore]
              constructor
              · intro hMem
                exact .inr (hMem.resolve_left hNot)
              · intro hMem
                refine .inr (hMem.resolve_left ?_)
                intro hSame
                cases hSame

end UriTemplate

end ServiceCalls
