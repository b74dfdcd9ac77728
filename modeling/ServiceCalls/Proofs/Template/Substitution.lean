import ServiceCalls.Proofs.Template.Pieces

/-
  Expansion as one substitution.

  The placeholders of a template are the names in braces
  that occur in it, and a template has one way to be taken
  apart into them and other characters.  Each placeholder is
  replaced by its value, whatever the value is, and all else
  stays.

  Key definitions include:
    * `UriTemplate.IsName`
    * `UriTemplate.written`
    * `UriTemplate.Marks`
    * `UriTemplate.AllBound`
    * `UriTemplate.replaced`

  Main declarations:
    * `UriTemplate.marks_iff`
    * `UriTemplate.expandPieces_of_allBound`
    * `UriTemplate.expandPieces_of_unbound`
    * `UriTemplate.expandPieces_congr`
    * `UriTemplate.substitution_of_template`
-/

namespace ServiceCalls

namespace UriTemplate

------------------------------------------------------------
-- Placeholders
------------------------------------------------------------

/- A name that may stand in braces. -/
def IsName (name : List Char) : Prop :=
  name ≠ [] ∧ ∀ c ∈ name, c ≠ '\x7b' ∧ c ≠ '\x7d'

/- A name in braces. -/
def braced (name : List Char) : List Char :=
  '\x7b' :: (name ++ ['\x7d'])

/- A piece as it stands in a template. -/
def Piece.written : Piece → List Char
  | .plain c => [c]
  | .placeholder name => braced name

/- Pieces as they stand in a template. -/
def written (parts : List Piece) : List Char :=
  parts.flatMap Piece.written

/-
  The parts of a text: they are all of it, and placeholders
  are where names stand in braces and nowhere else.
-/
structure Marks (text : List Char) (parts : List Piece) :
    Prop where
  all : written parts = text
  exact : ∀ before name after,
    (∃ front back,
      parts = front ++ .placeholder name :: back ∧
        written front = before ∧ written back = after) ↔
      text = before ++ braced name ++ after ∧ IsName name

theorem isBrace_eq_false_iff (c : Char) :
    isBrace c = false ↔ c ≠ '\x7b' ∧ c ≠ '\x7d' := by
  unfold isBrace
  simp

theorem isName_iff (name : List Char) :
    IsName name ↔
      name ≠ [] ∧ ∀ c ∈ name, isBrace c = false := by
  simp only [IsName, isBrace_eq_false_iff]

theorem written_cons
    (piece : Piece)
    (rest : List Piece) :
    written (piece :: rest) =
      piece.written ++ written rest :=
  List.flatMap_cons

theorem written_append (front back : List Piece) :
    written (front ++ back) =
      written front ++ written back :=
  List.flatMap_append

theorem Piece.written_ne_nil (piece : Piece) :
    piece.written ≠ [] := by
  cases piece <;> exact List.cons_ne_nil _ _

theorem written_eq_nil_iff (parts : List Piece) :
    written parts = [] ↔ parts = [] := by
  cases parts with
  | nil => exact ⟨fun _ => rfl, fun _ => rfl⟩
  | cons piece rest =>
      rw [written_cons, List.append_eq_nil_iff]
      simp [piece.written_ne_nil]

------------------------------------------------------------
-- Pieces of a Text
------------------------------------------------------------

/- No character is lost. -/
theorem written_pieces (text : List Char) :
    written (pieces text) = text := by
  fun_induction pieces text with
  | case1 => rfl
  | case2 rest name after hFound hShorter ih =>
      rw [written_cons, ih, (of_placeholder? hFound).1]
      simp [Piece.written, braced]
  | case3 rest hNone ih =>
      rw [written_cons, ih]
      rfl
  | case4 c rest hOther ih =>
      rw [written_cons, ih]
      rfl

theorem isName_of_mem_pieces
    {text name : List Char}
    (h : .placeholder name ∈ pieces text) :
    IsName name := by
  fun_induction pieces text with
  | case1 => cases h
  | case2 rest found after hFound hShorter ih =>
      rcases List.mem_cons.mp h with hSame | hMem
      · cases hSame
        exact (isName_iff name).mpr
          (of_placeholder? hFound).2
      · exact ih hMem
  | case3 rest hNone ih =>
      rcases List.mem_cons.mp h with hSame | hMem
      · cases hSame
      · exact ih hMem
  | case4 c rest hOther ih =>
      rcases List.mem_cons.mp h with hSame | hMem
      · cases hSame
      · exact ih hMem

theorem opensFirst_braced (name after : List Char) :
    OpensFirst (braced name ++ after) := by
  intro c hHead
  cases hHead
  rfl

theorem pieces_braced
    {name : List Char}
    (h : IsName name)
    (after : List Char) :
    pieces (braced name ++ after) =
      .placeholder name :: pieces after := by
  rcases (isName_iff name).mp h with ⟨hSome, hName⟩
  have hPiece := pieces_placeholder hSome hName after
  simpa [braced] using hPiece

theorem marks_pieces (text : List Char) :
    Marks text (pieces text) := by
  refine ⟨written_pieces text, fun before name after => ?_⟩
  constructor
  · rintro ⟨front, back, hParts, hFront, hBack⟩
    constructor
    · rw [← written_pieces text, hParts, written_append,
        written_cons, hFront, hBack, List.append_assoc]
      rfl
    · have hMem : .placeholder name ∈ pieces text := by
        rw [hParts]
        exact List.mem_append_right _ List.mem_cons_self
      exact isName_of_mem_pieces hMem
  · rintro ⟨hText, hName⟩
    refine ⟨pieces before, pieces after, ?_,
      written_pieces before, written_pieces after⟩
    rw [hText, List.append_assoc,
      pieces_append (opensFirst_braced name after),
      pieces_braced hName]

/- The parts after the first are those of what it leaves. -/
theorem Marks.tail
    {text : List Char}
    {piece : Piece}
    {rest : List Piece}
    (h : Marks text (piece :: rest)) :
    Marks (written rest) rest := by
  refine ⟨rfl, fun before name after => ?_⟩
  have hExact := h.exact (piece.written ++ before) name after
  rw [← h.all, written_cons, List.append_assoc,
    List.append_assoc, List.append_cancel_left_eq,
    ← List.append_assoc] at hExact
  rw [← hExact]
  constructor
  · rintro ⟨front, back, hParts, hFront, hBack⟩
    refine ⟨piece :: front, back, ?_, ?_, hBack⟩
    · rw [hParts]
      rfl
    · rw [written_cons, hFront]
  · rintro ⟨front, back, hParts, hFront, hBack⟩
    cases front with
    | nil =>
        -- Nothing is written before the first part.
        have hNil := List.append_eq_nil_iff.mp hFront.symm
        exact absurd hNil.1 piece.written_ne_nil
    | cons first more =>
        rw [List.cons_append] at hParts
        cases hParts
        rw [written_cons,
          List.append_cancel_left_eq] at hFront
        exact ⟨more, back, rfl, hFront, hBack⟩

/- A text has one way to be taken apart. -/
theorem Marks.eq_pieces
    {text : List Char}
    {parts : List Piece}
    (h : Marks text parts) :
    parts = pieces text := by
  induction parts generalizing text with
  | nil => rw [← h.all, written, List.flatMap_nil, pieces]
  | cons piece rest ih =>
      have hRest := ih h.tail
      rw [← h.all, written_cons]
      cases piece with
      | placeholder name =>
          have hName :=
            ((h.exact [] name (written rest)).mp
              ⟨[], rest, rfl, rfl, rfl⟩).2
          rw [Piece.written, pieces_braced hName, ← hRest]
      | plain c =>
          rw [Piece.written, List.singleton_append, pieces]
          split
          · next hOpen =>
              split
              · next name after hFound =>
                  -- Here the first part would have a name.
                  rcases of_placeholder? hFound with
                    ⟨hSplit, hName⟩
                  have hHere := (h.exact [] name after).mpr
                    ⟨by
                      rw [← h.all, written_cons, hSplit,
                        Piece.written, hOpen]
                      simp [braced],
                      (isName_iff name).mpr hName⟩
                  rcases hHere with
                    ⟨front, back, hParts, hFront, _⟩
                  rw [written_eq_nil_iff] at hFront
                  rw [hFront] at hParts
                  cases hParts
              · rw [← hRest]
          · rw [← hRest]

theorem marks_iff
    (text : List Char)
    (parts : List Piece) :
    Marks text parts ↔ parts = pieces text := by
  constructor
  · exact Marks.eq_pieces
  · intro hParts
    rw [hParts]
    exact marks_pieces text

------------------------------------------------------------
-- Values in Place of Placeholders
------------------------------------------------------------

/- The name that a piece asks a value for. -/
def Piece.name? : Piece → Option String
  | .plain _ => none
  | .placeholder name => some (placeholderName name)

/- The names that need values, in order. -/
def names (parts : List Piece) : List String :=
  parts.filterMap Piece.name?

/- All names of some pieces have a value. -/
def AllBound
    (uriVariables : List (String × String))
    (parts : List Piece) :
    Prop :=
  ∀ name ∈ names parts, (uriVariables.lookup name).isSome

instance
    (uriVariables : List (String × String))
    (parts : List Piece) :
    Decidable (AllBound uriVariables parts) :=
  inferInstanceAs (Decidable
    (∀ name ∈ names parts,
      (uriVariables.lookup name).isSome))

/- A placeholder gives way to its value in encoded form. -/
def replaced
    (uriVariables : List (String × String)) :
    Piece → List Char
  | .plain c => [c]
  | .placeholder name =>
      Text.encodeComponent
        ((uriVariables.lookup
          (placeholderName name)).getD "").toList

theorem names_placeholder
    (name : List Char)
    (rest : List Piece) :
    names (.placeholder name :: rest) =
      placeholderName name :: names rest :=
  rfl

variable {uriVariables : List (String × String)}

theorem AllBound.placeholder
    {name : List Char}
    {rest : List Piece}
    (h : AllBound uriVariables (.placeholder name :: rest)) :
    (∃ value,
      uriVariables.lookup (placeholderName name) =
        some value) ∧
      AllBound uriVariables rest := by
  unfold AllBound at h
  rw [names_placeholder, List.forall_mem_cons,
    Option.isSome_iff_exists] at h
  exact h

theorem expandPieces_of_allBound
    {parts : List Piece}
    (h : AllBound uriVariables parts) :
    expandPieces uriVariables parts =
      .ok (parts.flatMap (replaced uriVariables)) := by
  induction parts with
  | nil => rfl
  | cons piece rest ih =>
      cases piece with
      | plain c =>
          rw [expandPieces, ih h]
          rfl
      | placeholder name =>
          rcases h.placeholder with ⟨⟨value, hValue⟩, hRest⟩
          rw [expandPieces, hValue, ih hRest,
            List.flatMap_cons, replaced, hValue]
          rfl

/- The first placeholder without a value is reported. -/
theorem expandPieces_of_unbound
    {before after : List Piece}
    {name : List Char}
    (hBefore : AllBound uriVariables before)
    (hName :
      uriVariables.lookup (placeholderName name) = none) :
    expandPieces uriVariables
        (before ++ .placeholder name :: after) =
      .error (placeholderName name) := by
  induction before with
  | nil =>
      rw [List.nil_append, expandPieces, hName]
  | cons piece rest ih =>
      rw [List.cons_append]
      cases piece with
      | plain c =>
          rw [expandPieces, ih hBefore]
          rfl
      | placeholder found =>
          rcases hBefore.placeholder with
            ⟨⟨value, hValue⟩, hRest⟩
          rw [expandPieces, hValue, ih hRest]
          rfl

/- Values of other names do not matter. -/
theorem expandPieces_congr
    {others : List (String × String)}
    {parts : List Piece}
    (h : ∀ name ∈ names parts,
      others.lookup name = uriVariables.lookup name) :
    expandPieces others parts =
      expandPieces uriVariables parts := by
  induction parts with
  | nil => rfl
  | cons piece rest ih =>
      cases piece with
      | plain c => rw [expandPieces, expandPieces, ih h]
      | placeholder name =>
          rw [names_placeholder, List.forall_mem_cons] at h
          rw [expandPieces, expandPieces, h.1, ih h.2]

------------------------------------------------------------
-- Expanded Templates
------------------------------------------------------------

/-
  The placeholders of a template are the names in braces
  that occur in it.  The first one without a value is
  reported, whatever the base is and whatever follows.  If
  there is none, the text with all placeholders replaced is
  resolved.  No other values matter.
-/
theorem substitution_of_template
    [DomainNames]
    (template : String) :
    (∀ parts,
      Marks template.toList parts ↔
        parts = pieces template.toList) ∧
    ∀ (base? : Option BaseUrl)
        (uriVariables : List (String × String)),
      (∀ before name after,
        pieces template.toList =
          before ++ .placeholder name :: after →
        AllBound uriVariables before →
        uriVariables.lookup (placeholderName name) = none →
        expand base? template uriVariables =
          .error (.uriTemplate
            ("Not enough variable values available to expand '"
              ++ placeholderName name ++ "' in '"
              ++ template ++ "'"))) ∧
      (AllBound uriVariables (pieces template.toList) →
        expand base? template uriVariables =
          resolve base? (String.ofList
            ((pieces template.toList).flatMap
              (replaced uriVariables)))) ∧
      ∀ others : List (String × String),
        (∀ name ∈ names (pieces template.toList),
          others.lookup name = uriVariables.lookup name) →
        expand base? template others =
          expand base? template uriVariables := by
  refine ⟨marks_iff template.toList,
    fun base? uriVariables => ⟨?_, ?_, ?_⟩⟩
  · intro before name after hPieces hBefore hName
    unfold expand expandText
    rw [hPieces, expandPieces_of_unbound hBefore hName]
    rfl
  · intro hBound
    unfold expand expandText
    rw [expandPieces_of_allBound hBound]
    rfl
  · intro others hSame
    unfold expand expandText
    rw [expandPieces_congr hSame]

/- A template with braces around, in and behind names. -/
def nestedTemplate : String :=
  "\x7b\x7b id \x7d\x7d/\x7ba\x7bb\x7d\x7b\x7d"

/- Values for both of its placeholders, one in braces. -/
def nestedVariables : List (String × String) :=
  [("id", "\x7bb\x7d"), ("b", "x")]

theorem pieces_nestedTemplate :
    pieces nestedTemplate.toList =
      [.plain '\x7b', .placeholder [' ', 'i', 'd', ' '],
        .plain '\x7d', .plain '/', .plain '\x7b',
        .plain 'a'] ++
      .placeholder ['b'] ::
        [.plain '\x7b', .plain '\x7d'] := by
  cbv

open PlainNames

/-
  The value in braces is not taken for a placeholder, other
  values do not matter, and a missing one is reported.
-/
theorem substitution_of_nested :
    expand none nestedTemplate [("id", "1")] =
      .error (.uriTemplate
        ("Not enough variable values available to expand '"
          ++ "b' in '" ++ nestedTemplate ++ "'")) ∧
    expand none nestedTemplate nestedVariables =
      resolve none "\x7b%7Bb%7D\x7d/\x7bax\x7b\x7d" ∧
    expand none nestedTemplate
        (("c", "y") :: nestedVariables) =
      expand none nestedTemplate nestedVariables := by
  have hAll := (substitution_of_template nestedTemplate).2
  refine ⟨?_, ?_, ?_⟩
  · have hMissing := (hAll none [("id", "1")]).1 _ _ _
      pieces_nestedTemplate (by decide) (by decide)
    rw [hMissing]
    rfl
  · have hBound := (hAll none nestedVariables).2.1
    rw [pieces_nestedTemplate] at hBound
    rw [hBound (by decide)]
    rfl
  · apply (hAll none nestedVariables).2.2
    rw [pieces_nestedTemplate]
    decide

end UriTemplate

end ServiceCalls
