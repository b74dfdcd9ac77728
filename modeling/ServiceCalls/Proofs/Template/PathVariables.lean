import Mathlib.Data.List.Forall2
import ServiceCalls.Proofs.Template.Origin
import ServiceCalls.Proofs.Template.Pieces
import ServiceCalls.Proofs.Text.Utf8
import ServiceCalls.Proofs.Url.Below
import ServiceCalls.Proofs.Url.Dots
import ServiceCalls.Proofs.Url.Segments

/-
  Path variables and the segments they are in.

  In a template each of whose segments is a literal or a
  placeholder, a value is one segment of the URL and is read
  back from it, unless it is one or two dots.  Empty values
  at the start are lost where the template joins its base.

  Key definitions include:
    * `PathSegment`
    * `PathSegment.template`
    * `PathSegment.lost`
    * `PathSegment.KeepsSegments`

  Main declarations:
    * `PathSegment.expandText_template`
    * `PathSegment.exists_ahead`
    * `PathSegment.keepsSegments_iff`
-/

namespace ServiceCalls

------------------------------------------------------------
-- Templates of Segments
------------------------------------------------------------

/- A segment of a template. -/
inductive PathSegment where
| literal
    (text : List Char)
| placeholder
    (name : List Char)
deriving DecidableEq, Repr

namespace PathSegment

/- Letters, digits, hyphen, period, underscore and tilde. -/
def isUnreserved (c : Char) : Bool :=
  c.isAlphanum || c == '-' || c == '.' || c == '_' ||
    c == '~'

/-
  A literal is not empty and not made of dots; a placeholder
  has a name.
-/
def WellFormed : PathSegment → Prop
  | .literal text =>
      text ≠ [] ∧ (∀ c ∈ text, isUnreserved c = true) ∧
        text ≠ ['.'] ∧ text ≠ ['.', '.']
  | .placeholder name =>
      name ≠ [] ∧
        ∀ c ∈ name, UriTemplate.isBrace c = false

/- A segment as it is written in a template. -/
def render : PathSegment → List Char
  | .literal text => text
  | .placeholder name => '\x7b' :: (name ++ ['\x7d'])

/- The template of some segments. -/
def template (segments : List PathSegment) : String :=
  String.ofList
    (segments.flatMap fun segment => '/' :: segment.render)

variable (uriVariables : List (String × String))

/- The value that a segment stands for. -/
def value? : PathSegment → Option String
  | .literal text => some (String.ofList text)
  | .placeholder name =>
      uriVariables.lookup (UriTemplate.placeholderName name)

/- What is written for a segment. -/
def written (segment : PathSegment) : List Char :=
  Text.encodeComponent
    ((segment.value? uriVariables).getD "").toList

/- The text of the segments of a path. -/
def joinSegments : List (List Char) → List Char
  | [] => []
  | [last] => last
  | segment :: rest => segment ++ '/' :: joinSegments rest

/- How many segments are lost before one that is kept. -/
def lost : List (List Char) → Nat
  | [] :: next :: rest => lost (next :: rest) + 1
  | _ => 0

------------------------------------------------------------
-- Expanded Segments
------------------------------------------------------------

/- An unreserved character is written as it is. -/
theorem percentEncode_of_isUnreserved
    {c : Char}
    (h : isUnreserved c = true) :
    Text.percentEncode Text.isUnreserved
        (String.utf8EncodeChar c) = [c] := by
  have hComponent : Text.isComponentChar c = true := by
    unfold isUnreserved at h
    unfold Text.isComponentChar
    rw [h, Bool.true_or]
  have hCodes :
      ∀ n < 128, isUnreserved (Char.ofNat n) = true →
        Text.percentEncode Text.isUnreserved
            (String.utf8EncodeChar (Char.ofNat n)) =
          [Char.ofNat n] := by
    decide +kernel
  have hCode := hCodes c.toNat
    (Text.lt_of_isComponentChar hComponent)
  rw [Char.ofNat_toNat] at hCode
  exact hCode h

theorem encodeComponent_of_isUnreserved
    {text : List Char}
    (h : ∀ c ∈ text, isUnreserved c = true) :
    Text.encodeComponent text = text := by
  induction text with
  | nil => rfl
  | cons c rest ih =>
      have hFirst := percentEncode_of_isUnreserved
        (h c List.mem_cons_self)
      have hRest := ih fun d hd =>
        h d (List.mem_cons_of_mem _ hd)
      unfold Text.percentEncode at hFirst
      unfold Text.encodeComponent Text.percentEncode
        at hRest ⊢
      rw [Text.encodeChars_cons, List.flatMap_append,
        hFirst, hRest]
      rfl

variable {uriVariables}

theorem written_literal
    {text : List Char}
    (h : ∀ c ∈ text, isUnreserved c = true) :
    written uriVariables (.literal text) = text := by
  unfold written value?
  rw [Option.getD_some, String.toList_ofList,
    encodeComponent_of_isUnreserved h]

/- A segment stands for a slash and what is written. -/
theorem expand_segment
    {segment : PathSegment}
    (hForm : segment.WellFormed)
    (hBound : segment.value? uriVariables ≠ none) :
    ∃ pieces,
      (∀ rest,
        UriTemplate.pieces ('/' :: segment.render ++ rest) =
          pieces ++ UriTemplate.pieces rest) ∧
      UriTemplate.expandPieces uriVariables pieces =
        .ok ('/' :: segment.written uriVariables) := by
  cases segment with
  | literal text =>
      have hPlain : ∀ c ∈ '/' :: text, c ≠ '\x7b' := by
        intro c hMem
        rcases List.mem_cons.mp hMem with hSlash | hText
        · subst hSlash
          decide
        · have hChar := hForm.2.1 c hText
          intro hBrace
          subst hBrace
          exact absurd hChar (by decide)
      rw [written_literal hForm.2.1]
      refine ⟨('/' :: text).map UriTemplate.Piece.plain,
        ?_, UriTemplate.expandPieces_plain _⟩
      intro rest
      exact UriTemplate.pieces_plain hPlain rest
  | placeholder name =>
      cases hValue :
          value? uriVariables (.placeholder name) with
      | none => exact absurd hValue hBound
      | some value =>
          have hSlash :
              UriTemplate.expandPieces uriVariables
                  [.plain '/'] = .ok ['/'] :=
            UriTemplate.expandPieces_plain ['/']
          have hBoth := UriTemplate.expandPieces_append
            hSlash
            (UriTemplate.expandPieces_placeholder hValue)
          refine ⟨[.plain '/'] ++ [.placeholder name],
            ?_, ?_⟩
          · intro rest
            rw [List.cons_append,
              UriTemplate.pieces_cons (by decide), render,
              List.cons_append, List.append_assoc]
            apply congrArg
            exact UriTemplate.pieces_placeholder hForm.1
              hForm.2 rest
          · unfold written
            rw [hValue]
            exact hBoth

/- The text that a template of segments stands for. -/
theorem expandText_template
    {segments : List PathSegment}
    (hForm : ∀ segment ∈ segments, segment.WellFormed)
    (hBound : ∀ segment ∈ segments,
      segment.value? uriVariables ≠ none) :
    UriTemplate.expandText (template segments)
        uriVariables =
      .ok (String.ofList (segments.flatMap fun segment =>
        '/' :: segment.written uriVariables)) := by
  have hPieces :
      UriTemplate.expandPieces uriVariables
          (UriTemplate.pieces (segments.flatMap
            fun segment => '/' :: segment.render)) =
        .ok (segments.flatMap fun segment =>
          '/' :: segment.written uriVariables) := by
    induction segments with
    | nil =>
        rw [List.flatMap_nil, UriTemplate.pieces]
        rfl
    | cons first rest ih =>
        rcases expand_segment
            (hForm first List.mem_cons_self)
            (hBound first List.mem_cons_self) with
          ⟨pieces, hSplit, hFirst⟩
        have hRest := ih
          (fun segment hMem =>
            hForm segment (List.mem_cons_of_mem _ hMem))
          (fun segment hMem =>
            hBound segment (List.mem_cons_of_mem _ hMem))
        rw [List.flatMap_cons, List.flatMap_cons, hSplit]
        exact UriTemplate.expandPieces_append hFirst hRest
  unfold UriTemplate.expandText template
  rw [String.toList_ofList, hPieces]

------------------------------------------------------------
-- Joined Segments
------------------------------------------------------------

/- A text that can be written for a segment. -/
def Plain (text : List Char) : Prop :=
  ∀ c ∈ text, Text.isComponentChar c = true

theorem plain_written (segment : PathSegment) :
    Plain (segment.written uriVariables) :=
  fun _ hMem => Text.isComponentChar_of_mem hMem

theorem Plain.not_isSlash
    {text : List Char}
    (h : Plain text)
    (special : Bool) :
    ∀ c ∈ text, Url.isSlash special c = false := by
  intro c hMem
  have hNot := Text.of_isComponentChar
    (p := fun c => !Url.isSlash special c)
    (by cases special <;> decide +kernel) (h c hMem)
  rw [Bool.not_eq_true'] at hNot
  exact hNot

theorem joinSegments_cons
    (text : List Char)
    {rest : List (List Char)}
    (h : rest ≠ []) :
    joinSegments (text :: rest) =
      text ++ '/' :: joinSegments rest := by
  cases rest with
  | nil => exact absurd rfl h
  | cons next more => rfl

/- Texts after slashes are a slash and the joined texts. -/
theorem flatMap_slash
    {texts : List (List Char)}
    (h : texts ≠ []) :
    texts.flatMap ('/' :: ·) =
      '/' :: joinSegments texts := by
  induction texts with
  | nil => exact absurd rfl h
  | cons text rest ih =>
      cases rest with
      | nil =>
          rw [List.flatMap_cons, List.flatMap_nil,
            List.append_nil]
          rfl
      | cons next more =>
          have hSome : next :: more ≠ [] :=
            List.cons_ne_nil _ _
          rw [List.flatMap_cons, ih hSome,
            joinSegments_cons _ hSome]
          rfl

theorem splitBy_joinSegments
    (special : Bool)
    {texts : List (List Char)}
    (hSome : texts ≠ [])
    (hPlain : ∀ text ∈ texts, Plain text) :
    Text.splitBy (Url.isSlash special)
        (joinSegments texts) = texts := by
  induction texts with
  | nil => exact absurd rfl hSome
  | cons text rest ih =>
      have hText := Text.splitBy_of_none
        ((hPlain text List.mem_cons_self).not_isSlash
          special)
      by_cases hRest : rest = []
      · subst hRest
        exact hText
      · rw [joinSegments_cons _ hRest,
          Text.splitBy_append rfl, hText,
          ih hRest fun other hOther =>
            hPlain other (List.mem_cons_of_mem _ hOther)]
        rfl

theorem clear_joinSegments
    {texts : List (List Char)}
    (hPlain : ∀ text ∈ texts, Plain text) :
    Url.Clear (joinSegments texts) := by
  induction texts with
  | nil =>
      intro c hMem
      cases hMem
  | cons text rest ih =>
      have hText := hPlain text List.mem_cons_self
      by_cases hRest : rest = []
      · subst hRest
        exact fun c hMem =>
          Url.clear_of_isComponentChar (hText c hMem)
      · have hOthers := ih fun other hOther =>
          hPlain other (List.mem_cons_of_mem _ hOther)
        rw [joinSegments_cons _ hRest]
        intro c hMem
        rcases List.mem_append.mp hMem with hFirst | hMore
        · exact Url.clear_of_isComponentChar
            (hText c hFirst)
        · rcases List.mem_cons.mp hMore with hSlash | hMore
          · subst hSlash
            decide
          · exact hOthers c hMore

------------------------------------------------------------
-- Lost Segments
------------------------------------------------------------

/- What is lost is empty. -/
theorem take_lost (texts : List (List Char)) :
    texts.take (lost texts) =
      List.replicate (lost texts) [] := by
  fun_induction lost texts with
  | case1 next rest ih =>
      rw [List.take_succ_cons, List.replicate_succ, ih]
  | case2 texts hOther => rfl

theorem lost_le_length (texts : List (List Char)) :
    lost texts ≤ texts.length := by
  have hTake := congrArg List.length (take_lost texts)
  rw [List.length_take, List.length_replicate] at hTake
  omega

/- Something is left of some segments. -/
theorem drop_lost_ne_nil
    {texts : List (List Char)}
    (h : texts ≠ []) :
    texts.drop (lost texts) ≠ [] := by
  fun_induction lost texts with
  | case1 next rest ih =>
      rw [List.drop_succ_cons]
      exact ih (List.cons_ne_nil _ _)
  | case2 texts hOther => exact h

/- The segments that are left when slashes are dropped. -/
theorem dropWhile_joinSegments
    {texts : List (List Char)}
    (hPlain : ∀ text ∈ texts, Plain text) :
    (joinSegments texts).dropWhile (· == '/') =
        joinSegments (texts.drop (lost texts)) ∧
      Text.Stops (Url.isSlash true)
        (joinSegments (texts.drop (lost texts))) := by
  fun_induction lost texts with
  | case1 next rest ih =>
      have hRest := ih fun text hMem =>
        hPlain text (List.mem_cons_of_mem _ hMem)
      rw [List.drop_succ_cons]
      exact hRest
  | case2 texts hOther =>
      have hStops :
          Text.Stops (Url.isSlash true)
            (joinSegments texts) := by
        match texts with
        | [] => exact Text.stops_nil
        | [] :: next :: rest =>
            exact absurd rfl (hOther next rest)
        | [[]] => exact Text.stops_nil
        | [c :: more] =>
            have hFirst := hPlain _ List.mem_cons_self
            exact Text.stops_cons (hFirst.not_isSlash true c
              List.mem_cons_self) _
        | (c :: more) :: next :: rest =>
            have hFirst := hPlain _ List.mem_cons_self
            exact Text.stops_cons (hFirst.not_isSlash true c
              List.mem_cons_self) _
      have hSlash :
          Text.Stops (· == '/') (joinSegments texts) := by
        intro c hHead
        have hNot := hStops c hHead
        unfold Url.isSlash at hNot
        rw [Bool.or_eq_false_iff] at hNot
        exact hNot.1
      exact ⟨Text.dropWhile_stops hSlash, hStops⟩

------------------------------------------------------------
-- Names of Segments
------------------------------------------------------------

/- A text that keeps its form is its own name. -/
theorem escape_of_plain
    {text : List Char}
    (h : Plain text) :
    Url.escape Url.escapedInPath text =
      String.ofList text := by
  have hNone :
      ∀ c ∈ text,
        (Url.escapedInPath c || decide (0x80 ≤ c.toNat)) =
          false := by
    intro c hMem
    have hNot := Text.of_isComponentChar
      (p := fun c =>
        !(Url.escapedInPath c || decide (0x80 ≤ c.toNat)))
      (by decide +kernel) (h c hMem)
    rw [Bool.not_eq_true'] at hNot
    exact hNot
  unfold Url.escape
  rw [Text.escapeChars_eq_self hNone]

theorem segmentNames_joinSegments
    (special : Bool)
    {texts : List (List Char)}
    (hSome : texts ≠ [])
    (hPlain : ∀ text ∈ texts, Plain text) :
    Url.segmentNames special (joinSegments texts) =
      texts.map String.ofList := by
  unfold Url.segmentNames
  rw [splitBy_joinSegments special hSome hPlain]
  apply List.map_congr_left
  intro text hMem
  exact escape_of_plain (hPlain text hMem)

/- The value is read back from what is written for it. -/
theorem percentDecode_written
    {segment : PathSegment}
    {value : String}
    (h : segment.value? uriVariables = some value) :
    Text.percentDecode
        (Text.encodeChars (segment.written uriVariables)) =
      Text.encode value := by
  have hRead := Text.percentDecode_encodeComponent
    value.toList []
  rw [List.append_nil] at hRead
  unfold written
  rw [h, Option.getD_some, hRead]
  exact List.append_nil _

/- A value that is read as dots. -/
def Moves
    (uriVariables : List (String × String))
    (segment : PathSegment) :
    Prop :=
  segment.value? uriVariables = some "." ∨
    segment.value? uriVariables = some ".."

/- What is written for other values stays in place. -/
theorem settled_written
    {segment : PathSegment}
    (hBound : segment.value? uriVariables ≠ none)
    (hStays : ¬segment.Moves uriVariables) :
    Url.Settled (segment.written uriVariables) := by
  rcases Option.ne_none_iff_exists'.mp hBound with
    ⟨value, hValue⟩
  have hDots :
      ¬Url.IsDots (Text.percentDecode (Text.encodeChars
        (segment.written uriVariables))) := by
    rw [percentDecode_written hValue]
    intro hDots
    rcases hDots with hOne | hTwo
    · have hDot : Text.encode value = Text.encode "." :=
        hOne
      rw [Text.encode_injective hDot] at hValue
      exact hStays (.inl hValue)
    · have hDot : Text.encode value = Text.encode ".." :=
        hTwo
      rw [Text.encode_injective hDot] at hValue
      exact hStays (.inr hValue)
  rw [Url.isDots_percentDecode_iff, not_or,
    Bool.not_eq_true, Bool.not_eq_true] at hDots
  refine ⟨hDots.1, hDots.2, ?_⟩
  unfold Url.isDriveLetter
  split
  · next letter mark hText =>
      have hMark : mark ∈ segment.written uriVariables := by
        rw [hText]
        simp
      have hNot := Text.of_isComponentChar
        (p := fun c => !(c == ':' || c == '|'))
        (by decide +kernel)
        (plain_written segment mark hMark)
      rw [Bool.not_eq_true'] at hNot
      rw [hNot, Bool.and_false]
  · rfl

------------------------------------------------------------
-- Texts Below a Base
------------------------------------------------------------

section

variable [DomainNames]

/- A text that starts with a slash is no URL. -/
theorem parse_of_slash (rest : List Char) :
    Url.parse (String.ofList ('/' :: rest)) =
      .error .relativeWithoutBase := by
  unfold Url.parse Url.parseChars
  rw [String.toList_ofList]
  cases hScheme :
      Url.splitScheme (Url.clean ('/' :: rest)) with
  | none => rfl
  | some parts =>
      rcases Url.exists_colon_of_splitScheme hScheme with
        ⟨front, back, hSplit, hFront⟩
      cases front with
      | nil =>
          have hColon := (List.cons.inj hSplit).1
          exact absurd hColon (by decide)
      | cons c more =>
          have hSlash := (List.cons.inj hSplit).1
          have hLeads := hFront c List.mem_cons_self
          rw [← hSlash] at hLeads
          exact absurd hLeads (by decide)

theorem resolve_slash
    (base : BaseUrl)
    (rest : List Char) :
    ∃ refused,
      UriTemplate.resolve (some base)
          (String.ofList ('/' :: rest)) =
        (Url.parseChars (Url.trimSlashes base.text.toList ++
          '/' :: rest.dropWhile (· == '/'))).mapError
            refused := by
  unfold UriTemplate.resolve UriTemplate.resolveUnder
  rw [parse_of_slash]
  dsimp only
  rw [String.toList_ofList,
    Url.joinUrl_below base.text_ne_nil]
  unfold Url.parse
  rw [String.toList_ofList]
  exact ⟨_, rfl⟩

/- A text behind a slash is read below the base. -/
theorem resolve_slash_iff
    {text : List Char}
    (h : Text.Stops (· == '/') text)
    (base : BaseUrl)
    (url : Url) :
    UriTemplate.resolve (some base)
        (String.ofList ('/' :: text)) = .ok url ↔
      Url.parseChars
        (Url.trimSlashes base.text.toList ++ '/' :: text) =
          .ok url := by
  rcases resolve_slash base text with ⟨refused, hResolve⟩
  rw [hResolve, Text.dropWhile_stops h]
  constructor
  · exact Fallible.mapError_eq_ok
  · intro hUrl
    rw [hUrl]
    rfl

/- Where a text leads that follows a slash below a base. -/
theorem exists_resolve_iff
    {base : BaseUrl}
    {scheme : String}
    {outcome : Except UrlError (List Char)}
    (hReads :
      Url.ReadsBelow scheme base.text.toList outcome)
    {rest : List Char}
    (hClear : Url.Clear (rest.dropWhile (· == '/')))
    (path : Url.Path) :
    (∃ url,
        UriTemplate.resolve (some base)
            (String.ofList ('/' :: rest)) = .ok url ∧
          url.path = path) ↔
      ∃ front,
        outcome = .ok front ∧
          path = .segments
            (Url.parsePath (Url.isSpecial scheme)
              (scheme == "file")
              (front ++
                '/' :: rest.dropWhile (· == '/'))) := by
  have hPath := hReads _ hClear
  rcases resolve_slash base rest with ⟨refused, hResolve⟩
  rw [hResolve]
  constructor
  · rintro ⟨url, hUrl, hSame⟩
    rw [Fallible.mapError_eq_ok hUrl] at hPath
    rcases Fallible.map_eq_ok hPath.symm with
      ⟨front, hFront, hNames⟩
    refine ⟨front, hFront, ?_⟩
    rw [← hSame, hNames]
  · rintro ⟨front, hFront, hNames⟩
    rw [hFront] at hPath
    rcases Fallible.map_eq_ok hPath with ⟨url, hUrl, hSame⟩
    refine ⟨url, ?_, hSame.trans hNames.symm⟩
    rw [hUrl]
    rfl

end

------------------------------------------------------------
-- Kept Segments
------------------------------------------------------------

/- The names of a path without the last empty ones. -/
def keptNames (path : Url.Path) : List String :=
  match path with
  | .segments names =>
      Text.dropWhileEnd (·.isEmpty) names
  | .verbatim _ => []

/- A literal is unchanged, and a value is read back. -/
def Keeps
    (uriVariables : List (String × String))
    (segment : PathSegment)
    (name : String) :
    Prop :=
  match segment with
  | .literal text => name = String.ofList text
  | .placeholder other =>
      ∃ value,
        value? uriVariables (.placeholder other) =
            some value ∧
          Text.percentDecode (Text.encode name) =
            Text.encode value

/-
  A path is that of the base without the last empty names,
  and one name for each segment.
-/
def KeepsSegments
    (uriVariables : List (String × String))
    (home : Url)
    (segments : List PathSegment)
    (path : Url.Path) :
    Prop :=
  ∃ names,
    path = .segments (keptNames home.path ++ names) ∧
      List.Forall₂ (Keeps uriVariables) segments names

theorem keeps_written
    {segment : PathSegment}
    (hForm : segment.WellFormed)
    (hBound : segment.value? uriVariables ≠ none) :
    Keeps uriVariables segment
      (String.ofList (segment.written uriVariables)) := by
  cases segment with
  | literal text =>
      unfold Keeps
      rw [written_literal hForm.2.1]
  | placeholder name =>
      cases hValue :
          value? uriVariables (.placeholder name) with
      | none => exact absurd hValue hBound
      | some value =>
          refine ⟨value, hValue, ?_⟩
          unfold Text.encode
          rw [String.toList_ofList]
          exact percentDecode_written hValue

/- A literal is not made of dots. -/
theorem not_moves_literal
    {text : List Char}
    (h : (literal text).WellFormed) :
    ¬(literal text).Moves uriVariables := by
  rcases h with ⟨_, _, hOne, hTwo⟩
  have hText (dots : String)
      (hSame :
        value? uriVariables (.literal text) = some dots) :
      text = dots.toList := by
    rw [← Option.some.inj hSame, String.toList_ofList]
  rintro (hDot | hDots)
  · exact hOne (hText _ hDot)
  · exact hTwo (hText _ hDots)

/- What moves is a placeholder, and is not kept. -/
theorem not_moves_of_keeps
    {segment : PathSegment}
    (hForm : segment.WellFormed)
    {name : String}
    (hKeeps : Keeps uriVariables segment name)
    (hName :
      ¬Url.IsDots
        (Text.percentDecode (Text.encode name))) :
    ¬segment.Moves uriVariables := by
  intro hMoves
  cases segment with
  | literal text => exact not_moves_literal hForm hMoves
  | placeholder other =>
      rcases hKeeps with ⟨value, hValue, hDecode⟩
      rw [hDecode] at hName
      apply hName
      rcases hMoves with hOne | hTwo
      · rw [Option.some.inj (hValue.symm.trans hOne)]
        exact .inl rfl
      · rw [Option.some.inj (hValue.symm.trans hTwo)]
        exact .inr rfl

theorem exists_name_of_mem
    {segments : List PathSegment}
    {names : List String}
    (h : List.Forall₂ (Keeps uriVariables) segments names)
    {segment : PathSegment}
    (hMem : segment ∈ segments) :
    ∃ name ∈ names, Keeps uriVariables segment name := by
  induction h with
  | nil => cases hMem
  | cons hKeeps _ ih =>
      rcases List.mem_cons.mp hMem with hFirst | hRest
      · subst hFirst
        exact ⟨_, List.mem_cons_self, hKeeps⟩
      · rcases ih hRest with ⟨name, hName, hKeeps⟩
        exact ⟨name, List.mem_cons_of_mem _ hName, hKeeps⟩

/- A name that is kept for nothing is empty. -/
theorem name_eq_empty
    {segment : PathSegment}
    (hForm : segment.WellFormed)
    {name : String}
    (hKeeps : Keeps uriVariables segment name)
    (hNone : segment.written uriVariables = []) :
    name = "" := by
  cases segment with
  | literal text =>
      rw [written_literal hForm.2.1] at hNone
      exact absurd hNone hForm.1
  | placeholder other =>
      rcases hKeeps with ⟨value, hValue, hDecode⟩
      have hRead := percentDecode_written hValue
      rw [hNone] at hRead
      rw [← hRead] at hDecode
      have hOctets : Text.encodeChars name.toList = [] :=
        Url.eq_nil_of_percentDecode hDecode
      exact String.toList_eq_nil_iff.mp
        (Text.encodeChars_eq_nil hOctets)

theorem names_eq_replicate
    {segments : List PathSegment}
    {names : List String}
    (hKeeps :
      List.Forall₂ (Keeps uriVariables) segments names)
    (hForm : ∀ segment ∈ segments, segment.WellFormed)
    (hNone : ∀ segment ∈ segments,
      segment.written uriVariables = []) :
    names = List.replicate segments.length "" := by
  induction hKeeps with
  | nil => rfl
  | cons hFirst _ ih =>
      rw [ih
          (fun other hMem =>
            hForm other (List.mem_cons_of_mem _ hMem))
          (fun other hMem =>
            hNone other (List.mem_cons_of_mem _ hMem)),
        name_eq_empty (hForm _ List.mem_cons_self) hFirst
          (hNone _ List.mem_cons_self)]
      rfl

theorem map_ofList (texts : List (List Char)) :
    texts.map String.ofList =
      List.replicate (lost texts) "" ++
        (texts.drop (lost texts)).map String.ofList := by
  have hSplit := congrArg (List.map String.ofList)
    (List.take_append_drop (lost texts) texts)
  rw [List.map_append, take_lost, List.map_replicate]
    at hSplit
  exact hSplit.symm

/- Segments are kept behind what the base and they lose. -/
theorem keepsSegments_append_iff
    {segments : List PathSegment}
    (hForm : ∀ segment ∈ segments, segment.WellFormed)
    (hBound : ∀ segment ∈ segments,
      segment.value? uriVariables ≠ none)
    (home : Url)
    (before : List String)
    {texts : List (List Char)}
    (hTexts : texts = segments.map (written uriVariables)) :
    KeepsSegments uriVariables home segments
        (.segments (before ++
          (texts.drop (lost texts)).map String.ofList)) ↔
      before =
        keptNames home.path ++
          List.replicate (lost texts) "" := by
  have hLength : texts.length = segments.length := by
    rw [hTexts, List.length_map]
  constructor
  · rintro ⟨names, hPath, hKeeps⟩
    have hNames := hKeeps.length_eq
    -- What is lost are the first names, and they are empty.
    have hNone :
        ∀ segment ∈ segments.take (lost texts),
          segment.written uriVariables = [] := by
      intro segment hMem
      have hWritten :=
        List.mem_map_of_mem (f := written uriVariables) hMem
      rw [List.map_take, ← hTexts, take_lost] at hWritten
      exact List.eq_of_mem_replicate hWritten
    have hTake := names_eq_replicate
      (List.forall₂_take (lost texts) hKeeps)
      (fun segment hMem =>
        hForm segment (List.mem_of_mem_take hMem)) hNone
    have hLost := lost_le_length texts
    rw [List.length_take, Nat.min_eq_left (by omega)]
      at hTake
    have hSame := Url.Path.segments.inj hPath
    rw [← List.take_append_drop (lost texts) names, hTake,
      ← List.append_assoc] at hSame
    exact (List.append_inj' hSame (by
      simp only [List.length_map, List.length_drop]
      omega)).1
  · intro hBefore
    refine ⟨texts.map String.ofList, ?_, ?_⟩
    · rw [hBefore, List.append_assoc, ← map_ofList]
    · rw [hTexts, List.map_map, List.forall₂_map_right_iff,
        List.forall₂_same]
      intro segment hMem
      exact keeps_written (hForm segment hMem)
        (hBound segment hMem)

------------------------------------------------------------
-- Expanded Templates
------------------------------------------------------------

theorem expand_template
    [DomainNames]
    {segments : List PathSegment}
    (hSome : segments ≠ [])
    (hForm : ∀ segment ∈ segments, segment.WellFormed)
    (hBound : ∀ segment ∈ segments,
      segment.value? uriVariables ≠ none)
    (base? : Option BaseUrl) :
    UriTemplate.expand base? (template segments)
        uriVariables =
      UriTemplate.resolve base? (String.ofList
        ('/' :: joinSegments
          (segments.map (written uriVariables)))) := by
  have hText := expandText_template hForm hBound
  have hTexts : segments.map (written uriVariables) ≠ [] :=
    fun hNone => hSome (List.map_eq_nil_iff.mp hNone)
  have hJoined := flatMap_slash hTexts
  rw [List.flatMap_map] at hJoined
  unfold UriTemplate.expand
  rw [hText, hJoined]
  rfl

/- Nothing that is written and left changes a path. -/
theorem trails_left
    {texts : List (List Char)}
    (hSome : texts ≠ [])
    (hPlain : ∀ text ∈ texts, Plain text)
    (hSettled : ∀ text ∈ texts, Url.Settled text)
    (special : Bool) :
    Url.Trails special
      (joinSegments (texts.drop (lost texts))) := by
  have hStops := (dropWhile_joinSegments hPlain).2
  constructor
  · rw [splitBy_joinSegments _ (drop_lost_ne_nil hSome)
      fun text hMem =>
        hPlain text (List.mem_of_mem_drop hMem)]
    intro text hMem
    exact hSettled text (List.mem_of_mem_drop hMem)
  · intro c hHead
    have hNot := hStops c hHead
    unfold Url.isSlash at hNot ⊢
    rw [Bool.or_eq_false_iff] at hNot ⊢
    rw [Bool.true_and] at hNot
    refine ⟨hNot.1, ?_⟩
    rw [hNot.2, Bool.and_false]

/-
  Where settled texts and a slash lead below a base: to
  names behind the same ones, or both nowhere.
-/
theorem exists_ahead
    [DomainNames]
    {base : BaseUrl}
    {scheme : String}
    {outcome : Except UrlError (List Char)}
    (hReads :
      Url.ReadsBelow scheme base.text.toList outcome)
    {texts : List (List Char)}
    (hSome : texts ≠ [])
    (hPlain : ∀ text ∈ texts, Plain text)
    (hSettled : ∀ text ∈ texts, Url.Settled text) :
    ∃ ahead : Option (List String),
      (∀ path,
        (∃ url,
            UriTemplate.resolve (some base) (String.ofList
                ('/' :: joinSegments texts)) = .ok url ∧
              url.path = path) ↔
          ∃ before,
            ahead = some before ∧
              path = .segments (before ++
                (texts.drop (lost texts)).map
                  String.ofList)) ∧
      ∀ path,
        (∃ dir,
            UriTemplate.resolve (some base)
                (String.ofList ['/']) = .ok dir ∧
              dir.path = path) ↔
          ∃ before,
            ahead = some before ∧
              path = .segments (before ++ [""]) := by
  have hLeft :
      ∀ text ∈ texts.drop (lost texts), Plain text :=
    fun text hMem => hPlain text (List.mem_of_mem_drop hMem)
  have hDrop := (dropWhile_joinSegments hPlain).1
  have hTrails := trails_left hSome hPlain hSettled
    (Url.isSpecial scheme)
  have hNames := segmentNames_joinSegments
    (Url.isSpecial scheme) (drop_lost_ne_nil hSome) hLeft
  have hClear : Url.Clear
      ((joinSegments texts).dropWhile (· == '/')) := by
    rw [hDrop]
    exact clear_joinSegments hLeft
  have hUrl := exists_resolve_iff hReads hClear
  rw [hDrop] at hUrl
  have hNone : Url.Clear (([] : List Char).dropWhile
      (· == '/')) := by
    intro c hMem
    cases hMem
  have hDir := exists_resolve_iff hReads hNone
  cases outcome with
  | error error =>
      refine ⟨none, ?_, ?_⟩
      · intro path
        rw [hUrl]
        simp
      · intro path
        rw [hDir]
        simp
  | ok front =>
      rcases Url.exists_parsePath (Url.isSpecial scheme)
        (scheme == "file") front with ⟨before, hBefore⟩
      have hSlash := hBefore [] (Url.trails_nil _)
      refine ⟨some before, ?_, ?_⟩
      · intro path
        rw [hUrl]
        simp [hBefore _ hTrails, hNames]
      · intro path
        rw [hDir]
        simp only [Except.ok.injEq, exists_eq_left',
          Option.some.injEq, List.dropWhile_nil, hSlash]
        rfl

/- No segment below a base is read as dots. -/
theorem noDots_of_resolve
    [DomainNames]
    {base : BaseUrl}
    {scheme : String}
    {outcome : Except UrlError (List Char)}
    (hReads :
      Url.ReadsBelow scheme base.text.toList outcome)
    {rest : List Char}
    (hClear : Url.Clear (rest.dropWhile (· == '/')))
    {url : Url}
    (hUrl :
      UriTemplate.resolve (some base)
        (String.ofList ('/' :: rest)) = .ok url)
    {names : List String}
    (hNames : url.path = .segments names) :
    Url.NoDots names := by
  rcases (exists_resolve_iff hReads hClear _).mp
    ⟨url, hUrl, hNames⟩ with ⟨front, _, hPath⟩
  rw [Url.Path.segments.inj hPath]
  exact Url.noDots_parsePath _ _ _

theorem plain_of_mem_written
    {segments : List PathSegment}
    {text : List Char}
    (h : text ∈ segments.map (written uriVariables)) :
    Plain text := by
  rcases List.mem_map.mp h with ⟨segment, _, hText⟩
  rw [← hText]
  exact plain_written segment

theorem settled_of_mem_written
    {segments : List PathSegment}
    (hBound : ∀ segment ∈ segments,
      segment.value? uriVariables ≠ none)
    (hStays : ∀ segment ∈ segments,
      ¬segment.Moves uriVariables)
    {text : List Char}
    (h : text ∈ segments.map (written uriVariables)) :
    Url.Settled text := by
  rcases List.mem_map.mp h with ⟨segment, hSegment, hText⟩
  rw [← hText]
  exact settled_written (hBound segment hSegment)
    (hStays segment hSegment)

/- A value of dots is not kept by any path below a base. -/
theorem not_moves_of_resolve
    [DomainNames]
    {base : BaseUrl}
    {scheme : String}
    {outcome : Except UrlError (List Char)}
    (hReads :
      Url.ReadsBelow scheme base.text.toList outcome)
    {segments : List PathSegment}
    (hForm : ∀ segment ∈ segments, segment.WellFormed)
    {url home : Url}
    (hUrl :
      UriTemplate.resolve (some base) (String.ofList
        ('/' :: joinSegments
          (segments.map (written uriVariables)))) = .ok url)
    (hKeeps :
      KeepsSegments uriVariables home segments url.path) :
    ∀ segment ∈ segments, ¬segment.Moves uriVariables := by
  intro segment hSegment
  rcases hKeeps with ⟨names, hPath, hNames⟩
  rcases exists_name_of_mem hNames hSegment with
    ⟨name, hName, hKept⟩
  have hPlain :
      ∀ text ∈ segments.map (written uriVariables),
        Plain text :=
    fun _ hMem => plain_of_mem_written hMem
  have hClear : Url.Clear
      ((joinSegments (segments.map
        (written uriVariables))).dropWhile (· == '/')) := by
    rw [(dropWhile_joinSegments hPlain).1]
    exact clear_joinSegments fun text hMem =>
      hPlain text (List.mem_of_mem_drop hMem)
  have hDots := noDots_of_resolve hReads hClear hUrl hPath
  exact not_moves_of_keeps (hForm segment hSegment) hKept
    (hDots name (List.mem_append_right _ hName))

/-
  Every segment is kept exactly if no value is one or two
  dots, and the text of the base with a slash at its end is
  a URL with the path of the base, an empty name for each
  segment that is lost, and one more.
-/
theorem keepsSegments_iff
    [DomainNames]
    {base : BaseUrl}
    {home : Url}
    (hBase : Url.parse base.text = .ok home)
    (hHost : home.hasHost = true)
    (hQuery : home.query = none)
    (hFragment : home.fragment = none)
    {segments : List PathSegment}
    (hSome : segments ≠ [])
    (hForm : ∀ segment ∈ segments, segment.WellFormed)
    (hBound : ∀ segment ∈ segments,
      segment.value? uriVariables ≠ none) :
    (∃ url,
        UriTemplate.expand (some base) (template segments)
            uriVariables = .ok url ∧
          KeepsSegments uriVariables home segments
            url.path) ↔
      (∀ segment ∈ segments,
          ¬segment.Moves uriVariables) ∧
        ∃ dir,
          Url.parseChars
              (Url.trimSlashes base.text.toList ++ ['/']) =
            .ok dir ∧
            dir.path = .segments
              (keptNames home.path ++
                List.replicate
                  (lost (segments.map
                    (written uriVariables)) + 1) "") := by
  rcases Url.exists_readsBelow hBase hHost hQuery hFragment
    with ⟨outcome, hReads, _⟩
  rw [expand_template hSome hForm hBound]
  simp only [← resolve_slash_iff Text.stops_nil]
  have hNonempty : segments.map (written uriVariables) ≠ [] :=
    fun hNone => hSome (List.map_eq_nil_iff.mp hNone)
  have hAhead
      (hStays : ∀ segment ∈ segments,
        ¬segment.Moves uriVariables) :=
    exists_ahead hReads hNonempty
      (fun _ hMem => plain_of_mem_written hMem)
      (fun _ hMem =>
        settled_of_mem_written hBound hStays hMem)
  have hLost (before : List String) (n : Nat) :
      before = keptNames home.path ++
          List.replicate n "" ↔
        before ++ [""] = keptNames home.path ++
          List.replicate (n + 1) "" := by
    rw [List.replicate_succ', ← List.append_assoc,
      List.append_left_inj]
  constructor
  · rintro ⟨url, hUrl, hKeeps⟩
    have hStays := not_moves_of_resolve hReads hForm hUrl
      hKeeps
    refine ⟨hStays, ?_⟩
    rcases hAhead hStays with ⟨ahead, hTemplate, hSlash⟩
    rcases (hTemplate _).mp ⟨url, hUrl, rfl⟩ with
      ⟨before, hBefore, hPath⟩
    rw [hPath, keepsSegments_append_iff hForm hBound home
      before rfl, hLost] at hKeeps
    rw [hSlash]
    exact ⟨before, hBefore, congrArg _ hKeeps.symm⟩
  · rintro ⟨hStays, hDir⟩
    rcases hAhead hStays with ⟨ahead, hTemplate, hSlash⟩
    rcases (hSlash _).mp hDir with ⟨before, hBefore, hPath⟩
    rcases (hTemplate _).mpr ⟨before, hBefore, rfl⟩ with
      ⟨url, hUrl, hNames⟩
    refine ⟨url, hUrl, ?_⟩
    rw [hNames, keepsSegments_append_iff hForm hBound home
      before rfl, hLost]
    exact (Url.Path.segments.inj hPath).symm

------------------------------------------------------------
-- A Value that is Lost
------------------------------------------------------------

/- The path of a user. -/
def userSegments : List PathSegment :=
  [.literal "users".toList, .placeholder "id".toList]

theorem wellFormed_users :
    (literal "users".toList).WellFormed :=
  ⟨by decide, List.all_eq_true.mp (by decide), by decide,
    by decide⟩

/- A name of letters can stand in braces. -/
theorem wellFormed_placeholder
    {name : List Char}
    (hSome : name ≠ [])
    (hName :
      name.all (fun c => !UriTemplate.isBrace c) = true) :
    (placeholder name).WellFormed := by
  refine ⟨hSome, ?_⟩
  intro c hMem
  have hNot := List.all_eq_true.mp hName c hMem
  rw [Bool.not_eq_true'] at hNot
  exact hNot

theorem wellFormed_user :
    ∀ segment ∈ userSegments, segment.WellFormed := by
  intro segment hMem
  rcases List.mem_pair.mp hMem with hUsers | hId
  · rw [hUsers]
    exact wellFormed_users
  · rw [hId]
    exact wellFormed_placeholder (by decide) (by decide)

open PlainNames

/- Where the API of a host has its own slash. -/
theorem parse_localSlash :
    Url.parseChars
        (Url.trimSlashes UriTemplate.localApi.text.toList ++
          ['/']) =
      .ok { UriTemplate.localHome with
        path := .segments ["api", ""] } :=
  Fallible.eq_ok_of_toOption (by decide +kernel)

/- A slash in a value does not end its segment. -/
theorem keepsSegments_slash :
    ∃ url,
      UriTemplate.expand (some UriTemplate.localApi)
          (template userSegments) [("id", "a/..")] =
        .ok url ∧
      KeepsSegments [("id", "a/..")] UriTemplate.localHome
        userSegments url.path :=
  (keepsSegments_iff UriTemplate.parse_localApi rfl rfl rfl
    (by decide) wellFormed_user (by decide)).mpr
      ⟨by unfold Moves; decide,
        _, parse_localSlash, by decide⟩

/- A path that starts with a value. -/
def groupSegments : List PathSegment :=
  [.placeholder "group".toList, .literal "users".toList]

theorem wellFormed_group :
    ∀ segment ∈ groupSegments, segment.WellFormed := by
  intro segment hMem
  rcases List.mem_pair.mp hMem with hGroup | hUsers
  · rw [hGroup]
    exact wellFormed_placeholder (by decide) (by decide)
  · rw [hUsers]
    exact wellFormed_users

theorem expand_group :
    UriTemplate.expand (some UriTemplate.localApi)
        (template groupSegments) [("group", "")] =
      .ok { UriTemplate.localHome with
        path := .segments ["api", "users"] } :=
  Fallible.eq_ok_of_toOption (by decide +kernel)

/- Not every value has a segment. -/
theorem segments_not_always_kept :
    ¬∀ (base : BaseUrl)
        (home : Url)
        (segments : List PathSegment)
        (uriVariables : List (String × String)),
      Url.parse base.text = .ok home →
      home.hasHost = true →
      home.query = none →
      home.fragment = none →
      segments ≠ [] →
      (∀ segment ∈ segments, segment.WellFormed) →
      (∀ segment ∈ segments,
        segment.value? uriVariables ≠ none) →
      ∃ url,
        UriTemplate.expand (some base) (template segments)
            uriVariables = .ok url ∧
          KeepsSegments uriVariables home segments
            url.path := by
  intro hAll
  rcases hAll UriTemplate.localApi UriTemplate.localHome
      groupSegments [("group", "")]
      UriTemplate.parse_localApi rfl rfl rfl (by decide)
      wellFormed_group (by decide) with
    ⟨url, hUrl, names, hPath, hNames⟩
  rw [expand_group] at hUrl
  cases hUrl
  have hLength := congrArg List.length
    (Url.Path.segments.inj hPath)
  rw [List.length_append, ← hNames.length_eq] at hLength
  exact absurd hLength (by decide)

end PathSegment

end ServiceCalls
