import ServiceCalls.Proofs.Template.PathVariables
import ServiceCalls.Proofs.Url.Under

/-
  Paths that are resolved under a base.

  A template of plain segments is put behind the path of a
  base, and leaves all else as it is, exactly if the base
  has no query and no fragment, does not end in a blank, and
  has one slash at its end when it is given one.

  Key definitions include:
    * `PathSegment.IsPlain`
    * `UriTemplate.pathTemplate`

  Main declarations:
    * `PathSegment.plainPath_joinSegments`
    * `UriTemplate.isUnder_base_iff`
-/

namespace ServiceCalls

namespace PathSegment

------------------------------------------------------------
-- Literal Paths
------------------------------------------------------------

/- A text that stands for itself as a segment. -/
def IsPlain (text : List Char) : Prop :=
  (literal text).WellFormed

theorem IsPlain.settled
    {text : List Char}
    (h : IsPlain text) :
    Url.Settled text := by
  have hBound : (literal text).value? [] ≠ none :=
    Option.some_ne_none _
  rw [← written_literal h.2.1]
  exact settled_written hBound (not_moves_literal h)

theorem IsPlain.plain
    {text : List Char}
    (h : IsPlain text) :
    Plain text := by
  have hPlain : Plain (written [] (.literal text)) :=
    plain_written _
  rw [written_literal h.2.1] at hPlain
  exact hPlain

/- Nothing is lost of texts that are not empty. -/
theorem lost_eq_zero
    {texts : List (List Char)}
    (h : ∀ text ∈ texts, text ≠ []) :
    lost texts = 0 := by
  fun_cases lost texts with
  | case1 next rest =>
      exact absurd rfl (h [] List.mem_cons_self)
  | case2 => rfl

variable {texts : List (List Char)}
variable (hSome : texts ≠ [])
variable (hPlain : ∀ text ∈ texts, IsPlain text)
include hSome hPlain

/- Joined texts are a path of their own names. -/
theorem plainPath_joinSegments (special : Bool) :
    Url.PlainPath special (joinSegments texts) := by
  have hTexts : ∀ text ∈ texts, Plain text :=
    fun text hMem => (hPlain text hMem).plain
  have hNames :=
    segmentNames_joinSegments special hSome hTexts
  have hTrails := trails_left hSome hTexts
    (fun text hMem => (hPlain text hMem).settled) special
  rw [lost_eq_zero fun text hMem => (hPlain text hMem).1,
    List.drop_zero] at hTrails
  refine ⟨?_, clear_joinSegments hTexts, hTrails, ?_, ?_⟩
  · cases texts with
    | nil => exact absurd rfl hSome
    | cons first rest =>
        have hFirst := (hPlain first List.mem_cons_self).1
        cases rest with
        | nil => exact hFirst
        | cons next more =>
            exact List.append_ne_nil_of_left_ne_nil
              hFirst _
  · rw [hNames, ← flatMap_slash hSome]
    unfold Url.pathText
    rw [List.flatMap_map]
    simp only [String.toList_ofList]
  · intro name hMem
    rw [hNames] at hMem
    rcases List.mem_map.mp hMem with ⟨text, hText, hName⟩
    rw [← hName]
    exact Url.isNormalDrive_ofList
      (hPlain text hText).settled.drive

end PathSegment

namespace UriTemplate

open PathSegment

------------------------------------------------------------
-- Templates of Paths
------------------------------------------------------------

/- The template of a path of plain segments. -/
def pathTemplate (texts : List (List Char)) : String :=
  template (texts.map .literal)

section

variable {texts : List (List Char)}
variable (hSome : texts ≠ [])
include hSome

theorem toList_pathTemplate :
    (pathTemplate texts).toList =
      '/' :: joinSegments texts := by
  unfold pathTemplate template
  rw [String.toList_ofList, List.flatMap_map,
    ← flatMap_slash hSome]
  rfl

/- A template of plain segments needs no values. -/
theorem expand_pathTemplate
    [DomainNames]
    (hPlain : ∀ text ∈ texts, IsPlain text)
    (base? : Option BaseUrl)
    (uriVariables : List (String × String)) :
    expand base? (pathTemplate texts) uriVariables =
      resolve base?
        (String.ofList ('/' :: joinSegments texts)) := by
  have hSegments : texts.map PathSegment.literal ≠ [] :=
    fun hNone => hSome (List.map_eq_nil_iff.mp hNone)
  have hForm :
      ∀ segment ∈ texts.map PathSegment.literal,
        segment.WellFormed := by
    intro segment hMem
    rcases List.mem_map.mp hMem with ⟨text, hText, hSame⟩
    rw [← hSame]
    exact hPlain text hText
  have hBound :
      ∀ segment ∈ texts.map PathSegment.literal,
        segment.value? uriVariables ≠ none := by
    intro segment hMem
    rcases List.mem_map.mp hMem with ⟨text, _, hSame⟩
    rw [← hSame]
    exact Option.some_ne_none _
  have hWritten :
      (texts.map PathSegment.literal).map
          (PathSegment.written uriVariables) = texts := by
    rw [List.map_map, List.map_congr_left, List.map_id]
    intro text hMem
    exact written_literal (hPlain text hMem).2.1
  unfold pathTemplate
  rw [expand_template hSegments hForm hBound, hWritten]

/-
  A path of plain segments is resolved under a base with a
  host exactly if the base has no query, no fragment and no
  blank at its end, and has one slash there when it is given
  one.
-/
theorem isUnder_base_iff
    [DomainNames]
    {base : BaseUrl}
    {home : Url}
    (hHome : Url.parse base.text = .ok home)
    (hHost : home.hasHost = true)
    (hPlain : ∀ text ∈ texts, IsPlain text)
    (uriVariables : List (String × String)) :
    (∃ url,
        expand (some base) (pathTemplate texts)
            uriVariables = .ok url ∧
        Url.IsUnder home (pathTemplate texts).toList url) ↔
      home.query = none ∧
      home.fragment = none ∧
      Url.endsInBlank base.text.toList = false ∧
      ∃ dir,
        Url.parseChars
            (Url.trimSlashes base.text.toList ++ ['/']) =
          .ok dir ∧
        ¬"//".toList <:+ dir.path.render.toList := by
  have hPath := plainPath_joinSegments hSome hPlain
    (Url.isSpecial home.scheme)
  have hIff := Url.isUnder_iff hHome hHost hPath
  rw [toList_pathTemplate hSome,
    expand_pathTemplate hSome hPlain]
  simp only [resolve_slash_iff hPath.trails.stops_slash]
  exact hIff

end

/- The template of the users. -/
def usersPath : List (List Char) :=
  ["users".toList]

theorem isPlain_users :
    ∀ text ∈ usersPath, IsPlain text := by
  intro text hMem
  rw [List.mem_singleton.mp hMem]
  exact wellFormed_users

open PlainNames

/- The users of the API have a URL under that of the API. -/
theorem isUnder_base_users :
    ∃ url,
      expand (some localApi) (pathTemplate usersPath) [] =
        .ok url ∧
      Url.IsUnder localHome
        (pathTemplate usersPath).toList url :=
  (isUnder_base_iff (List.cons_ne_nil _ _) parse_localApi
    rfl isPlain_users []).mpr
      ⟨rfl, rfl, by decide, _, parse_localSlash,
        by decide⟩

/- An API with a key in its query. -/
def keyedHome : Url :=
  { localHome with query := some "key=1" }

theorem parse_keyedHome :
    Url.parse "http://localhost/api?key=1" =
      .ok keyedHome :=
  Fallible.eq_ok_of_toOption (by decide +kernel)

def keyedApi : BaseUrl :=
  ⟨"http://localhost/api?key=1", keyedHome,
    parse_keyedHome⟩

theorem expand_keyed :
    expand (some keyedApi) (pathTemplate usersPath) [] =
      .ok { keyedHome with query := some "key=1/users" } :=
  Fallible.eq_ok_of_toOption (by decide +kernel)

/- Not every path is resolved under its base. -/
theorem not_always_isUnder :
    ¬∀ (base : BaseUrl)
        (home : Url)
        (texts : List (List Char))
        (uriVariables : List (String × String)),
      Url.parse base.text = .ok home →
      home.hasHost = true →
      texts ≠ [] →
      (∀ text ∈ texts, IsPlain text) →
      ∃ url,
        expand (some base) (pathTemplate texts)
            uriVariables = .ok url ∧
        Url.IsUnder home (pathTemplate texts).toList
          url := by
  intro hAll
  rcases hAll keyedApi keyedHome usersPath []
      parse_keyedHome rfl (List.cons_ne_nil _ _)
      isPlain_users with ⟨url, hUrl, hUnder⟩
  rw [expand_keyed] at hUrl
  cases hUrl
  exact absurd hUnder.query (by decide)

end UriTemplate

end ServiceCalls
