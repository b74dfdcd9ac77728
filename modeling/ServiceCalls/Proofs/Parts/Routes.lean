import ServiceCalls.Binding.Resolver
import ServiceCalls.Exchange.Encoding
import ServiceCalls.Proofs.Fallible

/-
  Parts whose value arrives by different routes.

  The value of a part is passed as it is, awaited, taken out
  of a list, or given as an entity without headers.  What is
  known of a file beyond its content does not arrive by all
  of these, and an entity cannot be awaited.

  Key definitions include:
    * `IsPartContent` and `IsPartValue`
    * `PartRoute`
    * `Edit.encodedParts`
    * `SurvivesRoutes`

  Main declarations:
    * `encodedParts_addValue`
    * `encodedOf_deferred`, `encodedOf_stream`
    * `encodedOf_resource`, `encodedOf_file`
    * `PartRoute.encodedOf_same`
    * `PartRoute.parts_same_iff`
-/

namespace ServiceCalls

------------------------------------------------------------
-- Values and Routes
------------------------------------------------------------

/- A value that makes one part, and is no entity. -/
inductive IsPartContent : Argument → Prop where
| text
    (s : String) :
    IsPartContent (.text s)
| json
    (value : Json)
    (hNull : value.isNull = false)
    (hItems : ∀ items, value ≠ .array items) :
    IsPartContent (.json value)
| bytes
    (content : Bytes) :
    IsPartContent (.bytes content)
| resource
    (resource : Resource) :
    IsPartContent (.resource resource)
| file
    (f : UploadFile) :
    IsPartContent (.file f)

/- A value that makes one part. -/
inductive IsPartValue : Argument → Prop where
| content
    {v : Argument}
    (h : IsPartContent v) :
    IsPartValue v
| entity
    {v : Argument}
    (h : IsPartContent v)
    (headers : Headers) :
    IsPartValue (.entity v headers)

/- How the value of a part arrives. -/
inductive PartRoute where
| direct
| deferred
| stream
| list
| entity
deriving DecidableEq, Repr

namespace PartRoute

/- The argument that brings a value. -/
def argument : PartRoute → Argument → Argument
  | .direct, v => v
  | .deferred, v => .deferred (.ok v)
  | .stream, v => .stream [.ok v]
  | .list, v => .list [v]
  | .entity, v => .entity v .empty

/- An entity is not put into another one. -/
def Admits : PartRoute → Argument → Prop
  | .entity, .entity _ _ => False
  | _, _ => True

/- The argument that is left when lists are taken apart. -/
def carrier : PartRoute → Argument → Argument
  | .list, v => v
  | route, v => route.argument v

end PartRoute

------------------------------------------------------------
-- Parts That Are Added
------------------------------------------------------------

/- The parts of a body under construction. -/
def DraftBody.items : DraftBody → List Part
  | .parts items => items
  | _ => []

section

variable [KnownMedia]

/- What a step adds to the parts there are, when encoded. -/
def Edit.encodedParts
    (edit : Edit Unit)
    (draft : RequestDraft) :
    Except ServiceError (List FormPart) :=
  let edited := edit draft
  edited.result >>= fun _ =>
    encodeParts (edited.draft.body.items.drop
      draft.body.items.length)

/- The encoded part of an argument. -/
def Part.encodedOf (name : String) (argument : Argument) :
    Except ServiceError (List FormPart) :=
  Part.ofArgument name argument >>= fun part =>
    encodeParts [part]

/- A part is added behind those there are. -/
theorem encodedParts_addPart
    {draft : RequestDraft}
    (hDraft : draft.hasBody = false)
    (name : String)
    (argument : Argument) :
    (addPlainPart name argument).encodedParts draft =
      Part.encodedOf name argument := by
  unfold Edit.encodedParts addPlainPart
    RequestDraft.addPart ServiceCalls.addPart Part.encodedOf
  cases hBody : draft.body with
  | value body =>
      unfold RequestDraft.hasBody at hDraft
      rw [hBody] at hDraft
      cases hDraft
  | empty =>
      cases Part.ofArgument name argument with
      | error error => rfl
      | ok part => rfl
  | parts items =>
      cases Part.ofArgument name argument with
      | error error =>
          cases items with
          | nil => rfl
          | cons first rest => rfl
      | ok part =>
          cases items with
          | nil => rfl
          | cons first rest =>
              dsimp only [Part.changeAll,
                List.cons_append, DraftBody.items]
              rw [← List.cons_append, List.drop_left]
              rfl

theorem encodedParts_single
    (step : Edit Unit)
    (draft : RequestDraft) :
    (Edit.all [step]).encodedParts draft =
      step.encodedParts draft := by
  unfold Edit.encodedParts
  dsimp only [Edit.all, Edit.bind, Edit.pure]
  cases (step draft).result with
  | error error => rfl
  | ok done => rfl

/- A value that is there is added as a part. -/
theorem encodedParts_addOne
    {argument : Argument}
    (hNull : argument.isNull = false)
    (value : NamedValue)
    (draft : RequestDraft) :
    (Role.part.rule.addOne value argument).encodedParts
        draft =
      (addPlainPart value.name argument).encodedParts
        draft := by
  unfold ValueRule.addOne
  rw [hNull]
  rfl

end

theorem isNull_of_isPartValue
    {v : Argument}
    (h : IsPartValue v) :
    v.isNull = false := by
  cases h with
  | entity _ headers => rfl
  | content hContent =>
      cases hContent with
      | json value hNull _ =>
          cases value with
          | null => cases hNull
          | _ => rfl
      | _ => rfl

theorem items?_of_isPartValue
    {v : Argument}
    (h : IsPartValue v) :
    ValueRule.items? v = none := by
  cases h with
  | entity _ headers => rfl
  | content hContent =>
      cases hContent with
      | json value _ hItems =>
          cases value with
          | array items => exact absurd rfl (hItems items)
          | _ => rfl
      | _ => rfl

section

variable [KnownMedia]

/- One item of a list is added by itself. -/
theorem encodedParts_addValue
    {draft : RequestDraft}
    (hDraft : draft.hasBody = false)
    {v : Argument}
    (hValue : IsPartValue v)
    (route : PartRoute)
    (value : NamedValue) :
    (Role.part.rule.addValue value
        (route.argument v)).encodedParts draft =
      Part.encodedOf value.name (route.carrier v) := by
  have hNull := isNull_of_isPartValue hValue
  have hSingle
      {argument : Argument}
      (hItems : ValueRule.items? argument = none)
      (hSome : argument.isNull = false) :
      (Role.part.rule.addValue value argument).encodedParts
          draft =
        Part.encodedOf value.name argument := by
    unfold ValueRule.addValue
    rw [hItems]
    dsimp only
    rw [encodedParts_addOne hSome,
      encodedParts_addPart hDraft]
  cases route with
  | direct =>
      exact hSingle (items?_of_isPartValue hValue) hNull
  | deferred => exact hSingle rfl rfl
  | stream => exact hSingle rfl rfl
  | entity => exact hSingle rfl rfl
  | list =>
      have hOne :
          Role.part.rule.addValue value (.list [v]) =
            Edit.all [Role.part.rule.addOne
              (ValueRule.ofItem value.name) v] := by
        unfold ValueRule.addValue ValueRule.items?
        dsimp only
        rw [List.filter_cons_of_pos (by rw [hNull]; rfl)]
        rfl
      change (Role.part.rule.addValue value
        (.list [v])).encodedParts draft = _
      rw [hOne, encodedParts_single,
        encodedParts_addOne hNull,
        encodedParts_addPart hDraft]
      rfl

------------------------------------------------------------
-- Awaited Parts
------------------------------------------------------------

/- A part whose value is there is encoded by itself. -/
theorem encodeParts_single
    {part : Part}
    (hThere : part.content.elements? = none) :
    encodeParts [part] =
      (encodePart part).map Option.toList := by
  unfold encodeParts awaitPart
  rw [List.mapM_cons, List.mapM_nil, hThere]
  dsimp only [bind, pure, Except.bind, Except.pure]
  rw [List.flatten_cons, List.flatten_nil,
    List.append_nil, List.mapM_cons, List.mapM_nil]
  cases encodePart part with
  | error error => rfl
  | ok encoded =>
      cases encoded with
      | none => rfl
      | some encoded => rfl

theorem encodeParts_deferred
    (part : Part)
    {v : Argument}
    (hThere : v.elements? = none) :
    encodeParts
        [{ part with content := .deferred (.ok v) }] =
      encodeParts [{ part with content := v }] := by
  unfold encodeParts awaitPart
  rw [List.mapM_cons, List.mapM_cons, hThere]
  rfl

theorem encodeParts_stream
    (part : Part)
    {v : Argument}
    (hThere : v.elements? = none) :
    encodeParts
        [{ part with content := .stream [.ok v] }] =
      encodeParts [{ part with content := v }] := by
  unfold encodeParts awaitPart
  rw [List.mapM_cons, List.mapM_cons, hThere]
  rfl

end

theorem elements?_fileToResource
    {v : Argument}
    (hValue : IsPartValue v) :
    (Part.fileToResource v).elements? = none := by
  cases hValue with
  | entity _ headers => rfl
  | content hContent => cases hContent <;> rfl

section

variable [KnownMedia]

/- What is awaited is a part without headers. -/
theorem encodedOf_deferred
    (name : String)
    {v : Argument}
    (hValue : IsPartValue v) :
    Part.encodedOf name (.deferred (.ok v)) =
      encodeParts
        [Part.bare name (Part.fileToResource v)] :=
  encodeParts_deferred (Part.bare name .null)
    (elements?_fileToResource hValue)

theorem encodedOf_stream
    (name : String)
    {v : Argument}
    (hValue : IsPartValue v) :
    Part.encodedOf name (.stream [.ok v]) =
      encodeParts
        [Part.bare name (Part.fileToResource v)] :=
  encodeParts_stream (Part.bare name .null)
    (elements?_fileToResource hValue)

/- An entity that was awaited is no content of a part. -/
theorem encodeParts_entity
    (name : String)
    (v : Argument)
    (headers : Headers) :
    encodeParts [Part.bare name (.entity v headers)] =
      .error (notBody (.entity v headers)) :=
  rfl

end

------------------------------------------------------------
-- Resources
------------------------------------------------------------

/- The part of a resource. -/
def Part.ofResource
    (name : String)
    (resource : Resource)
    (mediaType : String) :
    FormPart where
  name := name
  fileName := resource.fileName
  mediaType := mediaType
  headers := .empty
  content := resource.content

/- The result of writing a file name into a header. -/
def checkFileName (name : String) :
    Option String → Except ServiceError Unit
  | none => .ok ()
  | some fileName =>
      (HeaderValue.read
        (contentDisposition name (some fileName))).map
          fun _ => ()

theorem read_contentType :
    HeaderName.read HeaderName.contentType.text =
      .ok .contentType := by
  rfl

theorem read_contentDisposition :
    HeaderName.read HeaderName.contentDisposition.text =
      .ok .contentDisposition := by
  rfl

/- The headers of a part of which a type is known. -/
def Headers.ofType? : Option HeaderValue → Headers
  | none => .empty
  | some value => ⟨[(.contentType, value)]⟩

theorem setContentType_bare
    (name : String)
    (content : Argument)
    (mediaType : String) :
    (Part.bare name content).setContentType mediaType =
      (HeaderValue.read mediaType).map fun value =>
        ⟨name, .ofType? (some value), content⟩ := by
  unfold Part.setContentType Part.setHeader
    Headers.insertText
  rw [read_contentType]
  cases HeaderValue.read mediaType <;> rfl

/- The name of a file is written behind its type. -/
theorem setFileName_ofType?
    (name : String)
    (value? : Option HeaderValue)
    (content : Argument)
    (fileName : String) :
    Part.setFileName
        ⟨name, .ofType? value?, content⟩ fileName =
      (HeaderValue.read
        (contentDisposition name (some fileName))).map
          fun value =>
            ⟨name,
              (Headers.ofType? value?).append
                .contentDisposition value,
              content⟩ := by
  unfold Part.setFileName Part.setHeader
    Headers.insertText
  rw [read_contentDisposition]
  dsimp only
  cases HeaderValue.read
      (contentDisposition name (some fileName)) with
  | error error => rfl
  | ok value => cases value? <;> rfl

section

variable [KnownMedia]

theorem encodeParts_resource
    (name : String)
    (headers : Headers)
    (resource : Resource) :
    encodeParts [⟨name, headers, .resource resource⟩] =
      .ok [{
        name := name
        fileName := resource.fileName <|>
          headerFileName? headers
        mediaType := (headers.text? .contentType).getD
          resource.mediaType
        headers := extraHeaders headers
        content := resource.content }] := by
  rw [encodeParts_single rfl]
  rfl

/- A resource is encoded under the type that is known. -/
theorem encodeParts_ofType?
    (name : String)
    (value? : Option HeaderValue)
    (resource : Resource) :
    encodeParts
        [⟨name, .ofType? value?, .resource resource⟩] =
      .ok [Part.ofResource name resource
        ((value?.bind HeaderValue.text?).getD
          resource.mediaType)] := by
  have hNone :
      headerFileName? (.ofType? value?) = none := by
    cases value? <;> rfl
  have hExtra :
      extraHeaders (.ofType? value?) = .empty := by
    cases value? <;> rfl
  have hType :
      (Headers.ofType? value?).text? .contentType =
        value?.bind HeaderValue.text? := by
    cases value? <;> rfl
  rw [encodeParts_resource, hNone, hExtra, hType]
  unfold Part.ofResource
  cases resource.fileName <;> rfl

/- The name of a file changes nothing but may not fit. -/
theorem encodeParts_nameFile
    (name : String)
    (value? : Option HeaderValue)
    (resource : Resource) :
    (Part.nameFile
        ⟨name, .ofType? value?, .resource resource⟩ >>=
      fun part => encodeParts [part]) =
      (checkFileName name resource.fileName >>= fun _ =>
        .ok [Part.ofResource name resource
          ((value?.bind HeaderValue.text?).getD
            resource.mediaType)]) := by
  have hUnnamed :
      (Headers.ofType? value?).contains
        .contentDisposition = false := by
    cases value? <;> rfl
  unfold Part.nameFile
  dsimp only
  rw [hUnnamed, if_neg Bool.false_ne_true]
  cases hFile : resource.fileName with
  | none => exact encodeParts_ofType? name value? resource
  | some fileName =>
      dsimp only [checkFileName]
      rw [setFileName_ofType?]
      cases HeaderValue.read
          (contentDisposition name (some fileName)) with
      | error error => rfl
      | ok disposition =>
          have hExtra :
              extraHeaders ((Headers.ofType? value?).append
                .contentDisposition disposition) =
                .empty := by
            cases value? <;> rfl
          have hType :
              ((Headers.ofType? value?).append
                .contentDisposition disposition).text?
                  .contentType =
                value?.bind HeaderValue.text? := by
            cases value? <;> rfl
          change encodeParts [⟨name,
            (Headers.ofType? value?).append
              .contentDisposition disposition,
            .resource resource⟩] = _
          rw [encodeParts_resource, hExtra, hType]
          unfold Part.ofResource
          rw [hFile]
          rfl

theorem encodedOf_resource
    (name : String)
    (resource : Resource) :
    Part.encodedOf name (.resource resource) =
      (checkFileName name resource.fileName >>= fun _ =>
        .ok [Part.ofResource name resource
          resource.mediaType]) :=
  encodeParts_nameFile name none resource

theorem encodedOf_entity_resource
    (name : String)
    (resource : Resource) :
    Part.encodedOf name
        (.entity (.resource resource) .empty) =
      (checkFileName name resource.fileName >>= fun _ =>
        .ok [Part.ofResource name resource
          resource.mediaType]) :=
  encodeParts_nameFile name none resource

theorem encodedOf_entity_file
    (name : String)
    (f : UploadFile) :
    Part.encodedOf name (.entity (.file f) .empty) =
      (checkFileName name f.fileName >>= fun _ =>
        .ok [Part.ofResource name f.resource
          f.resource.mediaType]) :=
  encodeParts_nameFile name none f.resource

end

/- The type of a file as it is written into a header. -/
def UploadFile.writtenType? (f : UploadFile) :
    Except ServiceError (Option HeaderValue) :=
  match f.mediaType with
  | none => .ok none
  | some mediaType =>
      (HeaderValue.read mediaType).map some

/- A part that has a file name keeps it. -/
theorem nameFile_setFileName
    (name : String)
    (value? : Option HeaderValue)
    (resource : Resource)
    (fileName : String) :
    (Part.setFileName ⟨name, .ofType? value?,
        .resource resource⟩ fileName).bind Part.nameFile =
      Part.setFileName ⟨name, .ofType? value?,
        .resource resource⟩ fileName := by
  rw [setFileName_ofType?]
  cases HeaderValue.read
      (contentDisposition name (some fileName)) with
  | error error => rfl
  | ok disposition =>
      have hNamed :
          ((Headers.ofType? value?).append
            .contentDisposition disposition).contains
              .contentDisposition = true := by
        cases value? <;> rfl
      dsimp only [Except.map, Except.bind, Part.nameFile]
      rw [if_pos hNamed]

theorem nameFile_ofFile
    (name : String)
    (f : UploadFile) :
    (Part.ofFile name f).bind Part.nameFile =
      (f.writtenType? >>= fun value? =>
        Part.nameFile ⟨name, .ofType? value?,
          .resource f.resource⟩) := by
  have hNamed
      (value? : Option HeaderValue) :
      Except.bind
          (match f.fileName with
          | none => .ok (Part.mk name (.ofType? value?)
              (.resource f.resource))
          | some fileName => Part.setFileName
              ⟨name, .ofType? value?,
                .resource f.resource⟩ fileName)
          Part.nameFile =
        Part.nameFile ⟨name, .ofType? value?,
          .resource f.resource⟩ := by
    cases hFile : f.fileName with
    | none => rfl
    | some fileName =>
        have hUnnamed :
            (Headers.ofType? value?).contains
              .contentDisposition = false := by
          cases value? <;> rfl
        rw [nameFile_setFileName]
        unfold Part.nameFile UploadFile.resource
        dsimp only
        rw [hUnnamed, if_neg Bool.false_ne_true, hFile]
  unfold Part.ofFile UploadFile.writtenType?
  cases f.mediaType with
  | none => exact hNamed none
  | some mediaType =>
      dsimp only
      rw [setContentType_bare]
      cases HeaderValue.read mediaType with
      | error error => rfl
      | ok value => exact hNamed (some value)

/- Only a file by itself is encoded under its own type. -/
theorem encodedOf_file
    [KnownMedia]
    (name : String)
    (f : UploadFile) :
    Part.encodedOf name (.file f) =
      (f.writtenType? >>= fun value? =>
        checkFileName name f.fileName >>= fun _ =>
          .ok [Part.ofResource name f.resource
            ((value?.bind HeaderValue.text?).getD
              f.resource.mediaType)]) := by
  change ((Part.ofFile name f).bind Part.nameFile >>=
    fun part => encodeParts [part]) = _
  rw [nameFile_ofFile]
  cases f.writtenType? with
  | error error => rfl
  | ok value? =>
      exact encodeParts_nameFile name value? f.resource

------------------------------------------------------------
-- Values That Survive
------------------------------------------------------------

theorem read_eq_ok_iff
    (text : String)
    (value : HeaderValue) :
    HeaderValue.read text = .ok value ↔
      HeaderValue.ofText? text = some value := by
  unfold HeaderValue.read
  cases HeaderValue.ofText? text with
  | none =>
      constructor <;>
        · intro hNone
          cases hNone
  | some read =>
      constructor <;>
        · intro hSome
          cases hSome
          rfl

/- The name of a file can be written into a header. -/
def FileNameFits
    (name : String)
    (fileName? : Option String) :
    Prop :=
  ∀ fileName, fileName? = some fileName →
    ∃ value,
      HeaderValue.ofText?
        (contentDisposition name (some fileName)) =
          some value

/- The type that a file has is the one that is guessed. -/
def MediaTypeKept [KnownMedia] (f : UploadFile) : Prop :=
  ∀ mediaType, f.mediaType = some mediaType →
    ∃ value,
      HeaderValue.ofText? mediaType = some value ∧
      ∀ readable, value.text? = some readable →
        readable = f.resource.mediaType

/- What makes a value the same part on all routes. -/
def SurvivesRoutes
    [KnownMedia]
    (name : String) : Argument → Prop
  | .resource resource =>
      FileNameFits name resource.fileName
  | .file f =>
      FileNameFits name f.fileName ∧ MediaTypeKept f
  | .entity _ _ => False
  | _ => True

theorem checkFileName_iff
    (name : String)
    (fileName? : Option String) :
    checkFileName name fileName? = .ok () ↔
      FileNameFits name fileName? := by
  cases fileName? with
  | none =>
      constructor
      · intro _ fileName hSome
        cases hSome
      · intro _
        rfl
  | some fileName =>
      unfold checkFileName FileNameFits
      dsimp only
      constructor
      · intro hOk other hOther
        rcases Fallible.map_eq_ok hOk with
          ⟨value, hRead, _⟩
        rw [read_eq_ok_iff] at hRead
        exact ⟨value, Option.some.inj hOther ▸ hRead⟩
      · intro hFits
        rcases hFits fileName rfl with ⟨value, hRead⟩
        rw [← read_eq_ok_iff] at hRead
        rw [hRead]
        rfl

theorem mediaTypeKept_iff [KnownMedia] (f : UploadFile) :
    (∃ value?, f.writtenType? = .ok value? ∧
      (value?.bind HeaderValue.text?).getD
        f.resource.mediaType = f.resource.mediaType) ↔
      MediaTypeKept f := by
  unfold UploadFile.writtenType? MediaTypeKept
  cases f.mediaType with
  | none =>
      constructor
      · intro _ mediaType hSome
        cases hSome
      · intro _
        exact ⟨none, rfl, rfl⟩
  | some mediaType =>
      dsimp only
      constructor
      · rintro ⟨value?, hWritten, hSame⟩ other hOther
        rcases Fallible.map_eq_ok hWritten with
          ⟨value, hRead, hValue⟩
        rw [read_eq_ok_iff] at hRead
        rw [← hValue, Option.bind_some] at hSame
        refine ⟨value, Option.some.inj hOther ▸ hRead, ?_⟩
        intro readable hReadable
        rw [hReadable] at hSame
        exact hSame
      · intro hKept
        rcases hKept mediaType rfl with
          ⟨value, hRead, hSame⟩
        rw [← read_eq_ok_iff] at hRead
        refine ⟨some value, ?_, ?_⟩
        · rw [hRead]
          rfl
        · rw [Option.bind_some]
          cases hReadable : value.text? with
          | none => rfl
          | some readable => exact hSame readable hReadable

namespace PartRoute

section

variable [KnownMedia]

/- Three results tell what comes of every route. -/
theorem encodedOf_carrier
    {name : String}
    {v : Argument}
    (hValue : IsPartValue v)
    {result : Except ServiceError (List FormPart)}
    (hDirect : Part.encodedOf name v = result)
    (hAwaited :
      encodeParts
        [Part.bare name (Part.fileToResource v)] = result)
    (hEntity :
      Part.encodedOf name (.entity v .empty) = result)
    (route : PartRoute) :
    Part.encodedOf name (route.carrier v) = result := by
  cases route with
  | direct => exact hDirect
  | list => exact hDirect
  | entity => exact hEntity
  | deferred =>
      exact (encodedOf_deferred name hValue).trans hAwaited
  | stream =>
      exact (encodedOf_stream name hValue).trans hAwaited

/- A resource is awaited as it is. -/
theorem encodedOf_awaited_resource
    (name : String)
    (resource : Resource) :
    encodeParts [Part.bare name (.resource resource)] =
      .ok [Part.ofResource name resource
        resource.mediaType] :=
  encodeParts_ofType? name none resource

/- What survives the routes is one part on all of them. -/
theorem encodedOf_same
    {name : String}
    {v : Argument}
    (hValue : IsPartValue v)
    (hSurvives : SurvivesRoutes name v) :
    ∃ part,
      ∀ route : PartRoute,
        Part.encodedOf name (route.carrier v) =
          .ok [part] := by
  cases hValue with
  | entity _ headers => cases hSurvives
  | content hContent =>
      have hValue := IsPartValue.content hContent
      cases hContent with
      | text s =>
          exact ⟨_, encodedOf_carrier hValue rfl rfl rfl⟩
      | json value hNull hItems =>
          exact ⟨_, encodedOf_carrier hValue rfl rfl rfl⟩
      | bytes content =>
          exact ⟨_, encodedOf_carrier hValue rfl rfl rfl⟩
      | resource resource =>
          have hName :=
            (checkFileName_iff name resource.fileName).mpr
              hSurvives
          refine ⟨Part.ofResource name resource
            resource.mediaType,
            encodedOf_carrier hValue ?_
              (encodedOf_awaited_resource name resource)
              ?_⟩
          · rw [encodedOf_resource, hName]
            rfl
          · rw [encodedOf_entity_resource, hName]
            rfl
      | file f =>
          have hName :=
            (checkFileName_iff name f.fileName).mpr
              hSurvives.1
          rcases (mediaTypeKept_iff f).mpr hSurvives.2 with
            ⟨value?, hWritten, hSame⟩
          refine ⟨Part.ofResource name f.resource
            f.resource.mediaType,
            encodedOf_carrier hValue ?_
              (encodedOf_awaited_resource name f.resource)
              ?_⟩
          · rw [encodedOf_file, hWritten, hName]
            change Except.ok [Part.ofResource name
              f.resource ((value?.bind
                HeaderValue.text?).getD
                  f.resource.mediaType)] = _
            rw [hSame]
          · rw [encodedOf_entity_file, hName]
            rfl

/- Only what survives is the same part when awaited. -/
theorem survives_of_encodedOf_same
    {name : String}
    {v : Argument}
    (hValue : IsPartValue v)
    {part : FormPart}
    (hDirect : Part.encodedOf name v = .ok [part])
    (hDeferred :
      Part.encodedOf name (.deferred (.ok v)) =
        .ok [part]) :
    SurvivesRoutes name v := by
  rw [encodedOf_deferred name hValue] at hDeferred
  cases hValue with
  | @entity body hBody headers =>
      have hRefused := encodeParts_entity name body headers
      cases hRefused.symm.trans hDeferred
  | content hContent =>
      cases hContent with
      | text s => trivial
      | json value hNull hItems => trivial
      | bytes content => trivial
      | resource resource =>
          rw [encodedOf_resource] at hDirect
          rcases Fallible.bind_eq_ok hDirect with
            ⟨done, hName, _⟩
          exact (checkFileName_iff name _).mp hName
      | file f =>
          rw [encodedOf_file] at hDirect
          rcases Fallible.bind_eq_ok hDirect with
            ⟨value?, hWritten, hNamed⟩
          rcases Fallible.bind_eq_ok hNamed with
            ⟨done, hName, hPart⟩
          refine ⟨(checkFileName_iff name _).mp hName,
            (mediaTypeKept_iff f).mp ⟨value?, hWritten, ?_⟩⟩
          have hAwaited :=
            encodedOf_awaited_resource name f.resource
          have hParts :=
            hPart.trans (hDeferred.symm.trans hAwaited)
          exact congrArg FormPart.mediaType
            (List.head_eq_of_cons_eq
              (Except.ok.inj hParts))

------------------------------------------------------------
-- Parameters That Are Parts
------------------------------------------------------------

/-
  The parts of a value bound to a parameter.  A list of one
  value and the value are the same, and so are a stream of
  one value and a deferred value; all are the same exactly
  if the value survives.
-/
theorem parts_same_iff
    {parameter : Parameter}
    {value : NamedValue}
    {name : String}
    (hRole :
      Resolver.valueInRole? .part parameter = some value)
    (hType : parameter.type ≠ .map)
    (hName :
      ValueRule.effectiveName Role.part.rule.label value
        parameter = .ok name)
    {draft : RequestDraft}
    (hDraft : draft.hasBody = false)
    {v : Argument}
    (hValue : IsPartValue v) :
    ∃ binder,
      Resolver.ofRole .part parameter =
        .ok (some binder) ∧
      (binder (list.argument v)).encodedParts draft =
        (binder (direct.argument v)).encodedParts draft ∧
      (binder (stream.argument v)).encodedParts draft =
        (binder (deferred.argument v)).encodedParts
          draft ∧
      ((∃ part, ∀ route : PartRoute, route.Admits v →
        (binder (route.argument v)).encodedParts draft =
          .ok [part]) ↔
        SurvivesRoutes name v) := by
  have hParts
      (route : PartRoute) :=
    encodedParts_addValue hDraft hValue route
      { value with name := name }
  refine ⟨Role.part.rule.addValue
    { value with name := name }, ?_, ?_, ?_, ?_, ?_⟩
  · unfold Resolver.ofRole ValueRule.bind
    rw [hRole]
    dsimp only
    rw [if_neg hType, hName]
    rfl
  · rw [hParts, hParts]
    rfl
  · rw [hParts, hParts]
    exact (encodedOf_stream name hValue).trans
      (encodedOf_deferred name hValue).symm
  · rintro ⟨part, hSame⟩
    have hDirect := hSame direct
      (by cases v <;> trivial)
    have hDeferred := hSame deferred
      (by cases v <;> trivial)
    rw [hParts] at hDirect hDeferred
    exact survives_of_encodedOf_same hValue hDirect
      hDeferred
  · intro hSurvives
    rcases encodedOf_same hValue hSurvives with
      ⟨part, hSame⟩
    refine ⟨part, ?_⟩
    intro route _
    rw [hParts]
    exact hSame route

end

------------------------------------------------------------
-- A File That Is Awaited
------------------------------------------------------------

/- A parameter that is a part. -/
def upload : Parameter :=
  ⟨0, some "f", .value,
    some (.named .part ⟨"f", true, none⟩)⟩

/- A file of a type that its name does not tell. -/
def table : UploadFile :=
  ⟨"f", some "a.bin", some "text/csv", [0x78]⟩

open CommonMedia

/- The type of an awaited file is guessed from its name. -/
theorem table_guessed :
    table.resource.mediaType =
      "application/octet-stream" := by
  decide +kernel

theorem table_readable :
    (HeaderValue.ofText? "text/csv").bind
      HeaderValue.text? = some "text/csv" := by
  decide +kernel

theorem table_lost : ¬MediaTypeKept table := by
  intro hKept
  rcases hKept "text/csv" rfl with ⟨value, hRead, hSame⟩
  have hReadable := table_readable
  rw [hRead, Option.bind_some] at hReadable
  have hGuessed := hSame "text/csv" hReadable
  rw [table_guessed] at hGuessed
  exact absurd hGuessed (by decide)

theorem parts_of_awaited_table :
    ∃ binder,
      Resolver.ofRole .part upload = .ok (some binder) ∧
      ¬∃ part, ∀ route : PartRoute,
        route.Admits (.file table) →
        (binder (route.argument (.file table))).encodedParts
          .empty = .ok [part] := by
  have hRole :
      Resolver.valueInRole? .part upload =
        some ⟨"f", true, none⟩ :=
    rfl
  have hName :
      ValueRule.effectiveName Role.part.rule.label
        ⟨"f", true, none⟩ upload = .ok "f" :=
    rfl
  have hDraft : RequestDraft.empty.hasBody = false := rfl
  rcases parts_same_iff hRole (by decide) hName hDraft
      (.content (.file table)) with
    ⟨binder, hBinder, _, _, hSame⟩
  refine ⟨binder, hBinder, ?_⟩
  intro hAlways
  exact table_lost (hSame.mp hAlways).2

/- A part is not always the same when it is awaited. -/
theorem parts_not_always_same :
    ¬∀ (parameter : Parameter)
        (binder : Binder)
        (draft : RequestDraft)
        (v : Argument)
        (route : PartRoute),
      Resolver.ofRole .part parameter =
        .ok (some binder) →
      parameter.type ≠ .map →
      draft.hasBody = false →
      IsPartValue v →
      route.Admits v →
      (binder (route.argument v)).encodedParts draft =
        (binder (direct.argument v)).encodedParts draft := by
  intro hAll
  have hSame := hAll upload
    (Role.part.rule.addValue ⟨"f", true, none⟩) .empty
    (.file table) deferred rfl (by decide) rfl
    (.content (.file table)) trivial
  have hTypes := congrArg
    (fun result =>
      result.toOption.map (List.map FormPart.mediaType))
    hSame
  exact absurd hTypes (by decide +kernel)

end PartRoute

end ServiceCalls
