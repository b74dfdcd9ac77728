import ServiceCalls.Proofs.Calls.Dispatch
import ServiceCalls.Proofs.Request.BodyShapes
import ServiceCalls.Proofs.Request.Delivery

/-
  The target of a request after any edits.

  A URL and a template are kept side by side, and each of
  them is dropped when the other is set, so that the target
  is the one set last.  Finishing adds query parameters to
  it.  Without a target a request is refused before anything
  is sent, unless it has query parameters: these get a
  template of their own, and the request goes out as if the
  empty template had been set.

  Key definitions include:
    * `RequestEdit.targetSet` and `RequestEdit.lastTarget?`
    * `RequestEdit.queryPairs`
    * `HeldTarget`
    * `Client.Refuses`

  Main declarations:
    * `RequestEdit.target_runAll`
    * `HeldTarget.target?_finish`
    * `Client.resolveTarget_misconfigured_iff`
    * `RequestEdit.target_of_edits`
-/

namespace ServiceCalls

------------------------------------------------------------
-- The Target Set Last
------------------------------------------------------------

theorem RequestDraft.hides_target
    {field : DraftField}
    (h : field ≠ .target) :
    Hides RequestDraft.target field := by
  cases field with
  | target => exact absurd rfl h
  | _ => exact fun _ _ => rfl

namespace RequestEdit

/- The target that an edit sets. -/
def targetSet : RequestEdit → Option Target
  | .setUri url => some (.absolute url)
  | .setTemplate text => some (.template text)
  | _ => none

/- The target that edits set last. -/
def lastTarget? (edits : List RequestEdit) : Option Target :=
  (edits.filterMap targetSet).getLast?

theorem lastTarget?_cons
    (edit : RequestEdit)
    (rest : List RequestEdit) :
    lastTarget? (edit :: rest) =
      (lastTarget? rest).or edit.targetSet := by
  unfold lastTarget?
  cases hSet : edit.targetSet with
  | none =>
      rw [List.filterMap_cons_none hSet, Option.or_none]
  | some target =>
      rw [List.filterMap_cons_some hSet, List.getLast?_cons]
      cases (rest.filterMap targetSet).getLast? <;> rfl

theorem target_run
    (draft : RequestDraft)
    (edit : RequestEdit) :
    (edit.run draft).draft.target =
      edit.targetSet.or draft.target := by
  by_cases hField : edit.field = .target
  · cases edit with
    | setUri url => rfl
    | setTemplate text => rfl
    | setVariable name value => rfl
    | _ => cases hField
  · have hNone : edit.targetSet = none := by
      cases edit with
      | setUri url => exact absurd rfl hField
      | setTemplate text => exact absurd rfl hField
      | _ => rfl
    rw [hNone, Option.none_or]
    exact edit.keeps_run (RequestDraft.hides_target hField)
      draft

/- The target of a draft is the one set last. -/
theorem target_runAll
    (draft : RequestDraft)
    (edits : List RequestEdit) :
    (runAll draft edits).target =
      (lastTarget? edits).or draft.target := by
  induction edits generalizing draft with
  | nil => rfl
  | cons edit rest ih =>
      rw [runAll, ih, target_run, lastTarget?_cons,
        Option.or_assoc]

/- Parameters that are added to the target. -/
def queryPairs (edits : List RequestEdit) :
    List (String × String) :=
  if RequestDraft.isForm (drafted edits).headers then []
  else edits.flatMap pairsAdded

end RequestEdit

/-
  Query parameters are added to the target, and form fields
  leave it alone.
-/
theorem RequestDraft.target_of_build
    {draft : RequestDraft}
    {finished : RequestValues}
    (h : draft.build = .ok finished) :
    finished.target =
      if draft.parameters.isEmpty ∨ isForm draft.headers then
        draft.target
      else
        some (withQuery draft.target draft.variables
          draft.parameters).1 := by
  unfold build at h
  split at h
  · cases h
  · dsimp only at h
    split at h
    · next hNone =>
        cases h
        rw [if_pos (.inl hNone)]
    · next hSome =>
        split at h
        · next hForm =>
            rw [if_pos (.inr hForm)]
            split at h
            · cases h
              rfl
            · cases h
        · next hQuery =>
            cases h
            rw [if_neg (not_or.mpr ⟨hSome, hQuery⟩)]

/-
  Query parameters without a target get a template as if the
  empty one had been set.
-/
theorem RequestDraft.build_emptyTemplate
    {draft : RequestDraft}
    (hTarget : draft.target = none)
    (hForm : ¬isForm draft.headers = true)
    (hSome : draft.parameters ≠ []) :
    build { draft with target := some (.template "") } =
      draft.build := by
  have hTemplate :
      withQuery (some (.template "")) draft.variables
          draft.parameters =
        withQuery none draft.variables draft.parameters :=
    rfl
  unfold build
  cases draft.method with
  | none => rfl
  | some method =>
      dsimp only
      rw [if_neg (mt List.isEmpty_iff.mp hSome),
        if_neg (mt List.isEmpty_iff.mp hSome),
        if_neg hForm, if_neg hForm, hTarget, hTemplate]

------------------------------------------------------------
-- A URL Beside a Template
------------------------------------------------------------

/- The target as it is kept: a URL, and a template. -/
structure HeldTarget where
  uri : Option Url
  template : Option String

namespace HeldTarget

/- Of the two, one at most is there. -/
def Exclusive (held : HeldTarget) : Prop :=
  held.uri = none ∨ held.template = none

/- A URL is looked at before a template. -/
def target? (held : HeldTarget) : Option Target :=
  match held.uri, held.template with
  | some url, _ => some (.absolute url)
  | none, some text => some (.template text)
  | none, none => none

/- Setting the one drops the other. -/
def run (held : HeldTarget) : RequestEdit → HeldTarget
  | .setUri url => ⟨some url, none⟩
  | .setTemplate text => ⟨none, some text⟩
  | _ => held

/- What edits leave of no target. -/
def after (edits : List RequestEdit) : HeldTarget :=
  edits.foldl run ⟨none, none⟩

/-
  The target with query parameters.  Where there is none, a
  template is made for them.
-/
def finish (held : HeldTarget) (draft : RequestDraft) :
    HeldTarget :=
  if draft.parameters.isEmpty ∨
      RequestDraft.isForm draft.headers then held
  else
    match held.uri with
    | some url =>
        { held with
          uri := some (url.appendPairs draft.parameters) }
    | none =>
        { held with
          template := some (String.ofList
            (appendQuery (held.template.getD "").toList
              draft.variables 0 draft.parameters).1) }

variable {held : HeldTarget}

theorem exclusive_run
    (h : held.Exclusive)
    (edit : RequestEdit) :
    (held.run edit).Exclusive := by
  cases edit with
  | setUri url => exact .inr rfl
  | setTemplate text => exact .inl rfl
  | _ => exact h

theorem target?_run
    (held : HeldTarget)
    (edit : RequestEdit) :
    (held.run edit).target? =
      edit.targetSet.or held.target? := by
  cases edit <;> rfl

theorem exclusive_after (edits : List RequestEdit) :
    (after edits).Exclusive := by
  have hAll (held : HeldTarget) (h : held.Exclusive) :
      (edits.foldl run held).Exclusive := by
    induction edits generalizing held with
    | nil => exact h
    | cons edit rest ih => exact ih _ (exclusive_run h edit)
  exact hAll ⟨none, none⟩ (.inl rfl)

theorem target?_after (edits : List RequestEdit) :
    (after edits).target? =
      RequestEdit.lastTarget? edits := by
  have hAll (held : HeldTarget) :
      (edits.foldl run held).target? =
        (RequestEdit.lastTarget? edits).or held.target? := by
    induction edits generalizing held with
    | nil => rfl
    | cons edit rest ih =>
        rw [List.foldl_cons, ih, target?_run,
          RequestEdit.lastTarget?_cons, Option.or_assoc]
  rw [after, hAll]
  exact Option.or_none

theorem exclusive_finish
    (h : held.Exclusive)
    (draft : RequestDraft) :
    (held.finish draft).Exclusive := by
  unfold finish
  split
  · exact h
  · split
    · next url hUrl =>
        rcases h with hNone | hNone
        · rw [hNone] at hUrl
          cases hUrl
        · exact .inr hNone
    · next hNone => exact .inl hNone

/- What is finished has the target that is kept. -/
theorem target?_finish
    {draft : RequestDraft}
    (hTarget : held.target? = draft.target)
    {finished : RequestValues}
    (hBuild : draft.build = .ok finished) :
    (held.finish draft).target? = finished.target := by
  rw [RequestDraft.target_of_build hBuild]
  unfold finish
  split
  · exact hTarget
  · rw [← hTarget]
    obtain ⟨uri, template⟩ := held
    cases uri with
    | some url => rfl
    | none => cases template <;> rfl

end HeldTarget

------------------------------------------------------------
-- Requests Without a Target
------------------------------------------------------------

/- What is wrong with a template is not how it was set up. -/
theorem UriTemplate.failsOnly_expand
    [DomainNames]
    (base? : Option BaseUrl)
    (text : String)
    (uriVariables : List (String × String)) :
    Fallible.FailsOnly (·.isConfiguration = false)
      (expand base? text uriVariables) := by
  refine Fallible.failsOnly_bind ?_ fun expanded => ?_
  · unfold expandText
    split
    · exact Fallible.failsOnly_ok _
    · exact Fallible.failsOnly_error rfl
  · have hUnder :
        Fallible.FailsOnly (·.isConfiguration = false)
          (resolveUnder base? expanded) := by
      unfold resolveUnder
      split
      · exact Fallible.failsOnly_error rfl
      · refine Fallible.failsOnly_mapError (fun _ => ?_) _
        rfl
    unfold resolve
    split
    · split
      · exact Fallible.failsOnly_ok _
      · exact hUnder
    · exact hUnder

/- Text is added to the end of a template. -/
theorem exists_appendQuery
    (template : List Char)
    (uriVariables : List (String × String))
    (next : Nat)
    (pairs : List (String × String)) :
    ∃ added,
      (appendQuery template uriVariables next pairs).1 =
        template ++ added := by
  induction pairs generalizing template uriVariables next with
  | nil => exact ⟨[], (List.append_nil _).symm⟩
  | cons pair rest ih =>
      unfold appendQuery
      rcases ih (template ++ _) _ _ with ⟨added, hAdded⟩
      exact ⟨_, hAdded.trans (List.append_assoc _ _ _)⟩

theorem Run.Dispatches.yields
    {α : Type}
    {run : Run α}
    {transport : Transport}
    {result : Except Failure Request}
    (h : run.Dispatches transport result)
    {failure : Failure}
    (hFailed : result = .error failure) :
    run.Yields (.error failure) := by
  subst hFailed
  exact h

namespace Client

variable [DomainNames]

/- No function of an adapter sends a request that fails. -/
structure Refuses
    [KnownMedia]
    (client : Client)
    (values : RequestValues)
    (failure : Failure) :
    Prop where
  exchange :
    ((Adapter.ofClient client).exchange values).Yields
      (.error failure)
  headers :
    ((Adapter.ofClient client).headers values).Yields
      (.error failure)
  body : ∀ type,
    ((Adapter.ofClient client).body type values).Yields
      (.error failure)
  entity : ∀ type,
    ((Adapter.ofClient client).entity type values).Yields
      (.error failure)
  bodilessEntity :
    ((Adapter.ofClient client).bodilessEntity values).Yields
      (.error failure)

theorem refuses_of_prepared
    [KnownMedia]
    {client : Client}
    {values : RequestValues}
    {failure : Failure}
    (h : client.prepared values = .error failure) :
    client.Refuses values failure where
  exchange :=
    (Adapter.exchange_dispatches client values).yields h
  headers :=
    (Adapter.headers_dispatches client values).yields h
  body := fun type =>
    (Adapter.body_dispatches client values type).yields h
  entity := fun type =>
    (Adapter.entity_dispatches client values type).yields h
  bodilessEntity :=
    (Adapter.bodilessEntity_dispatches client values).yields
      h

/- A request without a target is refused for that. -/
theorem refuses_of_no_target
    [KnownMedia]
    (client : Client)
    {values : RequestValues}
    (h : values.target = none) :
    client.Refuses values ⟨.target, noTarget⟩ := by
  apply refuses_of_prepared
  unfold prepared encoded resolveTarget
  rw [h]
  rfl

/- Only a request without a target was set up wrongly. -/
theorem resolveTarget_misconfigured_iff
    (client : Client)
    (values : RequestValues) :
    (∃ error,
      client.resolveTarget values = .error error ∧
        error.isConfiguration = true) ↔
      values.target = none := by
  unfold resolveTarget
  constructor
  · rintro ⟨error, hError, hKind⟩
    split at hError
    · cases hError
    · have hOther :=
        UriTemplate.failsOnly_expand _ _ _ error hError
      rw [hOther] at hKind
      cases hKind
    · next hNone => exact hNone
  · intro h
    rw [h]
    exact ⟨noTarget, rfl, rfl⟩

end Client

------------------------------------------------------------
-- Targets After Edits
------------------------------------------------------------

namespace RequestEdit

theorem lastTarget?_eq_none_iff (edits : List RequestEdit) :
    lastTarget? edits = none ↔
      (∀ url, .setUri url ∉ edits) ∧
        ∀ text, .setTemplate text ∉ edits := by
  unfold lastTarget?
  rw [List.getLast?_eq_none_iff, List.filterMap_eq_nil_iff]
  constructor
  · intro hNone
    constructor
    · intro url hMem
      cases hNone _ hMem
    · intro text hMem
      cases hNone _ hMem
  · rintro ⟨hUri, hTemplate⟩ edit hMem
    cases edit with
    | setUri url => exact absurd hMem (hUri url)
    | setTemplate text => exact absurd hMem (hTemplate text)
    | _ => rfl

theorem target_drafted (edits : List RequestEdit) :
    (drafted edits).target = lastTarget? edits :=
  (target_runAll .empty edits).trans Option.or_none

theorem parameters_drafted (edits : List RequestEdit) :
    (drafted edits).parameters =
      edits.flatMap pairsAdded :=
  parameters_runAll .empty edits

variable {edits : List RequestEdit}
variable {finished : RequestValues}

/- The target of finished edits by what was set last. -/
theorem target_of_finished
    (hBuild : (drafted edits).build = .ok finished) :
    finished.target =
      if queryPairs edits = [] then lastTarget? edits
      else
        some (RequestDraft.withQuery (lastTarget? edits)
          (drafted edits).variables
          (queryPairs edits)).1 := by
  rw [RequestDraft.target_of_build hBuild, target_drafted,
    parameters_drafted]
  unfold queryPairs
  by_cases hForm :
      RequestDraft.isForm (drafted edits).headers = true
  · rw [if_pos (.inr hForm), if_pos (if_pos hForm)]
  · rw [if_neg hForm]
    by_cases hNone : edits.flatMap pairsAdded = []
    · rw [if_pos hNone,
        if_pos (.inl (List.isEmpty_iff.mpr hNone))]
    · rw [if_neg hNone, if_neg]
      rw [List.isEmpty_iff]
      exact not_or.mpr ⟨hNone, hForm⟩

theorem url_of_finished
    (hBuild : (drafted edits).build = .ok finished)
    {url : Url}
    (hLast : lastTarget? edits = some (.absolute url)) :
    finished.target = some (.absolute
      (if queryPairs edits = [] then url
        else url.appendPairs (queryPairs edits))) := by
  rw [target_of_finished hBuild, hLast]
  by_cases hPairs : queryPairs edits = []
  · rw [if_pos hPairs, if_pos hPairs]
  · rw [if_neg hPairs, if_neg hPairs]
    rfl

theorem exists_template_of_finished
    (hBuild : (drafted edits).build = .ok finished)
    {text : String}
    (hLast : lastTarget? edits = some (.template text)) :
    ∃ added,
      (queryPairs edits = [] → added = []) ∧
        finished.target = some (.template
          (String.ofList (text.toList ++ added))) := by
  rw [target_of_finished hBuild, hLast]
  by_cases hPairs : queryPairs edits = []
  · refine ⟨[], fun _ => rfl, ?_⟩
    rw [if_pos hPairs, List.append_nil,
      String.ofList_toList]
  · rcases exists_appendQuery text.toList
      (drafted edits).variables 0 (queryPairs edits) with
      ⟨added, hAdded⟩
    refine ⟨added, fun hEmpty => absurd hEmpty hPairs, ?_⟩
    rw [if_neg hPairs, ← hAdded]
    rfl

/- Query parameters are a target where none was set. -/
theorem no_target_of_finished_iff
    (hBuild : (drafted edits).build = .ok finished)
    (hLast : lastTarget? edits = none) :
    finished.target = none ↔ queryPairs edits = [] := by
  rw [target_of_finished hBuild, hLast]
  by_cases hPairs : queryPairs edits = []
  · rw [if_pos hPairs]
    exact ⟨fun _ => hPairs, fun _ => rfl⟩
  · rw [if_neg hPairs]
    exact ⟨nofun, fun hEmpty => absurd hEmpty hPairs⟩

/- They are the ones of the empty template. -/
theorem build_drafted_emptyTemplate
    (hLast : lastTarget? edits = none)
    (hPairs : queryPairs edits ≠ []) :
    (drafted (edits ++ [.setTemplate ""])).build =
      (drafted edits).build := by
  have hForm :
      ¬RequestDraft.isForm (drafted edits).headers = true :=
    fun hForm => hPairs (if_pos hForm)
  have hParameters : (drafted edits).parameters ≠ [] := by
    rw [parameters_drafted]
    exact mt (if_neg hForm).trans hPairs
  have hTarget : (drafted edits).target = none :=
    (target_drafted edits).trans hLast
  unfold drafted at hTarget hForm hParameters ⊢
  rw [runAll_append]
  exact RequestDraft.build_emptyTemplate hTarget hForm
    hParameters

/-
  Of a URL and a template a request has one at most, and it
  is the one set last, with the query parameters added.  A
  request for which neither was set is refused by every
  function of an adapter, before anything is sent, exactly
  when it has no query parameters.  With query parameters it
  is the request with the empty template.
-/
theorem target_of_edits
    [DomainNames]
    [KnownMedia]
    (edits : List RequestEdit)
    {finished : RequestValues}
    (hBuild : (drafted edits).build = .ok finished) :
    let pairs := queryPairs edits
    let held :=
      (HeldTarget.after edits).finish (drafted edits)
    (held.Exclusive ∧ finished.target = held.target?) ∧
      (∀ url,
        lastTarget? edits = some (.absolute url) →
        finished.target = some (.absolute
          (if pairs = [] then url
            else url.appendPairs pairs))) ∧
      (∀ text,
        lastTarget? edits = some (.template text) →
        ∃ added,
          (pairs = [] → added = []) ∧
            finished.target = some (.template
              (String.ofList (text.toList ++ added)))) ∧
      ((∀ url, .setUri url ∉ edits) →
        (∀ text, .setTemplate text ∉ edits) →
        (∀ client : Client,
          ((∃ error,
            client.resolveTarget finished = .error error ∧
              error.isConfiguration = true) ↔
            pairs = []) ∧
          (pairs = [] →
            client.Refuses finished
              ⟨.target, Client.noTarget⟩)) ∧
        (pairs ≠ [] →
          (drafted (edits ++ [.setTemplate ""])).build =
            .ok finished)) := by
  intro pairs held
  have hHeld :
      (HeldTarget.after edits).target? =
        (drafted edits).target := by
    rw [HeldTarget.target?_after, target_drafted]
  refine ⟨⟨HeldTarget.exclusive_finish
      (HeldTarget.exclusive_after edits) _,
    (HeldTarget.target?_finish hHeld hBuild).symm⟩,
    fun url hLast => url_of_finished hBuild hLast,
    fun text hLast =>
      exists_template_of_finished hBuild hLast,
    fun hUri hTemplate => ?_⟩
  have hLast :=
    (lastTarget?_eq_none_iff edits).mpr ⟨hUri, hTemplate⟩
  have hNone := no_target_of_finished_iff hBuild hLast
  refine ⟨fun client => ⟨?_, fun hPairs => ?_⟩,
    fun hPairs => ?_⟩
  · rw [client.resolveTarget_misconfigured_iff, hNone]
  · exact client.refuses_of_no_target (hNone.mpr hPairs)
  · rw [build_drafted_emptyTemplate hLast hPairs, hBuild]

/- A URL is set, and then a template with a parameter. -/
def retargetedEdits : List RequestEdit :=
  [.setMethod .get, .setUri ProxyFunction.remoteTarget,
    .setTemplate "/find", .addParameter "q" ["1"]]

/- A header is all there is. -/
def aimlessEdits : List RequestEdit :=
  [.setMethod .get, .addHeader "X-Trace" ["1"]]

open PlainNames CommonMedia

/- The URL is gone, and a header is nowhere to send. -/
theorem targets_of_edits :
    (∃ finished added,
      (drafted retargetedEdits).build = .ok finished ∧
        finished.target = some (.template
          (String.ofList ("/find".toList ++ added)))) ∧
      ∃ finished,
        (drafted aimlessEdits).build = .ok finished ∧
          RequestDraft.localClient.Refuses finished
            ⟨.target, Client.noTarget⟩ := by
  constructor
  · rcases target_of_edits retargetedEdits rfl with
      ⟨_, _, hTemplate, _⟩
    rcases hTemplate "/find" rfl with ⟨added, _, hTarget⟩
    exact ⟨_, added, rfl, hTarget⟩
  · rcases target_of_edits aimlessEdits rfl with
      ⟨_, _, _, hNone⟩
    have hRefused := (hNone (by simp [aimlessEdits])
      (by simp [aimlessEdits])).1 RequestDraft.localClient
    exact ⟨_, rfl, hRefused.2 (by decide)⟩

/- A parameter is all there is. -/
def parameterEdits : List RequestEdit :=
  [.setMethod .get, .addParameter "q" ["1"]]

/- Where the parameter goes. -/
def parameterUrl : Url :=
  { UriTemplate.localHome with
    path := .segments ["api"]
    query := some "q=1" }

theorem sentTo_parameter :
    (drafted parameterEdits).sentTo
        RequestDraft.localClient =
      .ok parameterUrl :=
  Fallible.eq_ok_of_toOption (by decide +kernel)

/- Without a target a request may be sent all the same. -/
theorem targetless_not_always_refused :
    ¬∀ (edits : List RequestEdit)
        (finished : RequestValues)
        (client : Client)
        (network : Network),
      (drafted edits).build = .ok finished →
      (∀ url, .setUri url ∉ edits) →
      (∀ text, .setTemplate text ∉ edits) →
      let outcome :=
        (Adapter.ofClient client).exchange finished network
      outcome.executions = [] ∧
        ∃ error,
          outcome.result = .error error ∧
            error.isConfiguration = true := by
  intro hAll
  obtain ⟨finished, hBuild⟩ :
      ∃ finished,
        (drafted parameterEdits).build = .ok finished :=
    ⟨_, rfl⟩
  have hSentTo := sentTo_parameter
  unfold RequestDraft.sentTo at hSentTo
  rw [hBuild] at hSentTo
  have hTarget :
      RequestDraft.localClient.resolveTarget finished =
        .ok parameterUrl :=
    hSentTo
  have hRefused := hAll parameterEdits finished
    RequestDraft.localClient
    (fun _ _ => .ok ⟨200, .empty, []⟩) hBuild
    (by simp [parameterEdits]) (by simp [parameterEdits])
  have hPrepared :
      RequestDraft.localClient.prepared finished =
        .ok ⟨.get, parameterUrl, .empty, none⟩ := by
    unfold Client.prepared Client.encoded
    rw [hTarget]
    cases hBuild
    rfl
  have hSent :=
    Adapter.exchange_dispatches RequestDraft.localClient
      finished (fun _ _ => .ok ⟨200, .empty, []⟩)
  rw [hPrepared] at hSent
  have hOne := hSent.symm.trans hRefused.1
  cases hOne

end RequestEdit

end ServiceCalls
