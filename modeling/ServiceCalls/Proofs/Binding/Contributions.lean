import ServiceCalls.Proofs.Binding.BuiltIn
import ServiceCalls.Proofs.Binding.NamedValues
import ServiceCalls.Proofs.Http.HeaderText

/-
  What arguments add to a request.

  Headers, cookies, parameters, and parts of a draft are
  lists.  The argument of a parameter adds to their ends:
  the named values that it stands for, if the parameter is
  bound to such values, and nothing otherwise.  What it adds
  depends on the parameter and the argument alone.

  Key definitions include:
    * `Contribution` and `RequestDraft.contents`
    * `NamedKind.added`
    * `NamedValue.entries`
    * `Edit.Contributes`
    * `Parameter.contribution`

  Main declarations:
    * `NamedKind.contents_enter`
    * `NamedKind.contents_resolve`
    * `NamedKind.contributes_of_bind`
    * `Resolver.contributes_of_chain`
-/

namespace ServiceCalls

------------------------------------------------------------
-- Contributions
------------------------------------------------------------

/- What is added to the lists of a draft. -/
structure Contribution where
  headers : Headers
  cookies : List (String × String)
  parameters : List (String × String)
  parts : List Part

namespace Contribution

/- Nothing. -/
def empty : Contribution :=
  ⟨.empty, [], [], []⟩

/- One after the other. -/
def append (first second : Contribution) : Contribution where
  headers := first.headers.appendAll second.headers
  cookies := first.cookies ++ second.cookies
  parameters := first.parameters ++ second.parameters
  parts := first.parts ++ second.parts

instance : Append Contribution :=
  ⟨append⟩

/- All of them in order. -/
def concat (contributions : List Contribution) :
    Contribution :=
  contributions.foldr append empty

theorem empty_append (added : Contribution) :
    empty ++ added = added :=
  rfl

theorem append_empty (added : Contribution) :
    added ++ empty = added := by
  obtain ⟨⟨fields⟩, cookies, parameters, parts⟩ := added
  change append _ _ = _
  simp [append, empty, Headers.appendAll, Headers.empty]

theorem append_assoc (first second third : Contribution) :
    first ++ second ++ third = first ++ (second ++ third) := by
  change append (append _ _) _ = append _ (append _ _)
  simp [append, Headers.appendAll]

theorem concat_cons
    (first : Contribution)
    (rest : List Contribution) :
    concat (first :: rest) = first ++ concat rest :=
  rfl

theorem concat_append (before after : List Contribution) :
    concat (before ++ after) =
      concat before ++ concat after := by
  induction before with
  | nil => rfl
  | cons first rest ih =>
      rw [List.cons_append, concat_cons, concat_cons, ih,
        append_assoc]

/- Contributions of which each is empty come to nothing. -/
theorem concat_eq_empty
    {contributions : List Contribution}
    (h : ∀ added ∈ contributions, added = empty) :
    concat contributions = empty := by
  induction contributions with
  | nil => rfl
  | cons first rest ih =>
      rw [List.forall_mem_cons] at h
      rw [concat_cons, h.1, empty_append, ih h.2]

theorem cookies_concat (contributions : List Contribution) :
    (concat contributions).cookies =
      contributions.flatMap (·.cookies) := by
  induction contributions with
  | nil => rfl
  | cons first rest ih => rw [List.flatMap_cons, ← ih]; rfl

theorem parameters_concat
    (contributions : List Contribution) :
    (concat contributions).parameters =
      contributions.flatMap (·.parameters) := by
  induction contributions with
  | nil => rfl
  | cons first rest ih => rw [List.flatMap_cons, ← ih]; rfl

theorem parts_concat (contributions : List Contribution) :
    (concat contributions).parts =
      contributions.flatMap (·.parts) := by
  induction contributions with
  | nil => rfl
  | cons first rest ih => rw [List.flatMap_cons, ← ih]; rfl

theorem headers_concat
    (contributions : List Contribution)
    (name : HeaderName) :
    (concat contributions).headers.values name =
      contributions.flatMap (·.headers.values name) := by
  induction contributions with
  | nil => rfl
  | cons first rest ih =>
      rw [List.flatMap_cons, ← ih, concat_cons]
      exact Headers.values_appendAll _ _ name

end Contribution

/- The lists of a draft. -/
def RequestDraft.contents (draft : RequestDraft) :
    Contribution where
  headers := draft.headers
  cookies := draft.cookies
  parameters := draft.parameters
  parts := draft.body.parts?.getD []

namespace RequestDraft

theorem contents_of_headers
    (draft : RequestDraft)
    (headers : Headers) :
    { draft with
      headers := draft.headers.appendAll headers }.contents =
      draft.contents ++
        { Contribution.empty with headers := headers } := by
  change Contribution.mk _ _ _ _ = .append _ _
  simp [Contribution.append, Contribution.empty, contents]

theorem contents_of_cookies
    (draft : RequestDraft)
    (cookies : List (String × String)) :
    { draft with cookies := draft.cookies ++ cookies }.contents =
      draft.contents ++
        { Contribution.empty with cookies := cookies } := by
  change Contribution.mk _ _ _ _ = .append _ _
  simp [Contribution.append, Contribution.empty, contents,
    Headers.appendAll, Headers.empty]

theorem contents_of_parameters
    (draft : RequestDraft)
    (parameters : List (String × String)) :
    { draft with
      parameters :=
        draft.parameters ++ parameters }.contents =
      draft.contents ++
        { Contribution.empty with
          parameters := parameters } := by
  change Contribution.mk _ _ _ _ = .append _ _
  simp [Contribution.append, Contribution.empty, contents,
    Headers.appendAll, Headers.empty]

theorem contents_of_parts
    {draft : RequestDraft}
    {before : List Part}
    (h : draft.body.parts? = some before)
    (parts : List Part) :
    { draft with body := .parts (before ++ parts) }.contents =
      draft.contents ++
        { Contribution.empty with parts := parts } := by
  change Contribution.mk draft.headers draft.cookies
    draft.parameters (before ++ parts) = .append _ _
  simp [Contribution.append, Contribution.empty, contents, h,
    Headers.appendAll, Headers.empty]

end RequestDraft

------------------------------------------------------------
-- What Values Add
------------------------------------------------------------

namespace NamedKind

/- What a value of a kind adds under a name. -/
def added
    (name : String)
    (item : Argument) :
    NamedKind → Contribution
  | .ofRole .header =>
      match item.toText with
      | .ok text =>
          { Contribution.empty with
            headers :=
              ⟨[(⟨lowerAscii name⟩, ⟨Text.encode text⟩)]⟩ }
      | .error _ => .empty
  | .ofRole .cookie =>
      match item.toText with
      | .ok text =>
          { Contribution.empty with
            cookies := [(name, text)] }
      | .error _ => .empty
  | .ofRole .parameter =>
      match item.toText with
      | .ok text =>
          { Contribution.empty with
            parameters := [(name, text)] }
      | .error _ => .empty
  | .ofRole .pathVariable => .empty
  | .ofRole .attribute => .empty
  | .ofRole .part => ofPart
  | .file => ofPart
where
  ofPart : Contribution :=
    match Part.ofArgument name item with
    | .ok part =>
        { Contribution.empty with parts := [part] }
    | .error _ => .empty

variable {kind : NamedKind}
variable {name : String}
variable {item : Argument}
variable {draft next : RequestDraft}

theorem contents_enterPart
    (h : enterPart draft name item = .ok next) :
    next.contents =
      draft.contents ++ added.ofPart name item := by
  unfold enterPart at h
  cases hParts : draft.body.parts? with
  | none =>
      rw [hParts] at h
      cases h
  | some parts =>
      rw [hParts] at h
      obtain ⟨part, hPart, rfl⟩ := Fallible.map_eq_ok h
      unfold added.ofPart
      rw [hPart]
      exact RequestDraft.contents_of_parts hParts [part]

theorem contents_enterHeader
    {text : String}
    {headers : Headers}
    (h : draft.headers.appendText name text = .ok headers) :
    { draft with headers := headers }.contents =
      draft.contents ++
        { Contribution.empty with
          headers :=
            ⟨[(⟨lowerAscii name⟩, ⟨Text.encode text⟩)]⟩ } := by
  obtain ⟨header, hName, hNext⟩ := Fallible.bind_eq_ok h
  obtain ⟨value, hValue, hMade⟩ := Fallible.bind_eq_ok hNext
  cases hMade
  rw [HeaderName.eq_of_read hName, HeaderValue.eq_of_read hValue]
  exact draft.contents_of_headers _

/- A value that is entered goes behind what there is. -/
theorem contents_enter
    (h : kind.enter name draft item = .ok next) :
    next.contents = draft.contents ++ kind.added name item := by
  cases kind with
  | file =>
      cases item with
      | file f => exact contents_enterPart h
      | _ => cases h
  | ofRole role =>
      cases role with
      | part => exact contents_enterPart h
      | «attribute» =>
          obtain ⟨value, _, hNext⟩ := Fallible.bind_eq_ok h
          cases hNext
          exact (Contribution.append_empty _).symm
      | pathVariable =>
          obtain ⟨text, _, hNext⟩ := Fallible.bind_eq_ok h
          cases hNext
          exact (Contribution.append_empty _).symm
      | cookie =>
          obtain ⟨text, hText, hNext⟩ := Fallible.bind_eq_ok h
          cases hNext
          simp only [added, hText]
          exact draft.contents_of_cookies _
      | parameter =>
          obtain ⟨text, hText, hNext⟩ := Fallible.bind_eq_ok h
          cases hNext
          simp only [added, hText]
          exact draft.contents_of_parameters _
      | header =>
          obtain ⟨text, hText, hNext⟩ := Fallible.bind_eq_ok h
          obtain ⟨headers, hHeaders, rfl⟩ :=
            Fallible.map_eq_ok hNext
          simp only [added, hText]
          exact contents_enterHeader hHeaders

theorem contents_enterAll
    {items : List Argument}
    (h : kind.enterAll name draft items = (next, .ok ())) :
    next.contents = draft.contents ++
      .concat (items.map (kind.added name)) := by
  induction items generalizing draft with
  | nil =>
      cases h
      exact (Contribution.append_empty _).symm
  | cons item rest ih =>
      unfold enterAll at h
      cases hFirst : kind.enter name draft item with
      | error error =>
          rw [hFirst] at h
          cases h
      | ok reached =>
          rw [hFirst] at h
          rw [ih h, contents_enter hFirst, List.map_cons,
            Contribution.concat_cons, Contribution.append_assoc]

/- What has one value for a name adds nothing. -/
theorem added_of_not_repeatable
    (h : kind.repeatable = false)
    (name : String)
    (item : Argument) :
    kind.added name item = .empty := by
  cases kind with
  | file => cases h
  | ofRole role =>
      cases role with
      | pathVariable => rfl
      | «attribute» => rfl
      | _ => cases h

end NamedKind

------------------------------------------------------------
-- What Arguments Add
------------------------------------------------------------

/- The named values that an argument stands for. -/
def NamedValue.entries
    (value : NamedValue)
    (argument : Argument) :
    List (String × Argument) :=
  match argument.present with
  | [] =>
      value.default?.toList.map fun text =>
        (value.name, .text text)
  | items => items.map fun item => (value.name, item)

namespace NamedKind

/- What named values of a kind add, in order. -/
def addedAll
    (kind : NamedKind)
    (entries : List (String × Argument)) :
    Contribution :=
  .concat (entries.map fun entry =>
    kind.added entry.1 entry.2)

theorem addedAll_append
    (kind : NamedKind)
    (before after : List (String × Argument)) :
    kind.addedAll (before ++ after) =
      kind.addedAll before ++ kind.addedAll after := by
  unfold addedAll
  rw [List.map_append, Contribution.concat_append]

theorem addedAll_of_not_repeatable
    {kind : NamedKind}
    (h : kind.repeatable = false)
    (entries : List (String × Argument)) :
    kind.addedAll entries = .empty := by
  apply Contribution.concat_eq_empty
  intro added hAdded
  obtain ⟨entry, _, rfl⟩ := List.mem_map.mp hAdded
  exact added_of_not_repeatable h entry.1 entry.2

variable {kind : NamedKind}
variable {value : NamedValue}
variable {draft next : RequestDraft}

/- Values of a kind that adds nothing are entered anyhow. -/
theorem contents_enterAll_of_not_repeatable
    (hKind : kind.repeatable = false)
    {name : String}
    {items : List Argument}
    (h : kind.enterAll name draft items = (next, .ok ())) :
    next.contents = draft.contents := by
  rw [contents_enterAll h, Contribution.concat_eq_empty,
    Contribution.append_empty]
  intro added hAdded
  obtain ⟨item, _, rfl⟩ := List.mem_map.mp hAdded
  exact added_of_not_repeatable hKind name item

theorem contents_resolveAbsent
    (h : kind.resolveAbsent value draft = (next, .ok ())) :
    next.contents = draft.contents ++
      kind.addedAll (value.default?.toList.map fun text =>
        (value.name, .text text)) := by
  unfold resolveAbsent at h
  cases hDefault : value.default? with
  | some text =>
      rw [hDefault] at h
      exact contents_enterAll h
  | none =>
      rw [hDefault] at h
      dsimp only at h
      split at h
      · cases h
      · cases h
        exact (Contribution.append_empty _).symm

/- An argument adds the values that it stands for. -/
theorem contents_resolve
    {argument : Argument}
    (h : kind.resolve value argument draft = (next, .ok ())) :
    next.contents = draft.contents ++
      kind.addedAll (value.entries argument) := by
  unfold resolve at h
  unfold NamedValue.entries
  cases hPresent : argument.present with
  | nil =>
      rw [hPresent] at h
      exact contents_resolveAbsent h
  | cons first rest =>
      rw [hPresent] at h
      dsimp only at h ⊢
      cases hKind : kind.repeatable with
      | true =>
          rw [hKind, if_pos rfl] at h
          rw [contents_enterAll h]
          unfold addedAll
          rw [List.map_map]
          rfl
      | false =>
          -- Path variables and attributes: whatever is made
          -- of the values, none of the lists changes.
          rw [addedAll_of_not_repeatable hKind,
            Contribution.append_empty]
          rw [hKind] at h
          simp only [Bool.false_eq_true, if_false] at h
          split at h
          · exact contents_enterAll_of_not_repeatable hKind h
          · split at h
            · cases h
            · exact contents_enterAll_of_not_repeatable hKind h

/- The entries of a map, each under its own name. -/
def mapEntries (entries : List (String × Argument)) :
    List (String × Argument) :=
  entries.flatMap fun entry =>
    (ValueRule.ofItem entry.1).entries entry.2

theorem contents_resolveEntries
    {entries : List (String × Argument)}
    (h : kind.resolveEntries draft entries = (next, .ok ())) :
    next.contents = draft.contents ++
      kind.addedAll (mapEntries entries) := by
  induction entries generalizing draft with
  | nil =>
      cases h
      exact (Contribution.append_empty _).symm
  | cons entry rest ih =>
      unfold resolveEntries at h
      cases hFirst : kind.resolve ⟨entry.1, false, none⟩
          entry.2 draft with
      | mk reached result =>
          rw [hFirst] at h
          cases result with
          | error error => cases h
          | ok _ =>
              unfold mapEntries
              rw [ih h, contents_resolve hFirst,
                List.flatMap_cons, addedAll_append,
                Contribution.append_assoc]
              rfl

theorem contents_resolveMap
    {argument : Argument}
    (h : kind.resolveMap argument draft = (next, .ok ())) :
    next.contents = draft.contents ++
      kind.addedAll
        (mapEntries
          ((ValueRule.entries? argument).getD [])) := by
  unfold resolveMap at h
  split at h
  · cases h
    exact (Contribution.append_empty _).symm
  · exact contents_resolveEntries h
  · exact contents_resolveEntries h
  · cases h

end NamedKind

------------------------------------------------------------
-- Edits That Only Add
------------------------------------------------------------

/- A step that adds this and nothing else, if it succeeds. -/
def Edit.Contributes
    (edit : Edit Unit)
    (added : Contribution) :
    Prop :=
  edit.Changes RequestDraft.contents (· ++ added)

namespace Edit

theorem contributes_of_keeps
    {edit : Edit Unit}
    (h : edit.Keeps RequestDraft.contents) :
    edit.Contributes .empty :=
  fun draft _ => (h draft).trans
    (Contribution.append_empty _).symm

theorem contributes_bind
    {first next : Edit Unit}
    {before after : Contribution}
    (hFirst : first.Contributes before)
    (hNext : next.Contributes after) :
    (Edit.bind first fun _ => next).Contributes
      (before ++ after) := by
  intro draft hOk
  rw [changes_bind hFirst hNext draft hOk]
  exact Contribution.append_assoc _ _ _

end Edit

theorem RequestDraft.hides_contents
    {field : DraftField}
    (h : field = .method ∨ field = .target) :
    Hides RequestDraft.contents field := by
  rcases h with rfl | rfl
  · exact fun _ _ => rfl
  · exact fun _ _ _ => rfl

------------------------------------------------------------
-- Binders
------------------------------------------------------------

/- The named values that the argument of a parameter holds. -/
def Parameter.entries
    (parameter : Parameter)
    (value : NamedValue)
    (argument : Argument) :
    List (String × Argument) :=
  if parameter.type = .map then
    NamedKind.mapEntries
      ((ValueRule.entries? argument).getD [])
  else
    { value with
      name := (NamedKind.nameOf? value parameter).getD ""
      }.entries argument

/- What an argument adds by the type of its parameter. -/
def Parameter.contributionByType
    (parameter : Parameter)
    (argument : Argument) :
    Contribution :=
  if parameter.type = .file then
    NamedKind.file.addedAll
      (parameter.entries .unnamed argument)
  else .empty

/- What the argument of a parameter adds. -/
def Parameter.contribution
    (supportsAttributes : Bool)
    (parameter : Parameter)
    (argument : Argument) :
    Contribution :=
  match parameter.binding with
  | none => parameter.contributionByType argument
  | some (.body _) => .empty
  | some (.named role value) =>
      if role = .attribute ∧ supportsAttributes = false then
        parameter.contributionByType argument
      else
        (NamedKind.ofRole role).addedAll
          (parameter.entries value argument)

theorem ValueRule.nameOf?_of_effectiveName
    {label name : String}
    {value : NamedValue}
    {parameter : Parameter}
    (h : effectiveName label value parameter = .ok name) :
    NamedKind.nameOf? value parameter = some name := by
  unfold effectiveName at h
  unfold NamedKind.nameOf?
  cases hEmpty : value.name.isEmpty with
  | true =>
      rw [hEmpty, if_pos rfl] at h
      rw [if_pos rfl]
      cases hName : parameter.name with
      | none =>
          rw [hName] at h
          cases h
      | some own =>
          rw [hName] at h
          cases h
          rfl
  | false =>
      simp only [hEmpty, Bool.false_eq_true, if_false] at h ⊢
      cases h
      rfl

/- A binder of a kind adds what the argument holds. -/
theorem NamedKind.contributes_of_bind
    (kind : NamedKind)
    {value : NamedValue}
    {parameter : Parameter}
    {binder : Binder}
    (h : kind.rule.bind value parameter = .ok binder)
    (argument : Argument) :
    (binder argument).Contributes
      (kind.addedAll (parameter.entries value argument)) := by
  apply Edit.changes_of_outcome
  intro draft next hOutcome
  unfold ValueRule.bind at h
  unfold Parameter.entries
  split at h
  · next hMap =>
      cases h
      rw [if_pos hMap]
      rw [outcome_addEntries] at hOutcome
      exact contents_resolveMap hOutcome
  · next hMap =>
      obtain ⟨name, hName, rfl⟩ := Fallible.map_eq_ok h
      rw [if_neg hMap, ValueRule.nameOf?_of_effectiveName hName,
        Option.getD_some]
      rw [outcome_addValue] at hOutcome
      exact contents_resolve hOutcome

namespace Resolver

variable {supports : Bool}
variable {parameter : Parameter}
variable {binder : Binder}

/- A body is no part; with parts, it is refused. -/
theorem contributes_body
    (required : Bool)
    (name : String)
    (argument : Argument) :
    (contributeBody required name argument).Contributes
      .empty := by
  unfold contributeBody
  split
  · split
    · intro draft hOk
      cases hOk
    · exact Edit.contributes_of_keeps (Edit.keeps_pure ())
  · intro draft hOk
    rw [RequestDraft.setBody_eq] at hOk ⊢
    dsimp only
    rw [Contribution.append_empty]
    unfold RequestDraft.contents
    cases hBody : draft.body with
    | empty => rfl
    | value before => rfl
    | parts items =>
        rw [hBody] at hOk
        cases hOk

theorem contributes_byType
    [DomainNames]
    (hBinder : byType parameter = .ok (some binder))
    (argument : Argument) :
    (binder argument).Contributes
      (parameter.contributionByType argument) := by
  unfold byType at hBinder
  unfold Parameter.contributionByType
  cases hType : parameter.type with
  | file =>
      rw [hType] at hBinder
      obtain ⟨made, hMade, hSame⟩ :=
        Fallible.map_eq_ok hBinder
      cases hSame
      exact NamedKind.file.contributes_of_bind hMade argument
  | uri =>
      rw [hType] at hBinder
      cases hBinder
      exact Edit.contributes_of_keeps (keeps_contributeUri
        (RequestDraft.hides_contents (.inr rfl)) argument)
  | method =>
      rw [hType] at hBinder
      cases hBinder
      exact Edit.contributes_of_keeps (keeps_contributeMethod
        (RequestDraft.hides_contents (.inl rfl)) argument)
  | _ =>
      rw [hType] at hBinder
      cases hBinder

/-
  Whatever a parameter is bound to, its argument only adds,
  and what it adds depends on nothing else.
-/
theorem contributes_of_chain
    [DomainNames]
    (hBinder : firstOf (chain [] supports) parameter =
      .ok (some binder))
    (argument : Argument) :
    (binder argument).Contributes
      (parameter.contribution supports argument) := by
  rw [firstOf_chain] at hBinder
  unfold byBinding at hBinder
  unfold Parameter.contribution
  cases hBinding : parameter.binding with
  | none =>
      rw [hBinding] at hBinder
      exact contributes_byType hBinder argument
  | some binding =>
      rw [hBinding] at hBinder
      cases binding with
      | body required =>
          cases hBinder
          exact contributes_body required _ argument
      | named role value =>
          dsimp only at hBinder ⊢
          split at hBinder
          · next hOff =>
              rw [if_pos hOff]
              exact contributes_byType hBinder argument
          · next hOn =>
              rw [if_neg hOn]
              obtain ⟨made, hMade, hSame⟩ :=
                Fallible.map_eq_ok hBinder
              cases hSame
              exact (NamedKind.ofRole role).contributes_of_bind
                hMade argument

end Resolver

end ServiceCalls
