import Mathlib.Data.List.Forall2
import ServiceCalls.Proofs.Binding.Contributions
import ServiceCalls.Proofs.Calls.Methods

/-
  The order in which the arguments of a call are added.

  A call leaves behind the headers that its method declares,
  and then what its arguments add, parameter by parameter.
  Nothing that an argument added is taken away or moved by a
  later one.

  Key definitions include:
    * `ServiceMethod.declaredValues`

  Main declarations:
    * `ServiceMethod.values_declared`
    * `ServiceMethod.contributes_all`
    * `ServiceMethod.contributions_of_call`
-/

namespace ServiceCalls

------------------------------------------------------------
-- What Is Declared
------------------------------------------------------------

theorem RequestDraft.changes_insertHeader
    (name : HeaderName)
    (text : String) :
    (insertHeader name text).Changes RequestDraft.headers
      (·.insert name ⟨Text.encode text⟩) := by
  intro draft hOk
  change (Edit.bind (Edit.lift (HeaderValue.read text)) _
    draft).result = _ at hOk
  change (Edit.bind (Edit.lift (HeaderValue.read text)) _
    draft).draft.headers = _
  cases hRead : HeaderValue.read text with
  | error error =>
      rw [hRead] at hOk
      cases hOk
  | ok value =>
      rw [HeaderValue.eq_of_read hRead]
      rfl

namespace ServiceMethod

/- The values that a method declares for a header. -/
def declaredValues
    (method : ServiceMethod)
    (name : HeaderName) :
    List HeaderValue :=
  if name = .contentType then
    method.contentType.toList.map fun mediaType =>
      ⟨Text.encode mediaType⟩
  else if name = .accept then
    if method.accept.isEmpty then []
    else [⟨Text.encode (Text.join ", " method.accept)⟩]
  else []

/- Headers with the media type of what is sent. -/
def withContentType
    (method : ServiceMethod)
    (headers : Headers) :
    Headers :=
  match method.contentType with
  | some mediaType =>
      headers.insert .contentType ⟨Text.encode mediaType⟩
  | none => headers

/- Headers with the media types of what is accepted. -/
def withAccept
    (method : ServiceMethod)
    (headers : Headers) :
    Headers :=
  if method.accept.isEmpty then headers
  else
    headers.insert .accept
      ⟨Text.encode (Text.join ", " method.accept)⟩

theorem changes_declared (method : ServiceMethod) :
    method.declared.Changes RequestDraft.headers
      (method.withAccept ∘ method.withContentType) := by
  have hTemplate :
      (RequestDraft.setTemplate method.url).Changes
        RequestDraft.headers id :=
    Edit.changes_of_keeps (Edit.keeps_modify fun _ => rfl)
  rw [declared_eq]
  unfold declaredContent
  -- Request method and template leave the headers alone.
  change Edit.Changes _ RequestDraft.headers
    (((method.withAccept ∘ method.withContentType) ∘ id) ∘ id)
  apply Edit.changes_bind
  · apply Edit.changes_of_keeps
    split
    · exact Edit.keeps_modify fun _ => rfl
    · exact Edit.keeps_pure ()
  apply Edit.changes_bind hTemplate
  apply Edit.changes_bind
  · unfold withContentType
    cases method.contentType with
    | none => exact Edit.changes_of_keeps (Edit.keeps_pure ())
    | some mediaType =>
        exact RequestDraft.changes_insertHeader _ mediaType
  · unfold withAccept RequestDraft.setAccept
    split
    · exact Edit.changes_of_keeps (Edit.keeps_pure ())
    · exact RequestDraft.changes_insertHeader _ _

theorem values_declared
    {method : ServiceMethod}
    (hOk : (method.declared .empty).result = .ok ())
    (name : HeaderName) :
    (method.declared .empty).draft.headers.values name =
      method.declaredValues name := by
  have hType :
      (method.withContentType .empty).values name =
        if name = .contentType then
          method.contentType.toList.map fun mediaType =>
            ⟨Text.encode mediaType⟩
        else [] := by
    unfold withContentType
    cases method.contentType with
    | none => simp
    | some mediaType =>
        simp [Headers.values_insert, eq_comm]
  have hNames : HeaderName.accept ≠ .contentType := by decide
  rw [changes_declared method .empty hOk]
  change (method.withAccept (method.withContentType
    .empty)).values name = _
  unfold withAccept declaredValues
  split
  · simp [hType]
  · rw [Headers.values_insert, hType]
    by_cases hAccept : HeaderName.accept = name
    · subst hAccept
      simp [hNames]
    · rw [if_neg hAccept, if_neg (Ne.symm hAccept)]

/- Nothing but headers is declared of what parameters add. -/
theorem contents_declared (method : ServiceMethod) :
    (method.declared .empty).draft.contents =
      { Contribution.empty with
        headers :=
          (method.declared .empty).draft.headers } := by
  -- A view without headers shows what it shows at the start.
  have hOthers :
      method.declared.Keeps fun draft =>
        (draft.cookies, draft.parameters, draft.body) :=
    method.keeps_declared (fun _ _ => rfl) (fun _ _ _ => rfl)
      fun _ _ => rfl
  have hSame := hOthers .empty
  simp only [Prod.mk.injEq] at hSame
  obtain ⟨hCookies, hParameters, hBody⟩ := hSame
  unfold RequestDraft.contents
  rw [hCookies, hParameters, hBody]
  rfl

------------------------------------------------------------
-- Calls
------------------------------------------------------------

variable {supports : Bool}
variable {parameters : List Parameter}
variable {binders : List Binder}

/- Every binder adds what its own parameter says. -/
theorem forall₂_contributes
    [DomainNames]
    {serviceName name : String}
    (h : parameters.mapM
      (findBinder (Resolver.chain [] supports) serviceName
        name) = .ok binders) :
    List.Forall₂ (fun parameter binder =>
      ∀ argument, Edit.Contributes (binder argument)
        (parameter.contribution supports argument))
      parameters binders := by
  induction parameters generalizing binders with
  | nil =>
      cases h
      exact .nil
  | cons parameter rest ih =>
      obtain ⟨binder, others, hBinder, hOthers, rfl⟩ :=
        (Fallible.mapM_cons_eq_ok_iff ..).mp h
      rw [findBinder_eq_ok_iff] at hBinder
      exact .cons (Resolver.contributes_of_chain hBinder)
        (ih hOthers)

/- Arguments add in the order of their parameters. -/
theorem contributes_all
    (h : List.Forall₂ (fun parameter binder =>
      ∀ argument, Edit.Contributes (binder argument)
        (parameter.contribution supports argument))
      parameters binders)
    (arguments : List Argument) :
    (Edit.all (List.zipWith
      (fun binder argument => binder argument)
        binders arguments)).Contributes
      (.concat (List.zipWith (Parameter.contribution supports)
        parameters arguments)) := by
  induction h generalizing arguments with
  | nil =>
      exact Edit.contributes_of_keeps (Edit.keeps_pure ())
  | cons hFirst _ ih =>
      cases arguments with
      | nil =>
          exact Edit.contributes_of_keeps (Edit.keeps_pure ())
      | cons argument later =>
          exact Edit.contributes_bind (hFirst argument) (ih later)

variable {values? : Option EmbeddedValues}
variable {serviceName : String}
variable {service : ServiceDescriptor}
variable {descriptor : MethodDescriptor}
variable {method : ServiceMethod}
variable {arguments : List Argument}

/- A call is what is declared, then what is contributed. -/
theorem contents_of_call
    {added : Contribution}
    (hOk : (method.call arguments .empty).result = .ok ())
    (hAdded :
      (method.contributions arguments).Contributes added) :
    (method.call arguments .empty).draft.contents =
      (method.declared .empty).draft.contents ++ added := by
  obtain ⟨_, hContributed, hDraft⟩ := steps_of_call hOk
  rw [hDraft]
  exact hAdded _ hContributed

/-
  Every argument only adds, whatever was there, and what it
  adds depends on its parameter alone.  A call leaves what
  its method declares for headers, and then what arguments
  add, in the order of the parameters.
-/
theorem contributions_of_call
    [DomainNames]
    (hMethod : ofDescriptor (Resolver.chain [] supports)
      values? serviceName service descriptor = .ok method)
    (hOk : (method.call arguments .empty).result = .ok ()) :
    let draft := (method.call arguments .empty).draft
    let added := List.zipWith
      (Parameter.contribution supports)
      descriptor.parameters arguments
    arguments.length = descriptor.parameters.length ∧
    List.Forall₂ (fun parameter binder =>
      ∀ argument, Edit.Contributes (binder argument)
        (parameter.contribution supports argument))
      descriptor.parameters method.binders ∧
    draft.cookies = added.flatMap (·.cookies) ∧
    draft.parameters = added.flatMap (·.parameters) ∧
    draft.body.parts?.getD [] = added.flatMap (·.parts) ∧
    ∀ name, draft.headers.values name =
      method.declaredValues name ++
        added.flatMap (·.headers.values name) := by
  intro draft added
  obtain ⟨_, binders, _, hBinders, _, hMade⟩ :=
    (ofDescriptor_eq_ok_iff method).mp hMethod
  have hSame : method.binders = binders := by rw [hMade]
  rw [← hSame] at hBinders
  have hEach := forall₂_contributes hBinders
  have hContents := contents_of_call hOk
    (contributes_all hEach arguments)
  rw [contents_declared] at hContents
  refine ⟨?_, hEach, ?_, ?_, ?_, fun name => ?_⟩
  · rw [length_of_call hOk, hEach.length_eq]
  · rw [← Contribution.cookies_concat]
    exact congrArg Contribution.cookies hContents
  · rw [← Contribution.parameters_concat]
    exact congrArg Contribution.parameters hContents
  · rw [← Contribution.parts_concat]
    exact congrArg Contribution.parts hContents
  · rw [← Contribution.headers_concat,
      ← values_declared (steps_of_call hOk).1, ← Headers.values_appendAll]
    exact congrArg (·.headers.values name) hContents

/- A method with a header that two parameters have. -/
def taggedMethod : MethodDescriptor :=
  { MethodDescriptor.bare "find" with
    method := some .get
    accept := ["text/plain"]
    parameters :=
      [(Parameter.named "first" .value).withBinding
          (.named .header ⟨"X-Tag", true, none⟩),
        Parameter.ofRole .cookie "session",
        (Parameter.named "second" .value).withBinding
          (.named .header ⟨"x-tag", true, none⟩)] }

/- One argument is a list, in which null stands for nothing. -/
def taggedArguments : List Argument :=
  [.list [.text "a", .null, .text "b"], .text "s", .text "c"]

open PlainNames

/- Both parameters add to one header, lists item by item. -/
theorem contributions_of_tagged :
    ∃ method,
      ofDescriptor (Resolver.chain [] false) none "Items"
        .empty taggedMethod = .ok method ∧
      (method.call taggedArguments .empty).result = .ok () ∧
      (method.call taggedArguments .empty).draft.cookies =
        [("session", "s")] ∧
      (method.call taggedArguments
        .empty).draft.headers.values ⟨"x-tag"⟩ =
          [⟨[97]⟩, ⟨[98]⟩, ⟨[99]⟩] := by
  have hMethod :
      ∃ method,
        ofDescriptor (Resolver.chain [] false) none "Items"
          .empty taggedMethod = .ok method ∧
        (method.call taggedArguments .empty).result = .ok () :=
    ⟨_, rfl, rfl⟩
  obtain ⟨method, hMade, hOk⟩ := hMethod
  obtain ⟨_, _, hCookies, _, _, hHeaders⟩ :=
    contributions_of_call hMade hOk
  refine ⟨method, hMade, hOk, ?_, ?_⟩
  · rw [hCookies]
    rfl
  · rw [hHeaders]
    rfl

end ServiceMethod

end ServiceCalls
