import ServiceCalls.Proofs.Binding.BuiltIn

/-
  Null arguments of parameters.

  Null is an argument of its own, and it is a JSON value.
  Binders of single named values and of bodies treat both
  alike.  Those of maps, URLs, and request methods look for
  the first only, and refuse the second as a value of the
  wrong kind.

  Key definitions include:
    * `Parameter.TellsNullsApart`
    * `Binder.RefusesJsonNull`

  Main declarations:
    * `ValueRule.null_binder`
    * `Resolver.null_byType`
    * `Resolver.nullsAlike_iff`
    * `Resolver.nulls_not_always_alike`
-/

namespace ServiceCalls

/- There are two null arguments. -/
theorem Argument.isNull_iff (argument : Argument) :
    argument.isNull = true ↔
      argument = .null ∨ argument = .json .null := by
  cases argument with
  | json value => cases value <;> simp [isNull]
  | _ => simp [isNull]

/-
  A parameter that looks for null in one form: a map of
  named values, or one whose type makes it the URL or the
  method of the request.
-/
def Parameter.TellsNullsApart
    (supportsAttributes : Bool)
    (parameter : Parameter) :
    Prop :=
  (parameter.type = .map ∧
      ∃ role value,
        parameter.binding = some (.named role value)) ∨
    ((parameter.type = .uri ∨ parameter.type = .method) ∧
      parameter.BoundByType supportsAttributes)

------------------------------------------------------------
-- Single Binders
------------------------------------------------------------

namespace Binder

/-
  Null adds nothing, while JSON null is refused as a value
  of the wrong kind.
-/
def RefusesJsonNull
    (binder : Binder)
    (draft : RequestDraft) :
    Prop :=
  binder .null draft = ⟨draft, [], .ok ()⟩ ∧
    ∃ detail,
      binder (.json .null) draft =
        ⟨draft, [], .error (.invalidArgument detail)⟩

theorem RefusesJsonNull.ne
    {binder : Binder}
    {draft : RequestDraft}
    (h : RefusesJsonNull binder draft) :
    binder (.json .null) draft ≠ binder .null draft := by
  obtain ⟨hNull, detail, hJson⟩ := h
  rw [hNull, hJson]
  intro hSame
  cases hSame

end Binder

variable {supports : Bool}
variable {parameter : Parameter}
variable {binder : Binder}

/- Named values are treated alike unless they are a map. -/
theorem ValueRule.null_binder
    {rule : ValueRule}
    {value : NamedValue}
    (hBinder : rule.bind value parameter = .ok binder)
    (draft : RequestDraft) :
    (parameter.type ≠ .map ∧
      binder (.json .null) = binder .null) ∨
    (parameter.type = .map ∧
      Binder.RefusesJsonNull binder draft) := by
  unfold bind at hBinder
  split at hBinder
  · next hMap =>
      cases hBinder
      exact .inr ⟨hMap, rfl, _, rfl⟩
  · next hOther =>
      obtain ⟨name, _, rfl⟩ := Fallible.map_eq_ok hBinder
      exact .inl ⟨hOther, rfl⟩

namespace Resolver

section

variable [DomainNames]

/- Of the types that bind, files treat nulls alike. -/
theorem null_byType
    (hBinder : byType parameter = .ok (some binder))
    (draft : RequestDraft) :
    (parameter.type = .file ∧
      binder (.json .null) = binder .null) ∨
    ((parameter.type = .uri ∨ parameter.type = .method) ∧
      Binder.RefusesJsonNull binder draft) := by
  unfold byType at hBinder
  cases hType : parameter.type with
  | uri =>
      rw [hType] at hBinder
      cases hBinder
      exact .inr ⟨.inl rfl, rfl, _, rfl⟩
  | method =>
      rw [hType] at hBinder
      cases hBinder
      exact .inr ⟨.inr rfl, rfl, _, rfl⟩
  | file =>
      rw [hType] at hBinder
      obtain ⟨made, hMade, hSame⟩ :=
        Fallible.map_eq_ok hBinder
      cases hSame
      rcases ValueRule.null_binder hMade draft with
        ⟨_, hAlike⟩ | ⟨hMap, _⟩
      · exact .inl ⟨rfl, hAlike⟩
      · rw [hType] at hMap
        cases hMap
  | _ =>
      rw [hType] at hBinder
      cases hBinder

------------------------------------------------------------
-- Bound Parameters
------------------------------------------------------------

theorem null_of_boundByType
    (hType : parameter.BoundByType supports)
    (hBinder : byType parameter = .ok (some binder))
    (draft : RequestDraft) :
    (¬ parameter.TellsNullsApart supports ∧
      binder (.json .null) = binder .null) ∨
    (parameter.TellsNullsApart supports ∧
      Binder.RefusesJsonNull binder draft) := by
  rcases null_byType hBinder draft with
    ⟨hFile, hAlike⟩ | ⟨hTarget, hRefuses⟩
  · refine .inl ⟨?_, hAlike⟩
    rintro (⟨hMap, _⟩ | ⟨hUri | hMethod, _⟩)
    · cases hFile.symm.trans hMap
    · cases hFile.symm.trans hUri
    · cases hFile.symm.trans hMethod
  · exact .inr ⟨.inr ⟨hTarget, hType⟩, hRefuses⟩

/- A binder treats nulls alike, or refuses JSON null. -/
theorem null_of_chain
    (hBinder : firstOf (chain [] supports) parameter =
      .ok (some binder))
    (draft : RequestDraft) :
    (¬ parameter.TellsNullsApart supports ∧
      binder (.json .null) = binder .null) ∨
    (parameter.TellsNullsApart supports ∧
      Binder.RefusesJsonNull binder draft) := by
  rw [firstOf_chain] at hBinder
  unfold byBinding at hBinder
  cases hBinding : parameter.binding with
  | none =>
      rw [hBinding] at hBinder
      exact null_of_boundByType (.inl hBinding) hBinder draft
  | some binding =>
      rw [hBinding] at hBinder
      cases binding with
      | body required =>
          cases hBinder
          refine .inl ⟨?_, rfl⟩
          simp [Parameter.TellsNullsApart,
            Parameter.BoundByType, hBinding]
      | named role value =>
          dsimp only at hBinder
          split at hBinder
          · next hOff =>
              rw [hOff.1] at hBinding
              exact null_of_boundByType
                (.inr ⟨hOff.2, value, hBinding⟩) hBinder draft
          · next hOn =>
              obtain ⟨made, hMade, hSame⟩ :=
                Fallible.map_eq_ok hBinder
              cases hSame
              rcases ValueRule.null_binder hMade draft with
                ⟨hOther, hAlike⟩ | ⟨hMap, hRefuses⟩
              · refine .inl ⟨?_, hAlike⟩
                simp only [Parameter.TellsNullsApart,
                  Parameter.BoundByType, hBinding]
                rintro (⟨hMap, _⟩ | ⟨_, hNone | hAsked⟩)
                · exact hOther hMap
                · cases hNone
                · obtain ⟨hOff, asked, hSame⟩ := hAsked
                  cases hSame
                  exact hOn ⟨rfl, hOff⟩
              · exact .inr
                  ⟨.inl ⟨hMap, role, value, hBinding⟩,
                    hRefuses⟩

/-
  All null arguments come to the same, on every draft,
  exactly if the parameter does not tell them apart.  One
  that does takes null for nothing and refuses JSON null.
-/
theorem nullsAlike_iff
    (hBinder : firstOf (chain [] supports) parameter =
      .ok (some binder))
    (draft : RequestDraft) :
    ((∀ argument : Argument, argument.isNull = true →
        binder argument draft = binder .null draft) ↔
      ¬ parameter.TellsNullsApart supports) ∧
    (parameter.TellsNullsApart supports →
      Binder.RefusesJsonNull binder draft) := by
  rcases null_of_chain hBinder draft with
    ⟨hAlike, hSame⟩ | ⟨hApart, hRefuses⟩
  · refine ⟨⟨fun _ => hAlike, fun _ argument hNull => ?_⟩,
      fun hApart => absurd hApart hAlike⟩
    rcases (Argument.isNull_iff argument).mp hNull with
      hPlain | hJson
    · rw [hPlain]
    · rw [hJson, hSame]
  · refine ⟨⟨fun hAll => ?_, fun hAlike => ?_⟩,
      fun _ => hRefuses⟩
    · exact absurd (hAll (.json .null) rfl) hRefuses.ne
    · exact absurd hApart hAlike

end

/- A cookie with a default. -/
def sessionCookie : Parameter :=
  (Parameter.named "session" .value).withBinding
    (.named .cookie ⟨"", false, some "none"⟩)

open PlainNames

/- The default stands for both nulls of a cookie. -/
theorem nullsAlike_session :
    ∃ binder : Binder,
      firstOf (chain [] false) sessionCookie =
        .ok (some binder) ∧
      (∀ argument : Argument, argument.isNull = true →
        binder argument .empty = binder .null .empty) ∧
      (binder .null .empty).draft.cookies =
        [("session", "none")] := by
  have hBinder :
      firstOf (chain [] false) sessionCookie =
        .ok (some (Role.cookie.rule.addValue
          ⟨"session", false, some "none"⟩)) :=
    rfl
  refine ⟨_, hBinder,
    (nullsAlike_iff hBinder _).1.mpr ?_, rfl⟩
  simp [Parameter.TellsNullsApart, Parameter.BoundByType,
    sessionCookie, Parameter.withBinding, Parameter.named]

/- JSON null is no URL, although null keeps the template. -/
theorem nulls_not_always_alike :
    ¬ ∀ (supports : Bool) (parameter : Parameter)
        (binder : Binder),
      firstOf (chain [] supports) parameter =
        .ok (some binder) →
      ∀ (draft : RequestDraft) (argument : Argument),
        argument.isNull = true →
        binder argument draft = binder .null draft := by
  intro hAlways
  have hSame := hAlways false (Parameter.named "u" .uri)
    contributeUri rfl .empty (.json .null) rfl
  have hResult := congrArg Edited.result hSame
  cases hResult

end Resolver

end ServiceCalls
