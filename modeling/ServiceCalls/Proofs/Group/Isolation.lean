import ServiceCalls.Group.Assembly
import ServiceCalls.Proofs.Fallible

/-
  Groups of one assembly do not affect each other.

  What a group is in the end depends on the template, on the
  step that added it, and on the steps that concern it: the
  steps of a single group while it was the last one, and the
  steps for all groups from then on.

  Key definitions include:
    * `Founding`
    * `AssemblyStep.concerning`
    * `History`
    * `histories`

  Main declarations:
    * `Assembly.perform_cases`
    * `Assembly.performAll_groups`
    * `Assembly.groups_eq_histories`
-/

namespace ServiceCalls

------------------------------------------------------------
-- Histories
------------------------------------------------------------

/- What a group is when it is added. -/
structure Founding where
  name : String
  baseUrl : String
  steps : List GroupStep

/- The group that is added. -/
def Founding.group
    (founding : Founding)
    (template : ClientConfig) :
    Group :=
  (Group.ofTemplate founding.name founding.baseUrl
    template).performAll founding.steps

namespace AssemblyStep

/-
  The group that a step adds.  A declaration whose types
  cannot be resolved adds none.
-/
def founding? : AssemblyStep → Option Founding
  | .addGroup name baseUrl steps =>
      some ⟨name.getD baseUrl, baseUrl, steps⟩
  | .declare declaration discovery filter =>
      match declaration.resolveTypes discovery filter with
      | .ok types =>
          some ⟨declaration.groupName, declaration.baseUrl,
            [.addTypes types]⟩
      | .error _ => none
  | .current _ => none
  | .each _ => none

/- What a step does to a group that it concerns. -/
def act (group : Group) : AssemblyStep → Group
  | .current step => group.perform step
  | .each steps => group.performAll (steps group)
  | .addGroup _ _ _ => group
  | .declare _ _ _ => group

/-
  The steps that concern a group, which is the newest one or
  not.  It stops being the newest when another is added.
-/
def concerning (newest : Bool) :
    List AssemblyStep → List AssemblyStep
  | [] => []
  | .current step :: rest =>
      if newest then .current step :: concerning newest rest
      else concerning newest rest
  | .each steps :: rest =>
      .each steps :: concerning newest rest
  | .addGroup _ _ _ :: rest => concerning false rest
  | .declare _ _ _ :: rest => concerning false rest

end AssemblyStep

/- How a group was added and what concerned it later. -/
structure History where
  founding : Founding
  steps : List AssemblyStep

/- What a group is after all that concerned it. -/
def History.group
    (history : History)
    (template : ClientConfig) :
    Group :=
  history.steps.foldl AssemblyStep.act
    (history.founding.group template)

/- The histories of all groups that steps add, in order. -/
def histories : List AssemblyStep → List History
  | [] => []
  | step :: rest =>
      match step.founding? with
      | some founding =>
          ⟨founding, AssemblyStep.concerning true rest⟩ ::
            histories rest
      | none => histories rest

------------------------------------------------------------
-- Single Steps
------------------------------------------------------------

namespace Assembly

open AssemblyStep

/- A group is added only under a name that is free. -/
theorem addGroup_ok
    {assembly next : Assembly}
    {name : Option String}
    {baseUrl : String}
    {steps : List GroupStep}
    (h : assembly.addGroup name baseUrl steps = .ok next) :
    name.getD baseUrl ∉ assembly.groupNames ∧
      next = { assembly with
        groups := assembly.groups ++
          [Founding.group ⟨name.getD baseUrl, baseUrl, steps⟩
            assembly.template] } := by
  simp only [addGroup] at h
  split at h
  · cases h
  · next hFree =>
      cases h
      exact ⟨hFree, rfl⟩

/- All that a step can do: found, act on the last, on all. -/
theorem perform_cases
    [DomainNames]
    {assembly next : Assembly}
    {step : AssemblyStep}
    (h : assembly.perform step = .ok next) :
    (∃ founding, step.founding? = some founding ∧
      founding.name ∉ assembly.groupNames ∧
      next = { assembly with
        groups := assembly.groups ++
          [founding.group assembly.template] }) ∨
    (∃ own groups, step = .current own ∧
      performCurrent own assembly.groups = .ok groups ∧
      next = { assembly with groups := groups }) ∨
    (∃ steps, step = .each steps ∧
      next = { assembly with
        groups := assembly.groups.map fun group =>
          group.performAll (steps group) }) := by
  cases step with
  | addGroup name baseUrl steps =>
      exact Or.inl ⟨_, rfl, addGroup_ok h⟩
  | declare declaration discovery filter =>
      apply Or.inl
      obtain ⟨_, -, h⟩ := Fallible.bind_eq_ok h
      obtain ⟨types, hTypes, h⟩ := Fallible.bind_eq_ok h
      refine ⟨⟨declaration.groupName, declaration.baseUrl,
        [.addTypes types]⟩, ?_, addGroup_ok h⟩
      simp only [founding?, hTypes]
  | current own =>
      obtain ⟨groups, hGroups, rfl⟩ := Fallible.map_eq_ok h
      exact Or.inr (Or.inl ⟨own, groups, rfl, hGroups, rfl⟩)
  | each steps =>
      cases h
      exact Or.inr (Or.inr ⟨steps, rfl, rfl⟩)

/- A step of the last group leaves it in its place. -/
theorem performCurrent_ne_nil
    {own : GroupStep}
    {groups changed : List Group}
    (h : performCurrent own groups = .ok changed) :
    changed ≠ [] := by
  fun_induction performCurrent own groups with
  | case1 => cases h
  | case2 group => cases h; simp
  | case3 group others _ _ =>
      obtain ⟨later, -, rfl⟩ := Fallible.map_eq_ok h
      simp

/- A group that is added ends the turn of the last one. -/
theorem concerning_of_founding
    {step : AssemblyStep}
    {founding : Founding}
    (h : step.founding? = some founding)
    (newest : Bool)
    (rest : List AssemblyStep) :
    concerning newest (step :: rest) =
      concerning false rest := by
  cases step with
  | addGroup name baseUrl steps => rfl
  | declare declaration discovery filter => rfl
  | current own => cases h
  | each steps => cases h

------------------------------------------------------------
-- Groups That Are There
------------------------------------------------------------

/- A group after the steps that concern it. -/
def lived
    (newest : Bool)
    (steps : List AssemblyStep)
    (group : Group) :
    Group :=
  (concerning newest steps).foldl act group

/- Groups after steps; only the last one is the newest. -/
def followed (steps : List AssemblyStep) :
    List Group → List Group
  | [] => []
  | [group] => [lived true steps group]
  | group :: rest =>
      lived false steps group :: followed steps rest

theorem followed_nil (groups : List Group) :
    followed [] groups = groups := by
  fun_induction followed [] groups with
  | case1 => rfl
  | case2 group => rfl
  | case3 group rest _ ih => rw [ih]; rfl

theorem followed_append_singleton
    (steps : List AssemblyStep)
    (groups : List Group)
    (group : Group) :
    followed steps (groups ++ [group]) =
      groups.map (lived false steps) ++
        [lived true steps group] := by
  induction groups with
  | nil => rfl
  | cons first rest ih =>
      rw [List.cons_append, followed, ih]
      · rfl
      · simp

theorem followed_of_founding
    {step : AssemblyStep}
    {founding : Founding}
    (h : step.founding? = some founding)
    (rest : List AssemblyStep)
    (groups : List Group) :
    followed (step :: rest) groups =
      groups.map (lived false rest) := by
  have hLived (newest : Bool) (group : Group) :
      lived newest (step :: rest) group =
        lived false rest group := by
    rw [lived, concerning_of_founding h, lived]
  fun_induction followed (step :: rest) groups with
  | case1 => rfl
  | case2 group => rw [hLived]; rfl
  | case3 group others _ ih => rw [hLived, ih]; rfl

theorem followed_current
    {own : GroupStep}
    {groups changed : List Group}
    (h : performCurrent own groups = .ok changed)
    (rest : List AssemblyStep) :
    followed (.current own :: rest) groups =
      followed rest changed := by
  fun_induction performCurrent own groups
      generalizing changed with
  | case1 => cases h
  | case2 group => cases h; rfl
  | case3 group others hOthers ih =>
      obtain ⟨later, hLater, rfl⟩ := Fallible.map_eq_ok h
      have hNonempty := performCurrent_ne_nil hLater
      rw [followed, followed, ih hLater]
      · rfl
      · exact hNonempty
      · exact hOthers

theorem followed_each
    (steps : Group → List GroupStep)
    (rest : List AssemblyStep)
    (groups : List Group) :
    followed (.each steps :: rest) groups =
      followed rest (groups.map fun group =>
        group.performAll (steps group)) := by
  fun_induction followed (.each steps :: rest) groups with
  | case1 => rfl
  | case2 group => rfl
  | case3 group others hOthers ih =>
      rw [ih, List.map_cons, followed]
      · rfl
      · simpa using hOthers

------------------------------------------------------------
-- Whole Runs
------------------------------------------------------------

/-
  A run takes each group that is there along the steps that
  concern it, and puts the groups it adds after them.
-/
theorem performAll_groups
    [DomainNames]
    {steps : List AssemblyStep}
    {assembly final : Assembly}
    (h : assembly.performAll steps = .ok final) :
    final.groups = followed steps assembly.groups ++
      (histories steps).map
        (History.group · assembly.template) := by
  induction steps generalizing assembly with
  | nil =>
      cases h
      simp only [followed_nil, histories, List.map_nil,
        List.append_nil]
  | cons step rest ih =>
      obtain ⟨next, hStep, hRest⟩ := Fallible.bind_eq_ok h
      rw [ih hRest]
      rcases perform_cases hStep with
        ⟨founding, hFounding, -, rfl⟩ |
        ⟨own, groups, rfl, hGroups, rfl⟩ |
        ⟨steps, rfl, rfl⟩
      · rw [followed_append_singleton,
          followed_of_founding hFounding]
        simp only [histories, hFounding, List.map_cons,
          List.append_assoc, List.cons_append,
          List.nil_append]
        rfl
      · rw [followed_current hGroups]
        rfl
      · rw [followed_each]
        rfl

/-
  Each group is what its own history makes of the template.
  Steps of other groups, and steps for all groups that came
  before it was added, are not part of that history.
-/
theorem groups_eq_histories
    [DomainNames]
    (template : ClientConfig)
    (steps : List AssemblyStep)
    (assembly : Assembly)
    (h : (ofTemplate template).performAll steps =
      .ok assembly) :
    assembly.groups =
      (histories steps).map (History.group · template) :=
  performAll_groups h

/- Steps that add two groups and give each its own header. -/
def twoGroups : List AssemblyStep :=
  [.addGroup (some "a") "http://a" [],
    .current (.configureClient (·.addHeader "X-A" "1")),
    .addGroup none "http://b" [],
    .all [.configureClient (·.addHeader "X-All" "2")],
    .current (.configureClient (·.addHeader "X-B" "3"))]

open PlainNames

/- The header of one group does not reach the other. -/
theorem twoGroups_eq_histories :
    ∃ assembly,
      (ofTemplate (.ofSettings (.standard none))).performAll
        twoGroups = .ok assembly ∧
      assembly.groups =
        (histories twoGroups).map
          (History.group · (.ofSettings (.standard none))) ∧
      assembly.groups.map (·.client.defaultHeaders) =
        [[("X-A", "1"), ("X-All", "2")],
          [("X-All", "2"), ("X-B", "3")]] := by
  have hRun :
      ∃ assembly, (ofTemplate
        (.ofSettings (.standard none))).performAll
          twoGroups = .ok assembly :=
    ⟨_, rfl⟩
  obtain ⟨assembly, hRun⟩ := hRun
  have hGroups := groups_eq_histories _ _ _ hRun
  refine ⟨assembly, hRun, hGroups, ?_⟩
  rw [hGroups]
  rfl

end Assembly

end ServiceCalls
