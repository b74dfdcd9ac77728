import ServiceCalls.Proofs.Group.Registrations

/-
  A declared group is one that is put together by hand.

  The types of a declaration are found in two ways.  They
  are named, or they are the accepted ones of its packages,
  where repetitions are dropped across all packages.  A group
  that is added with the same name and base URL, and is then
  given its packages one after the other, or the types with
  these names, ends up the same.

  Key definitions include:
    * `Declaration.registrations`
    * `Declaration.chained`

  Main declarations:
    * `TypeFilter.collect_eq_addAll`
    * `Declaration.performAll_registrations`
    * `Assembly.performAll_current`
    * `Assembly.perform_declare_eq_ok_iff`
    * `Assembly.declared_iff_chained`
-/

namespace ServiceCalls

------------------------------------------------------------
-- Types of a Declaration
------------------------------------------------------------

/- What is collected is what is accepted, added once. -/
theorem TypeFilter.collect_eq_addAll
    (filter : TypeFilter)
    (found types : List ServiceType) :
    filter.collect found types =
      ServiceType.addAll found
        (types.filter filter.accepts) := by
  induction types generalizing found with
  | nil => rfl
  | cons type rest ih =>
      cases hAccepts : filter.accepts type with
      | false =>
          rw [List.filter_cons_of_neg (by simp [hAccepts])]
          simp only [collect, hAccepts, Bool.false_and,
            Bool.false_eq_true, if_false]
          exact ih found
      | true =>
          rw [List.filter_cons_of_pos hAccepts,
            ServiceType.addAll]
          by_cases hFound : type ∈ found
          · simp only [collect, hAccepts, hFound, ih,
              List.contains_eq_mem, decide_true, Bool.not_true,
              Bool.and_false, Bool.false_eq_true, if_false,
              if_true]
          · simp only [collect, hAccepts, hFound, ih,
              List.contains_eq_mem, decide_false,
              Bool.not_false, Bool.and_true, if_true, if_false]

namespace Declaration

variable {discovery : Discovery}
variable {filter : TypeFilter}

theorem discoverTypes_eq_addAll
    (declaration : Declaration)
    (discovery : Discovery)
    (filter : TypeFilter) :
    declaration.discoverTypes discovery filter =
      ServiceType.addAll []
        (declaration.packages.flatMap
          (discovery.accepted · filter)) := by
  have hFrom (found : List ServiceType)
      (packages : List String) :
      packages.foldl
          (fun found package =>
            filter.collect found (discovery.candidates package))
          found =
        ServiceType.addAll found
          (packages.flatMap (discovery.accepted · filter)) := by
    induction packages generalizing found with
    | nil => rfl
    | cons package rest ih =>
        rw [List.foldl_cons, ih, filter.collect_eq_addAll,
          List.flatMap_cons, ServiceType.addAll_append]
        rfl
  exact hFrom [] declaration.packages

theorem findType_eq_ok_iff
    (discovery : Discovery)
    (name : String)
    (type : ServiceType) :
    findType discovery name = .ok type ↔
      discovery.find name = some type := by
  unfold findType
  cases discovery.find name <;> simp

/- What is found for all names is what is found for any. -/
theorem eq_filterMap_of_mapM
    {names : List String}
    {types : List ServiceType}
    (h : names.mapM (findType discovery) = .ok types) :
    types = names.filterMap discovery.find := by
  induction names generalizing types with
  | nil =>
      cases h
      rfl
  | cons name rest ih =>
      obtain ⟨type, others, hFirst, hOthers, rfl⟩ :=
        (Fallible.mapM_cons_eq_ok_iff ..).mp h
      rw [findType_eq_ok_iff] at hFirst
      rw [List.filterMap_cons_some hFirst, ih hOthers]

/- Types are resolved if all that are named are found. -/
theorem exists_resolveTypes_iff
    (declaration : Declaration)
    (discovery : Discovery)
    (filter : TypeFilter) :
    (∃ types,
        declaration.resolveTypes discovery filter =
          .ok types) ↔
      ∀ name ∈ declaration.types,
        discovery.find name ≠ none := by
  unfold resolveTypes
  cases hNames : declaration.types with
  | nil =>
      exact ⟨fun _ _ hMem => (nomatch hMem), fun _ => ⟨_, rfl⟩⟩
  | cons name rest =>
      change (∃ types : List ServiceType,
        (name :: rest).mapM (findType discovery) =
          .ok types) ↔ _
      simp only [Fallible.exists_mapM_ok, findType_eq_ok_iff,
        Option.ne_none_iff_exists']

------------------------------------------------------------
-- Registering One by One
------------------------------------------------------------

/-
  The steps that register the types of a declaration in a
  group: one for each type that is named and found, or else
  one for each package.
-/
def registrations
    (declaration : Declaration)
    (discovery : Discovery)
    (filter : TypeFilter) :
    List GroupStep :=
  if declaration.types.isEmpty then
    declaration.packages.map fun package =>
      .discover discovery package filter
  else
    (declaration.types.filterMap discovery.find).map
      fun type => .addTypes [type]

/- Add the group, and then register its types one by one. -/
def chained
    (declaration : Declaration)
    (discovery : Discovery)
    (filter : TypeFilter) :
    List AssemblyStep :=
  .addGroup declaration.name declaration.baseUrl [] ::
    (declaration.registrations discovery filter).map .current

theorem isRegistration_of_registrations
    (declaration : Declaration)
    (discovery : Discovery)
    (filter : TypeFilter) :
    ∀ step ∈ declaration.registrations discovery filter,
      step.isRegistration = true := by
  intro step hStep
  unfold registrations at hStep
  split at hStep
  · obtain ⟨package, _, rfl⟩ := List.mem_map.mp hStep
    rfl
  · obtain ⟨type, _, rfl⟩ := List.mem_map.mp hStep
    rfl

/- These steps offer the types that are resolved. -/
theorem addAll_offered
    {declaration : Declaration}
    {types : List ServiceType}
    (h : declaration.resolveTypes discovery filter =
      .ok types) :
    ServiceType.addAll []
        ((declaration.registrations discovery
          filter).flatMap GroupStep.offered) =
      ServiceType.addAll [] types := by
  unfold resolveTypes at h
  unfold registrations
  split at h
  · next hNone =>
      cases h
      have hApart :
          ([] ++ declaration.discoverTypes discovery
            filter).Nodup := by
        rw [List.nil_append, discoverTypes_eq_addAll]
        exact ServiceType.nodup_addAll List.nodup_nil _
      rw [if_pos hNone, List.flatMap_map]
      change ServiceType.addAll []
        (declaration.packages.flatMap
          (discovery.accepted · filter)) = _
      rw [← discoverTypes_eq_addAll]
      exact (ServiceType.addAll_of_nodup hApart).symm
  · next hSome =>
      rw [if_neg hSome, List.flatMap_map,
        eq_filterMap_of_mapM h]
      congr 1
      exact List.flatMap_singleton' _

/- A fresh group has the same types in the end. -/
theorem performAll_registrations
    {declaration : Declaration}
    {types : List ServiceType}
    (h : declaration.resolveTypes discovery filter =
      .ok types)
    {group : Group}
    (hFresh : group.types = []) :
    group.performAll
        (declaration.registrations discovery filter) =
      group.performAll [.addTypes types] := by
  have hAll := isRegistration_of_registrations
    declaration discovery filter
  rw [Group.performAll_of_registrations hAll, hFresh,
    addAll_offered h, ← hFresh]
  rfl

end Declaration

------------------------------------------------------------
-- Declared Groups
------------------------------------------------------------

namespace Assembly

theorem performCurrent_append
    (groups : List Group)
    (group : Group)
    (step : GroupStep) :
    performCurrent step (groups ++ [group]) =
      .ok (groups ++ [group.perform step]) := by
  induction groups with
  | nil => rfl
  | cons first rest ih =>
      rw [List.cons_append, performCurrent, ih]
      · rfl
      · simp

section

variable [DomainNames]

/- Steps of the last group leave all others as they are. -/
theorem performAll_current
    (template : ClientConfig)
    (groups : List Group)
    (group : Group)
    (steps : List GroupStep) :
    performAll ⟨template, groups ++ [group]⟩
        (steps.map .current) =
      .ok ⟨template, groups ++ [group.performAll steps]⟩ := by
  induction steps generalizing group with
  | nil => rfl
  | cons step rest ih =>
      have hStep :
          perform ⟨template, groups ++ [group]⟩
              (.current step) =
            .ok ⟨template,
              groups ++ [group.perform step]⟩ := by
        simp only [perform, performCurrent_append]
        rfl
      unfold performAll at ih ⊢
      rw [List.map_cons, List.foldlM_cons, hStep]
      exact ih (group.perform step)

/- Steps taken after a group was added may come with it. -/
theorem performAll_addGroup_current
    (assembly : Assembly)
    (name : Option String)
    (baseUrl : String)
    (steps : List GroupStep) :
    assembly.performAll
        (.addGroup name baseUrl [] :: steps.map .current) =
      assembly.addGroup name baseUrl steps := by
  unfold performAll
  rw [List.foldlM_cons]
  simp only [perform, addGroup]
  split
  · rfl
  · exact performAll_current assembly.template
      assembly.groups _ steps

/- A group that is declared is the one that is chained. -/
theorem addGroup_resolved
    {declaration : Declaration}
    {discovery : Discovery}
    {filter : TypeFilter}
    {types : List ServiceType}
    (h : declaration.resolveTypes discovery filter =
      .ok types)
    (assembly : Assembly) :
    assembly.performAll
        (declaration.chained discovery filter) =
      assembly.addGroup declaration.name declaration.baseUrl
        [.addTypes types] := by
  have hFresh :
      (Group.ofTemplate declaration.groupName
        declaration.baseUrl assembly.template).types = [] :=
    rfl
  have hGroup :=
    Declaration.performAll_registrations h hFresh
  unfold Declaration.chained
  rw [performAll_addGroup_current]
  unfold addGroup
  exact congrArg
    (fun group => if declaration.groupName ∈
        assembly.groupNames then _ else
      Except.ok { assembly with
        groups := assembly.groups ++ [group] }) hGroup

end

theorem exists_addGroup_iff
    (assembly : Assembly)
    (name : Option String)
    (baseUrl : String)
    (steps : List GroupStep) :
    (∃ next,
        assembly.addGroup name baseUrl steps = .ok next) ↔
      name.getD baseUrl ∉ assembly.groupNames := by
  unfold addGroup
  dsimp only
  split
  · next hTaken => simp [hTaken]
  · next hFree => exact ⟨fun _ => hFree, fun _ => ⟨_, rfl⟩⟩

section Accepted

variable [DomainNames]
variable {declaration : Declaration}
variable (hCheck : declaration.check = .ok ())
variable (discovery : Discovery)
variable (filter : TypeFilter)
variable (assembly : Assembly)

include hCheck

theorem perform_declare :
    assembly.perform (.declare declaration discovery filter) =
      declaration.resolveTypes discovery filter >>=
        fun types => assembly.addGroup declaration.name
          declaration.baseUrl [.addTypes types] := by
  change (declaration.check >>= fun _ => _) = _
  rw [hCheck]
  rfl

/- Types are found, and then it is as if put together. -/
theorem perform_declare_eq_ok_iff (next : Assembly) :
    assembly.perform (.declare declaration discovery filter) =
        .ok next ↔
      (∀ name ∈ declaration.types,
        discovery.find name ≠ none) ∧
      assembly.performAll
        (declaration.chained discovery filter) =
          .ok next := by
  rw [perform_declare hCheck,
    ← declaration.exists_resolveTypes_iff discovery filter]
  constructor
  · intro hDeclared
    obtain ⟨types, hTypes, hAdded⟩ :=
      Fallible.bind_eq_ok hDeclared
    exact ⟨⟨types, hTypes⟩,
      (addGroup_resolved hTypes assembly).trans hAdded⟩
  · rintro ⟨⟨types, hTypes⟩, hChained⟩
    rw [hTypes]
    exact (addGroup_resolved hTypes assembly).symm.trans
      hChained

/- Under a free name types that are found are enough. -/
theorem exists_perform_declare_iff
    (hFree : declaration.groupName ∉ assembly.groupNames) :
    (∃ next,
        assembly.perform
          (.declare declaration discovery filter) =
            .ok next) ↔
      ∀ name ∈ declaration.types,
        discovery.find name ≠ none := by
  constructor
  · rintro ⟨next, hDeclared⟩
    exact ((perform_declare_eq_ok_iff hCheck discovery filter
      assembly next).mp hDeclared).1
  · intro hAll
    obtain ⟨types, hTypes⟩ :=
      (declaration.exists_resolveTypes_iff
        discovery filter).mpr hAll
    rw [perform_declare hCheck, hTypes]
    exact (assembly.exists_addGroup_iff declaration.name
      declaration.baseUrl [.addTypes types]).mpr hFree

end Accepted

/-
  A declaration that passes its check gives what is put
  together by hand, and is accepted only if all types that it
  names are found.  Under a name that is free this is the
  only way in which it fails.
-/
theorem declared_iff_chained
    [DomainNames]
    {declaration : Declaration}
    (hCheck : declaration.check = .ok ())
    (discovery : Discovery)
    (filter : TypeFilter)
    (assembly : Assembly) :
    let declared := assembly.perform
      (.declare declaration discovery filter)
    let chained := assembly.performAll
      (declaration.chained discovery filter)
    (∀ next,
      declared = .ok next ↔
        (∀ name ∈ declaration.types,
          discovery.find name ≠ none) ∧
        chained = .ok next) ∧
    (declaration.groupName ∉ assembly.groupNames →
      ((∃ error, declared = .error error) ↔
        ∃ name ∈ declaration.types,
          discovery.find name = none)) := by
  intro declared chained
  refine ⟨perform_declare_eq_ok_iff hCheck discovery filter
    assembly, fun hFree => ?_⟩
  rw [Fallible.exists_error_iff,
    exists_perform_declare_iff hCheck discovery filter
      assembly hFree]
  push Not
  rfl

/- A source that repeats itself, and a type in two packages. -/
def repeatingSource : Discovery where
  candidates := fun package =>
    if package = "app" then
      [singleType "app::Users" "/users",
        singleType "app::admin::Roles" "/roles",
        singleType "app::Users" "/users"]
    else [singleType "app::admin::Roles" "/roles"]

/- A group with the types of a package and one inside it. -/
def adminDeclaration : Declaration where
  baseUrl := "http://a"
  name := none
  packages := ["app::admin", "app"]
  types := []

open PlainNames

/- Both ways, there are two types; the inner one is first. -/
theorem declared_of_repeating :
    ∃ assembly,
      (ofTemplate (.ofSettings (.standard none))).perform
        (.declare adminDeclaration repeatingSource
          ⟨[], []⟩) = .ok assembly ∧
      (ofTemplate (.ofSettings (.standard none))).performAll
        (adminDeclaration.chained repeatingSource
          ⟨[], []⟩) = .ok assembly ∧
      assembly.groups.map Group.types =
        [[singleType "app::admin::Roles" "/roles",
          singleType "app::Users" "/users"]] := by
  have hCheck : adminDeclaration.check = .ok () := by
    decide +kernel
  obtain ⟨hSame, hFails⟩ :=
    declared_iff_chained hCheck repeatingSource ⟨[], []⟩
      (ofTemplate (.ofSettings (.standard none)))
  cases hDeclared :
      (ofTemplate (.ofSettings (.standard none))).perform
        (.declare adminDeclaration repeatingSource
          ⟨[], []⟩) with
  | error error =>
      obtain ⟨name, hName, _⟩ :=
        (hFails (by decide)).mp ⟨error, hDeclared⟩
      cases hName
  | ok assembly =>
      have hChained := ((hSame assembly).mp hDeclared).2
      refine ⟨assembly, rfl, hChained, ?_⟩
      have hRun :
          ((ofTemplate
            (.ofSettings (.standard none))).performAll
              (adminDeclaration.chained repeatingSource
                ⟨[], []⟩)).map
              (fun assembly =>
                assembly.groups.map Group.types) =
            .ok [[singleType "app::admin::Roles" "/roles",
              singleType "app::Users" "/users"]] := by
        rfl
      rw [hChained] at hRun
      exact Except.ok.inj hRun

end Assembly

end ServiceCalls
