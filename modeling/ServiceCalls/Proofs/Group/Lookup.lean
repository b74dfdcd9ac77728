import Mathlib.Data.List.Nodup
import ServiceCalls.Proofs.Group.Entries
import ServiceCalls.Proofs.Group.Isolation

/-
  Lookups find what a scan of the groups finds.

  The index of a registry is made once, from the proxies of
  its groups.  The positions it has for a type are those of
  the groups that have the type, in order.  The names of the
  groups are apart, as no name is added twice, so that a
  group is found by its name.

  Key definitions include:
    * `TypeIndex.positionsFrom`
    * `Group.listing` and `ProxyGroup.listing`
    * `AssemblyStep.addedName?`
    * `Registry.Finds`

  Main declarations:
    * `TypeIndex.positions_addGroups`
    * `Registry.proxy?_ofGroups`
    * `Assembly.groupNames_performAll`
    * `Assembly.listing_createGroups`
    * `Assembly.finds_of_build`
-/

namespace ServiceCalls

------------------------------------------------------------
-- Indexes
------------------------------------------------------------

theorem ProxyGroup.contains_iff
    (group : ProxyGroup)
    (type : ServiceType) :
    group.contains type = true ↔
      type ∈ group.entries.map (·.type) := by
  simp [contains]

theorem ProxyGroup.isSome_proxy?
    (group : ProxyGroup)
    (type : ServiceType) :
    (group.proxy? type).isSome = group.contains type := by
  unfold proxy? entry? contains
  rw [Option.isSome_map, List.isSome_find?]

namespace TypeIndex

/- The positions, from a start on, of groups with a type. -/
def positionsFrom (type : ServiceType) :
    Nat → List ProxyGroup → List Nat
  | _, [] => []
  | start, group :: rest =>
      if group.contains type then
        start :: positionsFrom type (start + 1) rest
      else positionsFrom type (start + 1) rest

variable {type : ServiceType}

theorem positions_cons
    (known : ServiceType)
    (found : List Nat)
    (rest : TypeIndex)
    (type : ServiceType) :
    positions ((known, found) :: rest) type =
      if known = type then found
      else positions rest type := by
  unfold positions
  by_cases hSame : known = type <;> simp [hSame]

theorem positions_add
    (index : TypeIndex)
    (known : ServiceType)
    (position : Nat)
    (type : ServiceType) :
    positions (add known position index) type =
      positions index type ++
        if known = type then [position] else [] := by
  induction index with
  | nil =>
      unfold add
      rw [positions_cons]
      rfl
  | cons entry rest ih =>
      obtain ⟨first, found⟩ := entry
      unfold add
      by_cases hFirst : first = known
      · subst hFirst
        by_cases hSame : first = type <;>
          simp [positions_cons, hSame]
      · rw [if_neg hFirst, positions_cons, positions_cons, ih]
        by_cases hSame : first = type
        · have hOther : known ≠ type := by
            intro hKnown
            exact hFirst (hSame.trans hKnown.symm)
          simp [hSame, hOther]
        · simp [hSame]

/- A group with a type adds its position, and adds it once. -/
theorem positions_addEntries
    {entries : List ProxyEntry}
    (h : (entries.map (·.type)).Nodup)
    (position : Nat)
    (index : TypeIndex) :
    positions
        (entries.foldl
          (fun index entry => add entry.type position index)
          index) type =
      positions index type ++
        if type ∈ entries.map (·.type) then [position]
        else [] := by
  induction entries generalizing index with
  | nil => simp
  | cons entry rest ih =>
      rw [List.map_cons, List.nodup_cons] at h
      rw [List.foldl_cons, ih h.2, positions_add]
      by_cases hSame : entry.type = type
      · subst hSame
        simp [h.1]
      · simp [hSame, Ne.symm hSame]

/- The index has the positions that a scan finds. -/
theorem positions_addGroups
    {groups : List ProxyGroup}
    (h : ∀ group ∈ groups,
      (group.entries.map (·.type)).Nodup)
    (start : Nat)
    (index : TypeIndex) :
    positions (addGroups index start groups) type =
      positions index type ++
        positionsFrom type start groups := by
  induction groups generalizing start index with
  | nil => simp [addGroups, positionsFrom]
  | cons group rest ih =>
      rw [List.forall_mem_cons] at h
      rw [addGroups, ih h.2, positions_addEntries h.1,
        positionsFrom]
      simp only [group.contains_iff]
      split
      · simp
      · simp

/- What is at these positions are the groups with the type. -/
theorem getElem?_positionsFrom
    (type : ServiceType)
    (before groups : List ProxyGroup) :
    (positionsFrom type before.length groups).map
        ((before ++ groups)[·]?) =
      (groups.filter (·.contains type)).map some := by
  induction groups generalizing before with
  | nil => rfl
  | cons group rest ih =>
      -- The group is one of those before the rest, so that
      -- positions in the rest start behind it.
      have hRest := ih (before ++ [group])
      rw [List.length_append, List.length_singleton,
        List.append_assoc, List.singleton_append] at hRest
      unfold positionsFrom
      cases hContains : group.contains type with
      | true => simp [hContains, hRest]
      | false => simp [hContains, hRest]

end TypeIndex

------------------------------------------------------------
-- Registries
------------------------------------------------------------

namespace Registry

variable {groups : List ProxyGroup}
variable {type : ServiceType}

theorem located
    (h : ∀ group ∈ groups,
      (group.entries.map (·.type)).Nodup)
    (type : ServiceType) :
    ((ofGroups groups).index.positions type).map
        (groups[·]?) =
      (groups.filter (·.contains type)).map some := by
  have hPositions :
      (ofGroups groups).index.positions type =
        TypeIndex.positionsFrom type 0 groups :=
    TypeIndex.positions_addGroups h 0 []
  rw [hPositions]
  exact TypeIndex.getElem?_positionsFrom type [] groups

theorem namesAt_of_located
    {positions : List Nat}
    {holders : List ProxyGroup}
    (h : positions.map (groups[·]?) = holders.map some) :
    (ofGroups groups).namesAt positions =
      holders.map ProxyGroup.name := by
  have hNames :
      (positions.map (groups[·]?)).filterMap
          (Option.map ProxyGroup.name) =
        holders.map ProxyGroup.name := by
    rw [h, List.filterMap_map]
    change holders.filterMap (some ∘ ProxyGroup.name) = _
    rw [List.filterMap_eq_map]
  rw [List.filterMap_map] at hNames
  exact hNames

/- A lookup by type, read off the groups that have it. -/
theorem proxy?_ofGroups
    (h : ∀ group ∈ groups,
      (group.entries.map (·.type)).Nodup)
    (type : ServiceType) :
    (ofGroups groups).proxy? type =
      match groups.filter (·.contains type) with
      | [] => .ok none
      | [group] => .ok (group.proxy? type)
      | holders =>
          .error (.ambiguousClient type.name
            (holders.map ProxyGroup.name)) := by
  have hLocated := located h type
  unfold proxy?
  generalize (ofGroups groups).index.positions type =
    positions at hLocated ⊢
  generalize groups.filter (·.contains type) =
    holders at hLocated ⊢
  -- There are as many positions as groups, so that of their
  -- cases only those on the diagonal are left.
  cases positions with
  | nil =>
      cases holders with
      | nil => rfl
      | cons group others => cases hLocated
  | cons position later =>
      cases holders with
      | nil => cases hLocated
      | cons group others =>
          have hNames := namesAt_of_located hLocated
          rw [List.map_cons, List.map_cons,
            List.cons.injEq] at hLocated
          obtain ⟨hFirst, hLater⟩ := hLocated
          cases later with
          | nil =>
              cases others with
              | nil =>
                  change Except.ok ((groups[position]?).bind
                    _) = _
                  rw [hFirst]
                  rfl
              | cons second rest => cases hLater
          | cons next rest =>
              cases others with
              | nil => cases hLater
              | cons second rest =>
                  change Except.error
                    (ServiceError.ambiguousClient type.name _) =
                      _
                  rw [hNames]

/- Names that are apart lead to their groups. -/
theorem group?_of_mem
    {registry : Registry}
    (hNames : registry.groupNames.Nodup)
    {group : ProxyGroup}
    (hMem : group ∈ registry.groups) :
    registry.group? group.name = some group := by
  have hThere :
      (registry.group? group.name).isSome = true := by
    unfold group?
    rw [List.find?_isSome]
    exact ⟨group, hMem, beq_self_eq_true group.name⟩
  obtain ⟨found, hFound⟩ := Option.isSome_iff_exists.mp hThere
  have hName : found.name = group.name := by
    simpa using List.find?_some hFound
  have hSame : found = group :=
    List.inj_on_of_nodup_map hNames
      (List.mem_of_find?_eq_some hFound) hMem hName
  rw [hFound, hSame]

end Registry

------------------------------------------------------------
-- Names and Types of Groups
------------------------------------------------------------

/- The name of the group that a step adds, if it succeeds. -/
def AssemblyStep.addedName? : AssemblyStep → Option String
  | .addGroup name baseUrl _ => some (name.getD baseUrl)
  | .declare declaration _ _ => some declaration.groupName
  | .current _ => none
  | .each _ => none

theorem AssemblyStep.addedName?_of_founding
    {step : AssemblyStep}
    {founding : Founding}
    (h : step.founding? = some founding) :
    step.addedName? = some founding.name := by
  cases step with
  | addGroup name baseUrl steps =>
      cases h
      rfl
  | declare declaration discovery filter =>
      cases hTypes :
          declaration.resolveTypes discovery filter with
      | error error => simp [founding?, hTypes] at h
      | ok types =>
          simp only [founding?, hTypes] at h
          cases h
          rfl
  | current own => cases h
  | each steps => cases h

theorem ServiceType.nodup_addAll
    {known : List ServiceType}
    (h : known.Nodup)
    (types : List ServiceType) :
    (addAll known types).Nodup := by
  induction types generalizing known with
  | nil => exact h
  | cons type rest ih =>
      unfold addAll
      split
      · exact ih h
      · next hNew =>
          apply ih
          rw [← List.concat_eq_append]
          exact h.concat hNew

namespace Group

theorem name_perform (group : Group) (step : GroupStep) :
    (group.perform step).name = group.name := by
  cases step <;> rfl

theorem name_performAll
    (group : Group)
    (steps : List GroupStep) :
    (group.performAll steps).name = group.name := by
  unfold performAll
  induction steps generalizing group with
  | nil => rfl
  | cons step rest ih =>
      rw [List.foldl_cons, ih, name_perform]

theorem nodup_perform
    {group : Group}
    (h : group.types.Nodup)
    (step : GroupStep) :
    (group.perform step).types.Nodup := by
  cases step with
  | addTypes types => exact ServiceType.nodup_addAll h _
  | discover discovery package filter =>
      exact ServiceType.nodup_addAll h _
  | configureClient configure => exact h
  | configureFactory configure => exact h

theorem nodup_performAll
    {group : Group}
    (h : group.types.Nodup)
    (steps : List GroupStep) :
    (group.performAll steps).types.Nodup := by
  unfold performAll
  induction steps generalizing group with
  | nil => exact h
  | cons step rest ih => exact ih (nodup_perform h step)

end Group

namespace Assembly

open AssemblyStep

variable {assembly next final : Assembly}

theorem names_performCurrent
    {own : GroupStep}
    {groups changed : List Group}
    (h : performCurrent own groups = .ok changed) :
    changed.map Group.name = groups.map Group.name := by
  fun_induction performCurrent own groups
      generalizing changed with
  | case1 => cases h
  | case2 group =>
      cases h
      simp [Group.name_perform]
  | case3 group others _ ih =>
      obtain ⟨later, hLater, rfl⟩ := Fallible.map_eq_ok h
      rw [List.map_cons, List.map_cons, ih hLater]

section

variable [DomainNames]

/- A step adds its name, which no group had, and no other. -/
theorem groupNames_perform
    {step : AssemblyStep}
    (h : assembly.perform step = .ok next) :
    next.groupNames =
        assembly.groupNames ++ step.addedName?.toList ∧
      ∀ name, step.addedName? = some name →
        name ∉ assembly.groupNames := by
  rcases perform_cases h with
    ⟨founding, hFounding, hFree, rfl⟩ |
    ⟨own, groups, rfl, hGroups, rfl⟩ |
    ⟨steps, rfl, rfl⟩
  · rw [addedName?_of_founding hFounding]
    constructor
    · simp [groupNames, Founding.group, Group.name_performAll,
        Group.ofTemplate]
    · rintro _ ⟨⟩
      exact hFree
  · constructor
    · simp [groupNames, addedName?,
        names_performCurrent hGroups]
    · rintro _ ⟨⟩
  · constructor
    · simp [groupNames, addedName?, Group.name_performAll]
    · rintro _ ⟨⟩

/- Groups have the names that were added, in order. -/
theorem groupNames_performAll
    {steps : List AssemblyStep}
    (h : assembly.performAll steps = .ok final) :
    final.groupNames =
      assembly.groupNames ++ steps.filterMap addedName? := by
  induction steps generalizing assembly with
  | nil =>
      cases h
      simp
  | cons step rest ih =>
      obtain ⟨next, hStep, hRest⟩ := Fallible.bind_eq_ok h
      rw [ih hRest, (groupNames_perform hStep).1]
      cases hAdded : step.addedName? <;> simp [hAdded]

theorem nodup_groupNames
    {steps : List AssemblyStep}
    (hNames : assembly.groupNames.Nodup)
    (h : assembly.performAll steps = .ok final) :
    final.groupNames.Nodup := by
  induction steps generalizing assembly with
  | nil =>
      cases h
      exact hNames
  | cons step rest ih =>
      obtain ⟨next, hStep, hRest⟩ := Fallible.bind_eq_ok h
      obtain ⟨hNext, hFree⟩ := groupNames_perform hStep
      apply ih _ hRest
      rw [hNext]
      cases hAdded : step.addedName? with
      | none => simpa using hNames
      | some name =>
          rw [Option.toList_some, ← List.concat_eq_append]
          exact hNames.concat (hFree name hAdded)

end

theorem failsOnly_addGroup
    (assembly : Assembly)
    (name : Option String)
    (baseUrl : String)
    (steps : List GroupStep) :
    Fallible.FailsOnly (·.isConfiguration = true)
      (assembly.addGroup name baseUrl steps) := by
  unfold addGroup
  dsimp only
  split
  · exact Fallible.failsOnly_error rfl
  · exact Fallible.failsOnly_ok _

theorem failsOnly_resolveTypes
    (declaration : Declaration)
    (discovery : Discovery)
    (filter : TypeFilter) :
    Fallible.FailsOnly (·.isConfiguration = true)
      (declaration.resolveTypes discovery filter) := by
  unfold Declaration.resolveTypes
  split
  · exact Fallible.failsOnly_ok _
  · apply Fallible.failsOnly_mapM
    intro name _
    unfold Declaration.findType
    split
    · exact Fallible.failsOnly_ok _
    · exact Fallible.failsOnly_error rfl

variable [DomainNames]

theorem failsOnly_perform
    (assembly : Assembly)
    {step : AssemblyStep}
    {name : String}
    (h : step.addedName? = some name) :
    Fallible.FailsOnly (·.isConfiguration = true)
      (assembly.perform step) := by
  cases step with
  | addGroup name baseUrl steps =>
      exact assembly.failsOnly_addGroup name baseUrl steps
  | declare declaration discovery filter =>
      apply Fallible.failsOnly_bind
      · unfold Declaration.check
        split
        · exact Fallible.failsOnly_ok _
        · exact Fallible.failsOnly_error rfl
      · intro _
        exact Fallible.failsOnly_bind
          (failsOnly_resolveTypes declaration discovery filter)
          fun types => assembly.failsOnly_addGroup _ _ _
  | current own => cases h
  | each steps => cases h

/- A name that is taken is not added again. -/
theorem perform_of_taken
    {step : AssemblyStep}
    {name : String}
    (hAdded : step.addedName? = some name)
    (hTaken : name ∈ assembly.groupNames) :
    ∃ error, assembly.perform step = .error error ∧
      error.isConfiguration = true := by
  cases hStep : assembly.perform step with
  | ok next =>
      have hFree := (groupNames_perform hStep).2 name hAdded
      exact absurd hTaken hFree
  | error error =>
      exact ⟨error, rfl,
        assembly.failsOnly_perform hAdded error hStep⟩

/- A group has each of its types once, whatever it lived. -/
theorem nodup_types
    {template : ClientConfig}
    {steps : List AssemblyStep}
    (h : (ofTemplate template).performAll steps = .ok final)
    {group : Group}
    (hMem : group ∈ final.groups) :
    group.types.Nodup := by
  have hAct (step : AssemblyStep) (group : Group)
      (hGroup : group.types.Nodup) :
      (act group step).types.Nodup := by
    cases step with
    | current own => exact Group.nodup_perform hGroup own
    | each steps => exact Group.nodup_performAll hGroup _
    | _ => exact hGroup
  have hFolded (steps : List AssemblyStep) (group : Group)
      (hGroup : group.types.Nodup) :
      (steps.foldl act group).types.Nodup := by
    induction steps generalizing group with
    | nil => exact hGroup
    | cons step rest ih => exact ih _ (hAct step group hGroup)
  -- Every group is what its history makes of the template.
  rw [performAll_groups h] at hMem
  obtain ⟨history, _, rfl⟩ := List.mem_map.mp hMem
  exact hFolded _ _ (Group.nodup_performAll List.nodup_nil _)

end Assembly

------------------------------------------------------------
-- Registries That Are Built
------------------------------------------------------------

namespace Group

/- The name of a group and its types. -/
def listing (group : Group) : String × List ServiceType :=
  (group.name, group.types)

/- The groups that have a type, in order. -/
def holders
    (groups : List Group)
    (type : ServiceType) :
    List Group :=
  groups.filter fun group => type ∈ group.types

theorem listing_holders
    (groups : List Group)
    (type : ServiceType) :
    (holders groups type).map listing =
      (groups.map listing).filter (type ∈ ·.2) := by
  rw [List.filter_map]
  rfl

end Group

namespace ProxyGroup

/- The name of a group and the types of its proxies. -/
def listing (group : ProxyGroup) :
    String × List ServiceType :=
  (group.name, group.entries.map (·.type))

theorem listing_filter_contains
    (groups : List ProxyGroup)
    (type : ServiceType) :
    (groups.filter (·.contains type)).map listing =
      (groups.map listing).filter (type ∈ ·.2) := by
  rw [List.filter_map]
  congr 1
  apply List.filter_congr
  intro group _
  rw [Bool.eq_iff_iff, contains_iff]
  exact decide_eq_true_iff.symm

end ProxyGroup

/- The proxies of groups are listed as the groups are. -/
theorem Assembly.listing_createGroups
    [DomainNames]
    [KnownMedia]
    {network : Network}
    {groups : List Group}
    {made : List ProxyGroup}
    (h : (createGroups groups network).result = .ok made) :
    made.map ProxyGroup.listing =
      groups.map Group.listing := by
  rw [result_createGroups] at h
  refine Fallible.map_of_mapM (fun group one hOne => ?_) h
  obtain ⟨entries, hEntries, rfl⟩ := Fallible.map_eq_ok hOne
  exact congrArg (Prod.mk group.name)
    (Group.types_createProxies hEntries)

------------------------------------------------------------
-- Lookups and Scans
------------------------------------------------------------

namespace Registry

/-
  What is looked up in a registry is what is found among
  some groups: by a type that no group has, that one has, or
  that several have, and by a name and a type.
-/
structure Finds
    (registry : Registry)
    (groups : List Group) :
    Prop where
  unknown : ∀ type, Group.holders groups type = [] →
    registry.proxy? type = .ok none
  single : ∀ type group, Group.holders groups type = [group] →
    ∃ proxy,
      registry.proxy? type = .ok (some proxy) ∧
      registry.proxyInGroup? group.name type = some proxy
  several : ∀ type, 2 ≤ (Group.holders groups type).length →
    registry.proxy? type =
      .error (.ambiguousClient type.name
        ((Group.holders groups type).map Group.name))
  named : ∀ name type,
    (registry.proxyInGroup? name type).isSome = true ↔
      ∃ group ∈ groups, group.name = name ∧
        type ∈ group.types

variable {groups : List Group}
variable {made : List ProxyGroup}

theorem names_of_listing
    (h : made.map ProxyGroup.listing =
      groups.map Group.listing) :
    made.map ProxyGroup.name = groups.map Group.name := by
  have hNames := congrArg (List.map Prod.fst) h
  simpa [ProxyGroup.listing, Group.listing,
    Function.comp_def] using hNames

theorem exists_group
    (h : made.map ProxyGroup.listing =
      groups.map Group.listing)
    {one : ProxyGroup}
    (hMem : one ∈ made) :
    ∃ group ∈ groups, group.name = one.name ∧
      group.types = one.entries.map (·.type) := by
  have hListed : one.listing ∈ groups.map Group.listing :=
    h ▸ List.mem_map_of_mem hMem
  obtain ⟨group, hGroup, hSame⟩ := List.mem_map.mp hListed
  exact ⟨group, hGroup, congrArg Prod.fst hSame,
    congrArg Prod.snd hSame⟩

theorem exists_made
    (h : made.map ProxyGroup.listing =
      groups.map Group.listing)
    {group : Group}
    (hMem : group ∈ groups) :
    ∃ one ∈ made, one.name = group.name ∧
      one.entries.map (·.type) = group.types := by
  have hListed :
      group.listing ∈ made.map ProxyGroup.listing :=
    h ▸ List.mem_map_of_mem hMem
  obtain ⟨one, hOne, hSame⟩ := List.mem_map.mp hListed
  exact ⟨one, hOne, congrArg Prod.fst hSame,
    congrArg Prod.snd hSame⟩

/- A group has proxies of the types that it is listed with. -/
theorem isSome_proxyInGroup?_iff
    (hListing : made.map ProxyGroup.listing =
      groups.map Group.listing)
    (hNames : (ofGroups made).groupNames.Nodup)
    (name : String)
    (type : ServiceType) :
    ((ofGroups made).proxyInGroup? name type).isSome =
        true ↔
      ∃ group ∈ groups, group.name = name ∧
        type ∈ group.types := by
  constructor
  · intro hSome
    obtain ⟨proxy, hProxy⟩ :=
      Option.isSome_iff_exists.mp hSome
    obtain ⟨one, hOne, hFound⟩ :=
      Option.bind_eq_some_iff.mp hProxy
    have hName : one.name = name := by
      simpa using List.find?_some hOne
    have hHas : one.contains type = true := by
      rw [← one.isSome_proxy?, hFound]
      rfl
    obtain ⟨group, hGroup, hSame, hTypes⟩ :=
      exists_group hListing (List.mem_of_find?_eq_some hOne)
    refine ⟨group, hGroup, hSame.trans hName, ?_⟩
    rw [hTypes]
    exact (one.contains_iff type).mp hHas
  · rintro ⟨group, hGroup, rfl, hType⟩
    obtain ⟨one, hMem, hName, hTypes⟩ :=
      exists_made hListing hGroup
    have hFound :
        (ofGroups made).group? one.name = some one :=
      group?_of_mem hNames hMem
    unfold proxyInGroup?
    rw [← hName, hFound, Option.bind_some,
      one.isSome_proxy?, one.contains_iff, hTypes]
    exact hType

/- A registry finds what the groups are listed with. -/
theorem finds_of_listing
    (hListing : made.map ProxyGroup.listing =
      groups.map Group.listing)
    (hNames : (groups.map Group.name).Nodup)
    (hTypes : ∀ group ∈ groups, group.types.Nodup) :
    (ofGroups made).Finds groups := by
  have hApart : (ofGroups made).groupNames.Nodup := by
    rw [← names_of_listing hListing] at hNames
    exact hNames
  have hEntries (one : ProxyGroup) (hMem : one ∈ made) :
      (one.entries.map (·.type)).Nodup := by
    obtain ⟨group, hGroup, _, hSame⟩ :=
      exists_group hListing hMem
    rw [← hSame]
    exact hTypes group hGroup
  have hHolders (type : ServiceType) :
      (made.filter (·.contains type)).map
          ProxyGroup.listing =
        (Group.holders groups type).map Group.listing := by
    rw [ProxyGroup.listing_filter_contains,
      Group.listing_holders, hListing]
  refine ⟨fun type hNone => ?_, fun type group hOne => ?_,
    fun type hMany => ?_,
    isSome_proxyInGroup?_iff hListing hApart⟩
  · have hSame := hHolders type
    rw [hNone, List.map_nil, List.map_eq_nil_iff] at hSame
    rw [proxy?_ofGroups hEntries, hSame]
  · have hSame := hHolders type
    rw [hOne, List.map_singleton,
      List.map_eq_singleton_iff] at hSame
    obtain ⟨one, hHolder, hListed⟩ := hSame
    have hMem : one ∈ made.filter (·.contains type) := by
      rw [hHolder]
      exact List.mem_singleton_self one
    obtain ⟨hMade, hContains⟩ := List.mem_filter.mp hMem
    have hName : one.name = group.name :=
      congrArg Prod.fst hListed
    rw [← one.isSome_proxy?] at hContains
    obtain ⟨proxy, hProxy⟩ :=
      Option.isSome_iff_exists.mp hContains
    have hFound :
        (ofGroups made).group? one.name = some one :=
      group?_of_mem hApart hMade
    refine ⟨proxy, ?_, ?_⟩
    · rw [proxy?_ofGroups hEntries, hHolder]
      exact congrArg Except.ok hProxy
    · unfold proxyInGroup?
      rw [← hName, hFound]
      exact hProxy
  · have hSame := hHolders type
    have hLength := congrArg List.length hSame
    rw [List.length_map, List.length_map] at hLength
    rw [← hLength] at hMany
    rw [proxy?_ofGroups hEntries, ← names_of_listing hSame]
    split
    · next hNone => simp [hNone] at hMany
    · next one hOne => simp [hOne] at hMany
    · rfl

end Registry

namespace Assembly

open AssemblyStep

/-
  The groups of a registry have the names that were added,
  in order, and these are apart.  Its lookups find what a
  scan of the groups finds.  Whatever was added before, a
  name that is taken is not added again.
-/
theorem finds_of_build
    [DomainNames]
    [KnownMedia]
    {template : ClientConfig}
    {steps : List AssemblyStep}
    {assembly : Assembly}
    (hSteps : (ofTemplate template).performAll steps =
      .ok assembly)
    {network : Network}
    {registry : Registry}
    (hBuild : (assembly.build network).result =
      .ok registry) :
    registry.groupNames = steps.filterMap addedName? ∧
    registry.groupNames.Nodup ∧
    registry.Finds assembly.groups ∧
    ∀ before current step name,
      (ofTemplate template).performAll before = .ok current →
      step.addedName? = some name →
      name ∈ before.filterMap addedName? →
      ∃ error, current.perform step = .error error ∧
        error.isConfiguration = true := by
  have hNames :
      assembly.groupNames = steps.filterMap addedName? :=
    groupNames_performAll hSteps
  have hNone : (ofTemplate template).groupNames.Nodup :=
    List.nodup_nil
  have hApart := nodup_groupNames hNone hSteps
  obtain ⟨made, hMade, hNext⟩ := Run.bind_eq_ok hBuild
  obtain ⟨_, _, hRegistry⟩ := Run.bind_eq_ok hNext
  cases hRegistry
  have hListing := listing_createGroups hMade
  have hSame :
      (Registry.ofGroups made).groupNames =
        assembly.groupNames :=
    Registry.names_of_listing hListing
  refine ⟨hSame.trans hNames, hSame ▸ hApart,
    Registry.finds_of_listing hListing hApart
      fun _ hMem => nodup_types hSteps hMem, ?_⟩
  intro before current step name hBefore hAdded hTaken
  apply perform_of_taken hAdded
  rw [groupNames_performAll hBefore]
  exact hTaken

/- A type of services with one method. -/
def singleType (name path : String) : ServiceType :=
  ⟨name, { ServiceDescriptor.empty with
    methods := [MethodDescriptor.exchange "list" .get path] }⟩

/- Two groups have users; the second has items, too. -/
def sharedUsers : List AssemblyStep :=
  [.addGroup (some "a") "http://a"
      [.addTypes [singleType "Users" "/users"]],
    .addGroup none "http://b"
      [.addTypes [singleType "Users" "/users",
        singleType "Items" "/items"]]]

open PlainNames CommonMedia

/- Items are looked up by their type alone, users are not. -/
theorem finds_of_shared :
    ∃ assembly registry,
      (ofTemplate (.ofSettings (.standard none))).performAll
        sharedUsers = .ok assembly ∧
      (assembly.build
        (fun _ _ => .ok ⟨200, .empty, []⟩)).result =
          .ok registry ∧
      registry.groupNames = ["a", "http://b"] ∧
      registry.proxy? (singleType "Users" "/users") =
        .error (.ambiguousClient "Users" ["a", "http://b"]) ∧
      ∃ proxy,
        registry.proxy? (singleType "Items" "/items") =
          .ok (some proxy) ∧
        registry.proxyInGroup? "http://b"
          (singleType "Items" "/items") = some proxy := by
  have hRun :
      ((ofTemplate (.ofSettings (.standard none))).performAll
        sharedUsers >>= fun assembly =>
          (assembly.build
            (fun _ _ => .ok ⟨200, .empty, []⟩)).result).isOk =
        true := by
    decide +kernel
  obtain ⟨registry, hRegistry⟩ := Fallible.exists_of_isOk hRun
  obtain ⟨assembly, hSteps, hBuild⟩ :=
    Fallible.bind_eq_ok hRegistry
  obtain ⟨hNames, _, hFinds, _⟩ :=
    finds_of_build hSteps hBuild
  cases hSteps
  have hItems :=
    hFinds.single (singleType "Items" "/items") _ rfl
  exact ⟨_, registry, rfl, hBuild, hNames,
    hFinds.several _ (by decide), hItems⟩

end Assembly

end ServiceCalls
