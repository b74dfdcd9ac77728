import ServiceCalls.Group.Assembly
import ServiceCalls.Proofs.Calls.Creation

/-
  The proxies of a group are made all together or not at all.

  There is one for each type, in order, if the client of the
  group and its factory can be built and the declarations of
  all types are accepted.  Registries are made from groups in
  the same way.

  Key definitions include:
    * `ProxyFactory.Accepts`
    * `ProxyFactory.entryOf`

  Main declarations:
    * `Run.result_bind`
    * `Group.result_createProxies`
    * `Group.exists_createProxies_iff`
    * `Assembly.result_createGroups`
-/

namespace ServiceCalls

------------------------------------------------------------
-- Results of Runs
------------------------------------------------------------

theorem Run.result_bind
    {α β : Type}
    (first : Run α)
    (next : α → Run β)
    (network : Network) :
    ((first >>= next) network).result =
      (first network).result >>= fun a =>
        (next a network).result := by
  change (Run.bind first next network).result = _
  cases hFirst : (first network).result with
  | error error => simp [Run.bind, hFirst, Bind.bind,
      Except.bind]
  | ok a => simp [Run.bind, hFirst, Bind.bind, Except.bind]

theorem Run.bind_eq_ok
    {α β : Type}
    {first : Run α}
    {next : α → Run β}
    {network : Network}
    {b : β}
    (h : ((first >>= next) network).result = .ok b) :
    ∃ a, (first network).result = .ok a ∧
      (next a network).result = .ok b := by
  rw [result_bind] at h
  exact Fallible.bind_eq_ok h

------------------------------------------------------------
-- Entries
------------------------------------------------------------

namespace ProxyFactory

/- Names of methods are apart, and all methods are ready. -/
structure Accepts
    (factory : ProxyFactory)
    (service : ServiceDescriptor) :
    Prop where
  names : (service.methods.map (·.name)).Nodup
  ready : ∀ descriptor ∈ service.methods,
    descriptor.Ready factory.resolvers
      factory.embeddedValues service

/- The entry of a type, if its declaration is accepted. -/
def entryOf
    (factory : ProxyFactory)
    (type : ServiceType) :
    Except ServiceError ProxyEntry :=
  (factory.proxyOf type.name type.descriptor).map
    (ProxyEntry.mk type)

theorem entryOf_eq_ok_iff
    (factory : ProxyFactory)
    (type : ServiceType)
    (entry : ProxyEntry) :
    factory.entryOf type = .ok entry ↔
      entry.type = type ∧
        factory.proxyOf type.name type.descriptor =
          .ok entry.proxy := by
  unfold entryOf
  constructor
  · intro hEntry
    obtain ⟨proxy, hProxy, rfl⟩ := Fallible.map_eq_ok hEntry
    exact ⟨rfl, hProxy⟩
  · rintro ⟨rfl, hProxy⟩
    rw [hProxy]
    rfl

theorem types_of_mapM_entryOf
    {factory : ProxyFactory}
    {types : List ServiceType}
    {entries : List ProxyEntry}
    (h : types.mapM factory.entryOf = .ok entries) :
    entries.map (·.type) = types := by
  have hMade : entries.map (·.type) = types.map id :=
    Fallible.map_of_mapM
      (fun type entry hEntry =>
        ((factory.entryOf_eq_ok_iff type entry).mp hEntry).1)
      h
  rw [hMade, List.map_id]

end ProxyFactory

------------------------------------------------------------
-- Proxies of Groups
------------------------------------------------------------

namespace Group

theorem result_createEntries
    (factory : ProxyFactory)
    (types : List ServiceType)
    (network : Network) :
    (createEntries factory types network).result =
      types.mapM factory.entryOf := by
  induction types with
  | nil => rfl
  | cons type rest ih =>
      rw [createEntries, Run.result_bind,
        ProxyFactory.result_createProxy, List.mapM_cons]
      unfold ProxyFactory.entryOf
      cases factory.proxyOf type.name type.descriptor with
      | error error => rfl
      | ok proxy =>
          change ((createEntries factory rest >>= fun entries =>
            pure (⟨type, proxy⟩ :: entries)) network).result = _
          rw [Run.result_bind, ih]
          rfl

variable [DomainNames] [KnownMedia]

/- The proxies of a group need its factory and all types. -/
theorem result_createProxies
    (group : Group)
    (network : Network) :
    (group.createProxies network).result =
      group.factory >>= fun factory =>
        group.types.mapM factory.entryOf := by
  unfold createProxies
  rw [Run.result_bind]
  congr 1
  funext factory
  rw [Run.result_bind, result_createEntries]
  cases group.types.mapM factory.entryOf <;> rfl

theorem factory_eq_ok_iff
    (group : Group)
    (factory : ProxyFactory) :
    group.factory = .ok factory ↔
      ∃ client,
        group.client.build = .ok client ∧
        (group.factoryConfig (.ofClient client)).build =
          .ok factory := by
  unfold Group.factory
  constructor
  · intro hFactory
    exact Fallible.bind_eq_ok hFactory
  · rintro ⟨client, hClient, hBuilt⟩
    rw [hClient]
    exact hBuilt

theorem createProxies_eq_ok_iff
    (group : Group)
    (network : Network)
    (entries : List ProxyEntry) :
    (group.createProxies network).result = .ok entries ↔
      ∃ factory,
        group.factory = .ok factory ∧
        group.types.mapM factory.entryOf = .ok entries := by
  rw [result_createProxies]
  constructor
  · intro hCreated
    exact Fallible.bind_eq_ok hCreated
  · rintro ⟨factory, hFactory, hEntries⟩
    rw [hFactory]
    exact hEntries

/- A group makes one proxy for each of its types. -/
theorem types_createProxies
    {group : Group}
    {network : Network}
    {entries : List ProxyEntry}
    (h : (group.createProxies network).result =
      .ok entries) :
    entries.map (·.type) = group.types := by
  obtain ⟨factory, _, hEntries⟩ :=
    (group.createProxies_eq_ok_iff network entries).mp h
  exact ProxyFactory.types_of_mapM_entryOf hEntries

/- A proxy of a group is over the adapter of its factory. -/
theorem exists_factory_of_mem
    {group : Group}
    {network : Network}
    {entries : List ProxyEntry}
    (h : (group.createProxies network).result =
      .ok entries) :
    ∃ client factory,
      group.client.build = .ok client ∧
      (group.factoryConfig (.ofClient client)).build =
        .ok factory ∧
      ∀ entry ∈ entries,
        entry.proxy.adapter = factory.adapter := by
  obtain ⟨factory, hFactory, hEntries⟩ :=
    (group.createProxies_eq_ok_iff network entries).mp h
  obtain ⟨client, hClient, hBuilt⟩ :=
    (group.factory_eq_ok_iff factory).mp hFactory
  refine ⟨client, factory, hClient, hBuilt, ?_⟩
  intro entry hMem
  obtain ⟨type, _, hEntry⟩ :=
    Fallible.exists_of_mem_mapM hEntries hMem
  obtain ⟨_, hProxy⟩ :=
    (factory.entryOf_eq_ok_iff type entry).mp hEntry
  obtain ⟨methods, _, _, hMade⟩ :=
    (factory.proxyOf_eq_ok_iff ..).mp hProxy
  rw [hMade]

end Group

/- The groups of proxies are made one by one. -/
theorem Assembly.result_createGroups
    [DomainNames]
    [KnownMedia]
    (groups : List Group)
    (network : Network) :
    (createGroups groups network).result =
      groups.mapM fun group =>
        (group.createProxies network).result.map
          (ProxyGroup.mk group.name group.baseUrl) := by
  induction groups with
  | nil => rfl
  | cons group rest ih =>
      rw [createGroups, Run.result_bind, List.mapM_cons]
      cases (group.createProxies network).result with
      | error error => rfl
      | ok entries =>
          change ((createGroups rest >>= fun groups =>
            pure (ProxyGroup.mk group.name group.baseUrl
              entries :: groups)) network).result = _
          rw [Run.result_bind, ih]
          rfl

end ServiceCalls
