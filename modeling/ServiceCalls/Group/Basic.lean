import ServiceCalls.Group.Discovery
import ServiceCalls.ProxyFactory

/-
  Groups of services.

  The services of a group share a base URL and a client.  A
  group is put together step by step, and then makes one
  proxy for each of its types.

  Key definitions include:
    * `Group`
    * `GroupStep`
    * `Group.perform`
    * `Group.createProxies`
-/

namespace ServiceCalls

------------------------------------------------------------
-- Groups
------------------------------------------------------------

/- Services that share a base URL and a client. -/
structure Group where
  name : String
  baseUrl : String
  client : ClientConfig
  configurers : List (FactoryConfig → FactoryConfig)
  types : List ServiceType

/- A proxy and the type it was made for. -/
structure ProxyEntry where
  type : ServiceType
  proxy : Proxy

namespace ProxyEntry

/- An entry as it is shown. -/
def display (entry : ProxyEntry) : String :=
  Text.showRecord "ProxyEntry"
    [("service_type", entry.type.display)]

end ProxyEntry

namespace Group

/- A group without types; its client has its base URL. -/
def ofTemplate
    (name baseUrl : String)
    (template : ClientConfig) :
    Group where
  name := name
  baseUrl := baseUrl
  client := template.withBaseUrl baseUrl
  configurers := []
  types := []

/- A group as it is shown. -/
def display (group : Group) : String :=
  Text.showRecord "HttpServiceGroup"
    [("name", Text.quoted group.name),
      ("base_url", Text.quoted group.baseUrl),
      ("client", group.client.display),
      ("proxy_factory_configurers",
        toString group.configurers.length),
      ("service_types", Text.showList
        (group.types.map ServiceType.display))]

end Group

------------------------------------------------------------
-- Steps
------------------------------------------------------------

/- One step of putting a group together. -/
inductive GroupStep where
| addTypes
    (types : List ServiceType)
| discover
    (discovery : Discovery)
    (package : String)
    (filter : TypeFilter)
| configureClient
    (configure : ClientConfig → ClientConfig)
| configureFactory
    (configure : FactoryConfig → FactoryConfig)

namespace GroupStep

/- The record of types that were discovered. -/
def discoveredRecord (group package : String) (found : Nat) :
    LogRecord :=
  .debug LogRecord.grouping "discovered service types"
    [("group", group), ("base_package", package),
      ("found", toString found)]

/- What a step of a group records. -/
def records (group : String) : GroupStep → List LogRecord
  | .discover discovery package filter =>
      [discoveredRecord group package
        (discovery.accepted package filter).length]
  | _ => []

end GroupStep

namespace Group

/- Take one step.  A type is added once. -/
def perform (group : Group) : GroupStep → Group
  | .addTypes types =>
      { group with
        types := ServiceType.addAll group.types types }
  | .discover discovery package filter =>
      { group with
        types := ServiceType.addAll group.types
          (discovery.accepted package filter) }
  | .configureClient configure =>
      { group with client := configure group.client }
  | .configureFactory configure =>
      { group with
        configurers := group.configurers ++ [configure] }

/- Take steps in order. -/
def performAll (group : Group) (steps : List GroupStep) :
    Group :=
  steps.foldl perform group

------------------------------------------------------------
-- Proxies
------------------------------------------------------------

/- The factory of a group over an adapter. -/
def factoryConfig (group : Group) (adapter : Adapter) :
    FactoryConfig :=
  group.configurers.foldl
    (fun config configure => configure config)
    (FactoryConfig.ofAdapter adapter)

/- The factory of a group. -/
def factory [DomainNames] [KnownMedia] (group : Group) :
    Except ServiceError ProxyFactory := do
  let client ← group.client.build
  (group.factoryConfig (.ofClient client)).build

/- Make the proxies of some types. -/
def createEntries (factory : ProxyFactory) :
    List ServiceType → Run (List ProxyEntry)
  | [] => Run.pure []
  | type :: rest => do
      let proxy ← factory.createProxy type.name
        type.descriptor
      let entries ← createEntries factory rest
      return ⟨type, proxy⟩ :: entries

/- The record of proxies that were made. -/
def createdRecord (group : Group) (proxies : Nat) :
    LogRecord :=
  .debug LogRecord.grouping "created group proxies"
    [("group", group.name), ("base_url", group.baseUrl),
      ("proxies", toString proxies)]

/- Make one proxy for each type. -/
def createProxies [DomainNames] [KnownMedia] (group : Group) :
    Run (List ProxyEntry) := do
  let factory ← Run.lift group.factory
  let entries ← createEntries factory group.types
  Run.write (group.createdRecord entries.length)
  return entries

end Group

end ServiceCalls
