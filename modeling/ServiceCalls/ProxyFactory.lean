import ServiceCalls.Proxy

/-
  Factories of proxies.

  A proxy is made from the declaration of a service.  All
  methods are prepared at once, so that a declaration that
  is broken fails here and not on a call.

  Key definitions include:
    * `FactoryConfig`
    * `FactoryConfig.build`
    * `ProxyFactory`
    * `ProxyFactory.createProxy`
-/

namespace ServiceCalls

------------------------------------------------------------
-- Factories
------------------------------------------------------------

/- Makes proxies over one adapter. -/
structure ProxyFactory where
  adapter : Adapter
  resolvers : List Resolver
  processors : List Processor
  defaultHeaders : Headers
  embeddedValues : Option EmbeddedValues

namespace ProxyFactory

/- A factory as it is shown. -/
def display (factory : ProxyFactory) : String :=
  Text.showRecord "HttpServiceProxyFactory"
    [("resolvers", toString factory.resolvers.length),
      ("processors", toString factory.processors.length),
      ("default_headers", factory.defaultHeaders.display)]

/- A method with the name of another. -/
def duplicateMethod (service name : String) : ServiceError :=
  .configuration
    ("Duplicate method '" ++ name ++ "' on " ++ service)

/- Prepare methods after those there are. -/
def prepareMethods
    (factory : ProxyFactory)
    (serviceName : String)
    (service : ServiceDescriptor)
    (methods : List ServiceMethod) :
    List MethodDescriptor →
      Except ServiceError (List ServiceMethod)
  | [] => .ok methods
  | descriptor :: rest => do
      let method ← ServiceMethod.ofDescriptor
        factory.resolvers factory.embeddedValues serviceName
        service descriptor
      if methods.any (·.name == descriptor.name) then
        throw (duplicateMethod serviceName descriptor.name)
      factory.prepareMethods serviceName service
        (methods ++ [method]) rest

/- The record of a proxy that was made. -/
def createdRecord (service : String) (methods : Nat) :
    LogRecord :=
  .debug LogRecord.calls "created http service proxy"
    [("service", service), ("methods", toString methods)]

/- The proxy of a service. -/
def proxyOf
    (factory : ProxyFactory)
    (serviceName : String)
    (service : ServiceDescriptor) :
    Except ServiceError Proxy := do
  let methods ← factory.prepareMethods serviceName service []
    service.methods
  return {
    service := serviceName
    methods := methods
    adapter := factory.adapter
    processors := factory.processors
    defaultHeaders := factory.defaultHeaders }

/- Make the proxy of a service and record it. -/
def createProxy
    (factory : ProxyFactory)
    (serviceName : String)
    (service : ServiceDescriptor) :
    Run Proxy := do
  let proxy ← Run.lift
    (factory.proxyOf serviceName service)
  Run.write (createdRecord serviceName proxy.methods.length)
  return proxy

end ProxyFactory

------------------------------------------------------------
-- Configurations
------------------------------------------------------------

/- What a factory is made from. -/
structure FactoryConfig where
  adapter : Option Adapter
  resolvers : List Resolver
  processors : List Processor
  defaultHeaders : List (String × String)
  embeddedValues : Option EmbeddedValues

namespace FactoryConfig

/- A configuration about which nothing is known. -/
def empty : FactoryConfig :=
  ⟨none, [], [], [], none⟩

/- A configuration with an adapter. -/
def ofAdapter (adapter : Adapter) : FactoryConfig :=
  { empty with adapter := some adapter }

/- Add a resolver that is asked before those built in. -/
def addResolver
    (config : FactoryConfig)
    (resolver : Resolver) :
    FactoryConfig :=
  { config with resolvers := config.resolvers ++ [resolver] }

/- Add a header for requests that do not set it. -/
def addHeader (config : FactoryConfig) (name value : String) :
    FactoryConfig :=
  { config with
    defaultHeaders :=
      config.defaultHeaders ++ [(name, value)] }

/- Add a processor after those there are. -/
def addProcessor
    (config : FactoryConfig)
    (processor : Processor) :
    FactoryConfig :=
  { config with
    processors := config.processors ++ [processor] }

/- Replace placeholders of declared URLs. -/
def withEmbeddedValues
    (config : FactoryConfig)
    (values : EmbeddedValues) :
    FactoryConfig :=
  { config with embeddedValues := some values }

------------------------------------------------------------
-- Building a Factory
------------------------------------------------------------

/- A factory without an adapter. -/
def adapterRequired : ServiceError :=
  .configuration "An exchange adapter is required"

/- A default header whose value is none. -/
def badHeaderValue : ServiceError :=
  .configuration
    ("Invalid default header value: " ++
      "failed to parse header value")

/- Make a factory. -/
def build [DomainNames] (config : FactoryConfig) :
    Except ServiceError ProxyFactory :=
  match config.adapter with
  | none => .error adapterRequired
  | some adapter => do
      let headers ← Headers.appendDefaults
        (fun _ => badHeaderValue) .empty
        config.defaultHeaders
      return {
        adapter := adapter
        resolvers := Resolver.chain config.resolvers
          adapter.supportsAttributes
        processors := config.processors
        defaultHeaders := headers
        embeddedValues := config.embeddedValues }

end FactoryConfig

end ServiceCalls
