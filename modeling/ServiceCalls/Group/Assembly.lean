import ServiceCalls.Group.Declaration
import ServiceCalls.Group.Registry

/-
  Registries under construction.

  Groups are added one after the other, all from one
  template.  Steps of a single group act on the group that
  was added last; a step for all groups acts on those that
  are there when it is taken.

  Key definitions include:
    * `Assembly`
    * `AssemblyStep`
    * `Assembly.perform`
    * `Assembly.build`
-/

namespace ServiceCalls

------------------------------------------------------------
-- Steps
------------------------------------------------------------

/- A registry under construction. -/
structure Assembly where
  template : ClientConfig
  groups : List Group

/-
  One step of constructing a registry.  A step for all
  groups may look at a group before it changes it.
-/
inductive AssemblyStep where
| addGroup
    (name : Option String)
    (baseUrl : String)
    (steps : List GroupStep)
| declare
    (declaration : Declaration)
    (discovery : Discovery)
    (filter : TypeFilter)
| current
    (step : GroupStep)
| each
    (steps : Group → List GroupStep)

namespace AssemblyStep

/- Take the same steps of all groups. -/
def all (steps : List GroupStep) : AssemblyStep :=
  .each fun _ => steps

/- Add a group with types, client and factory configured. -/
def addClient
    (name : Option String)
    (baseUrl : String)
    (types : List GroupStep)
    (client : ClientConfig → ClientConfig)
    (factory : FactoryConfig → FactoryConfig) :
    AssemblyStep :=
  .addGroup name baseUrl
    (types ++ [.configureClient client,
      .configureFactory factory])

end AssemblyStep

namespace Assembly

/- No groups yet. -/
def ofTemplate (template : ClientConfig) : Assembly :=
  ⟨template, []⟩

/- The names of the groups. -/
def groupNames (assembly : Assembly) : List String :=
  assembly.groups.map Group.name

/- An assembly as it is shown. -/
def display (assembly : Assembly) : String :=
  Text.showRecord "HttpServiceProxyRegistryBuilder"
    [("groups", Text.showList
        (assembly.groupNames.map Text.quoted))]

/- A group with the name of another. -/
def nameTaken (name : String) : ServiceError :=
  .configuration
    ("A group named '" ++ name ++
      "' is already registered")

/- A step of a group before there is one. -/
def noGroup : ServiceError :=
  .configuration "No group has been added yet"

/- Add a group and put it together. -/
def addGroup
    (assembly : Assembly)
    (name : Option String)
    (baseUrl : String)
    (steps : List GroupStep) :
    Except ServiceError Assembly :=
  let groupName := name.getD baseUrl
  if groupName ∈ assembly.groupNames then
    .error (nameTaken groupName)
  else
    let group := Group.ofTemplate groupName baseUrl
      assembly.template
    .ok { assembly with
      groups := assembly.groups ++ [group.performAll steps] }

/- Take a step of the group that was added last. -/
def performCurrent (step : GroupStep) :
    List Group → Except ServiceError (List Group)
  | [] => .error noGroup
  | [group] => .ok [group.perform step]
  | group :: rest =>
      (performCurrent step rest).map (group :: ·)

variable [DomainNames]

/- Take one step. -/
def perform (assembly : Assembly) :
    AssemblyStep → Except ServiceError Assembly
  | .addGroup name baseUrl steps =>
      assembly.addGroup name baseUrl steps
  | .declare declaration discovery filter => do
      declaration.check
      let types ← declaration.resolveTypes discovery filter
      assembly.addGroup declaration.name declaration.baseUrl
        [.addTypes types]
  | .current step =>
      (performCurrent step assembly.groups).map
        fun groups => { assembly with groups := groups }
  | .each steps =>
      .ok { assembly with
        groups := assembly.groups.map fun group =>
          group.performAll (steps group) }

/- Take steps in order until one fails. -/
def performAll (assembly : Assembly)
    (steps : List AssemblyStep) :
    Except ServiceError Assembly :=
  steps.foldlM perform assembly

------------------------------------------------------------
-- Records
------------------------------------------------------------

/- What the steps of a group record. -/
def groupRecords (steps : List GroupStep) (name : String) :
    List LogRecord :=
  steps.flatMap (·.records name)

/- What a step records. -/
def records (assembly : Assembly) :
    AssemblyStep → List LogRecord
  | .addGroup name baseUrl steps =>
      groupRecords steps (name.getD baseUrl)
  | .declare _ _ _ => []
  | .current step =>
      match assembly.groupNames.getLast? with
      | some name => step.records name
      | none => []
  | .each steps =>
      assembly.groups.flatMap fun group =>
        groupRecords (steps group) group.name

/- Take one step and record it. -/
def step (assembly : Assembly) (step : AssemblyStep) :
    Run Assembly := do
  let next ← Run.lift (assembly.perform step)
  Run.emit ((assembly.records step).map .wrote)
  return next

------------------------------------------------------------
-- Building a Registry
------------------------------------------------------------

/- Make the proxies of some groups. -/
def createGroups
    [KnownMedia]
    : List Group → Run (List ProxyGroup)
  | [] => Run.pure []
  | group :: rest => do
      let entries ← group.createProxies
      let groups ← createGroups rest
      return ⟨group.name, group.baseUrl, entries⟩ :: groups

/- The record of a registry that was built. -/
def builtRecord (groups : Nat) : LogRecord :=
  .debug LogRecord.grouping
    "built http service proxy registry"
    [("groups", toString groups)]

/- Make the proxies of all groups. -/
def build
    [KnownMedia]
    (assembly : Assembly) : Run Registry := do
  let groups ← createGroups assembly.groups
  Run.write (builtRecord groups.length)
  return .ofGroups groups

end Assembly

end ServiceCalls
