import ServiceCalls.Group.Basic

/-
  Registries of proxies.

  A proxy is looked up by its type, in one group or in all
  of them.  An index says which groups have a type.

  Key definitions include:
    * `ProxyGroup`
    * `Registry`
    * `Registry.ofGroups`
    * `Registry.proxy?`
    * `Registry.proxyInGroup?`
-/

namespace ServiceCalls

------------------------------------------------------------
-- Groups of Proxies
------------------------------------------------------------

/- The proxies of one group. -/
structure ProxyGroup where
  name : String
  baseUrl : String
  entries : List ProxyEntry

namespace ProxyGroup

/- The entry of a type. -/
def entry? (group : ProxyGroup) (type : ServiceType) :
    Option ProxyEntry :=
  group.entries.find? (·.type == type)

/- The proxy of a type. -/
def proxy? (group : ProxyGroup) (type : ServiceType) :
    Option Proxy :=
  (group.entry? type).map ProxyEntry.proxy

/- Whether there is a proxy of a type. -/
def contains (group : ProxyGroup) (type : ServiceType) :
    Bool :=
  group.entries.any (·.type == type)

/- The names of the types in ascending order. -/
def typeNames (group : ProxyGroup) : List String :=
  (group.entries.map (·.type.name)).mergeSort
    fun a b => decide (a ≤ b)

end ProxyGroup

------------------------------------------------------------
-- Registries
------------------------------------------------------------

/- Which groups have a type, by their positions. -/
abbrev TypeIndex : Type :=
  List (ServiceType × List Nat)

namespace TypeIndex

/- Add a position to those of a type. -/
def add (type : ServiceType) (position : Nat) :
    TypeIndex → TypeIndex
  | [] => [(type, [position])]
  | (t, positions) :: rest =>
      if t = type then (t, positions ++ [position]) :: rest
      else (t, positions) :: add type position rest

/- The positions of a type. -/
def positions (index : TypeIndex) (type : ServiceType) :
    List Nat :=
  match index.find? (·.1 == type) with
  | some (_, found) => found
  | none => []

/- Add the types of groups from a position on. -/
def addGroups (index : TypeIndex) :
    Nat → List ProxyGroup → TypeIndex
  | _, [] => index
  | position, group :: rest =>
      addGroups
        (group.entries.foldl
          (fun index entry => add entry.type position index)
          index)
        (position + 1) rest

end TypeIndex

/- All groups, and the positions of all types in them. -/
structure Registry where
  groups : List ProxyGroup
  index : TypeIndex

namespace Registry

/- The registry of some groups. -/
def ofGroups (groups : List ProxyGroup) : Registry :=
  ⟨groups, TypeIndex.addGroups [] 0 groups⟩

/- The names of the groups. -/
def groupNames (registry : Registry) : List String :=
  registry.groups.map ProxyGroup.name

/- The names of the groups at some positions. -/
def namesAt (registry : Registry) (positions : List Nat) :
    List String :=
  positions.filterMap fun position =>
    (registry.groups[position]?).map ProxyGroup.name

/- The proxy of a type, when one group at most has it. -/
def proxy? (registry : Registry) (type : ServiceType) :
    Except ServiceError (Option Proxy) :=
  match registry.index.positions type with
  | [] => .ok none
  | [position] =>
      .ok ((registry.groups[position]?).bind
        (·.proxy? type))
  | positions =>
      .error (.ambiguousClient type.name
        (registry.namesAt positions))

/- The group with a name. -/
def group? (registry : Registry) (name : String) :
    Option ProxyGroup :=
  registry.groups.find? (·.name == name)

/- The proxy of a type in one group. -/
def proxyInGroup?
    (registry : Registry)
    (name : String)
    (type : ServiceType) :
    Option Proxy :=
  (registry.group? name).bind (·.proxy? type)

end Registry

end ServiceCalls
