import ServiceCalls.Descriptor
import ServiceCalls.Text.Search

/-
  Types of services.

  A type has a full name, which is a path of a package and a
  simple name, followed by the types that it is applied to.

  Key definitions include:
    * `ServiceType`
    * `ServiceType.simpleName`
    * `ServiceType.packageName`
    * `ServiceType.isInPackage`
-/

namespace ServiceCalls

/- A type of services and what its services declare. -/
structure ServiceType where
  name : String
  descriptor : ServiceDescriptor
deriving DecidableEq, Repr

namespace ServiceType

/- What stands between the segments of a path. -/
def separator : List Char :=
  "::".toList

/- The name without the types that it is applied to. -/
def path (type : ServiceType) : List Char :=
  type.name.toList.takeWhile (· != '<')

/- The last segment of the path. -/
def simpleName (type : ServiceType) : String :=
  match Text.splitLast separator type.path with
  | some (_, name) => String.ofList name
  | none => String.ofList type.path

/- The path without its last segment. -/
def packageName (type : ServiceType) : String :=
  match Text.splitLast separator type.path with
  | some (package, _) => String.ofList package
  | none => ""

/-
  Whether the type is in a package or in one below it.  All
  types are in the package without a name.
-/
def isInPackage (type : ServiceType) (package : String) :
    Bool :=
  let own := type.packageName.toList
  let outer := package.toList
  outer.isEmpty || own == outer ||
    (outer ++ separator).isPrefixOf own

/- Whether some method can be called. -/
def hasExchanges (type : ServiceType) : Bool :=
  type.descriptor.hasExchanges

/- A type as it is shown. -/
def display (type : ServiceType) : String :=
  Text.showApplied "ServiceType" (Text.quoted type.name)

/- Add types after those there are, each type once. -/
def addAll (known : List ServiceType) :
    List ServiceType → List ServiceType
  | [] => known
  | type :: rest =>
      if type ∈ known then addAll known rest
      else addAll (known ++ [type]) rest

end ServiceType

end ServiceCalls
