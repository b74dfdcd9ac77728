import ServiceCalls.Group.ServiceType

/-
  Discovery of types.

  Key definitions include:
    * `Discovery`
    * `Catalog`
    * `TypeFilter`
-/

namespace ServiceCalls

------------------------------------------------------------
-- Sources
------------------------------------------------------------

/-
  Knows the types of a package, and a type by its full or
  simple name.  Without a rule of its own a source finds the
  first of all its types that has the name.
-/
structure Discovery where
  candidates : String → List ServiceType
  find : String → Option ServiceType := fun name =>
    (candidates "").find? fun type =>
      type.name == name || type.simpleName == name

/- Types in order of registration, each once. -/
structure Catalog where
  types : List ServiceType

namespace Catalog

/- The catalog of some types; repetitions are dropped. -/
def ofTypes (types : List ServiceType) : Catalog :=
  ⟨ServiceType.addAll [] types⟩

/- The types in a package or below it. -/
def discovery (catalog : Catalog) : Discovery where
  candidates := fun package =>
    catalog.types.filter (·.isInPackage package)

/- A catalog as it is shown. -/
def display (catalog : Catalog) : String :=
  Text.showRecord "ServiceCatalog"
    [("types", Text.showList
        (catalog.types.map ServiceType.display))]

end Catalog

------------------------------------------------------------
-- Filters
------------------------------------------------------------

/- Says which types are wanted and which are not. -/
structure TypeFilter where
  includes : List (ServiceType → Bool)
  excludes : List (ServiceType → Bool)

namespace TypeFilter

/-
  Whether a type is accepted: it is wanted, or nothing is
  said to be; nothing speaks against it; and some method of
  it can be called.
-/
def accepts (filter : TypeFilter) (type : ServiceType) :
    Bool :=
  (filter.includes.isEmpty ||
      filter.includes.any (fun wanted => wanted type)) &&
    !filter.excludes.any (fun refused => refused type) &&
    type.hasExchanges

/- Add accepted types to those found, each type once. -/
def collect
    (filter : TypeFilter)
    (found : List ServiceType) :
    List ServiceType → List ServiceType
  | [] => found
  | type :: rest =>
      if filter.accepts type && !found.contains type then
        collect filter (found ++ [type]) rest
      else collect filter found rest

/- A filter as it is shown. -/
def display (filter : TypeFilter) : String :=
  Text.showRecord "ServiceTypeFilter"
    [("includes", toString filter.includes.length),
      ("excludes", toString filter.excludes.length)]

end TypeFilter

namespace Discovery

/- The accepted types of a package. -/
def accepted
    (discovery : Discovery)
    (package : String)
    (filter : TypeFilter) :
    List ServiceType :=
  (discovery.candidates package).filter filter.accepts

end Discovery

end ServiceCalls
