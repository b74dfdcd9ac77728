import ServiceCalls.Error
import ServiceCalls.Group.Discovery
import ServiceCalls.Json.Reader
import ServiceCalls.Url.Parse

/-
  Declared groups.

  A declaration names the base URL of a group and either the
  types of its services or packages to discover them in.

  Key definitions include:
    * `Declaration`
    * `Declaration.read`
    * `Declaration.violations`
    * `Declaration.resolveTypes`
-/

namespace ServiceCalls

/- Declares a group. -/
structure Declaration where
  baseUrl : String
  name : Option String
  packages : List String
  types : List String
deriving DecidableEq, Repr

namespace Declaration

------------------------------------------------------------
-- Checks
------------------------------------------------------------

/- A rule of declarations that is not kept. -/
inductive Violation where
| badBaseUrl
| emptyName
deriving DecidableEq, Repr

/- The field that a rule is about. -/
def Violation.field : Violation → String
  | .badBaseUrl => "base_url"
  | .emptyName => "name"

/- The word for a rule. -/
def Violation.code : Violation → String
  | .badBaseUrl => "url"
  | .emptyName => "length"

/- A rule is told with the values that it looks at. -/
def Violation.values (declaration : Declaration) :
    Violation → List (String × String)
  | .badBaseUrl =>
      [("value", Text.showApplied "String"
        (Text.quoted declaration.baseUrl))]
  | .emptyName =>
      [("min", Text.showApplied "Number" "1"),
        ("value", Text.showApplied "String"
          (Text.quoted (declaration.name.getD "")))]

/- What is told of a rule that is not kept. -/
def Violation.report
    (declaration : Declaration)
    (violation : Violation) :
    String :=
  let values :=
    (violation.values declaration).map fun (key, value) =>
      (Text.quoted key, value)
  violation.field ++ ": Validation error: " ++
    violation.code ++ " [" ++ Text.showMap values ++ "]"

section

variable [DomainNames]

/- The rules that are not kept. -/
def violations (declaration : Declaration) :
    List Violation :=
  (match Url.parse declaration.baseUrl with
    | .ok _ => []
    | .error _ => [.badBaseUrl]) ++
  (if declaration.name = some "" then [.emptyName] else [])

/-
  A declaration that does not keep the rules.  All that are
  not kept are told, one on a line.  Their order here, and
  that of the values of a rule, is one of several: it is not
  fixed where they are told from hash maps.
-/
def invalid (declaration : Declaration) : ServiceError :=
  .configuration
    ("Invalid client declaration for '" ++
      declaration.baseUrl ++ "': " ++
      Text.join "\n"
        (declaration.violations.map
          (Violation.report declaration)))

/- Check that all rules are kept. -/
def check (declaration : Declaration) :
    Except ServiceError Unit :=
  if declaration.violations.isEmpty then .ok ()
  else .error declaration.invalid

------------------------------------------------------------
-- Declarations as JSON
------------------------------------------------------------

/- The shape of a declaration. -/
def schema : Schema :=
  .record "InterfaceClientDeclaration"
    [("baseUrl", .string, none),
      ("name", .optional .string, some .null),
      ("basePackages", .list .string, some (.array [])),
      ("serviceTypes", .list .string, some (.array []))]

/- The texts of a field. -/
def textsOf (key : String) (json : Json) : List String :=
  match json.field? key with
  | some value => value.items.filterMap Json.text?
  | none => []

/- A declaration from a value that meets the schema. -/
def ofJson (json : Json) : Declaration where
  baseUrl := ((json.field? "baseUrl").bind Json.text?).getD ""
  name := (json.field? "name").bind Json.text?
  packages := textsOf "basePackages" json
  types := textsOf "serviceTypes" json

/- A declaration as a value that meets the schema. -/
def toJson (declaration : Declaration) : Json :=
  .ofFields
    [("baseUrl", .string declaration.baseUrl),
      ("name", .ofString? declaration.name),
      ("basePackages",
        .array (declaration.packages.map .string)),
      ("serviceTypes",
        .array (declaration.types.map .string))]

/- Read a declaration and check it. -/
def read (document : String) :
    Except ServiceError Declaration :=
  match schema.readDocument (Text.encode document) with
  | .error fault => .error (.json fault.message)
  | .ok json => do
      let declaration := ofJson json
      declaration.check
      return declaration

end

------------------------------------------------------------
-- Names and Types
------------------------------------------------------------

/- The name of the group; without one it is the base URL. -/
def groupName (declaration : Declaration) : String :=
  declaration.name.getD declaration.baseUrl

/- A name that no type has. -/
def unknownType (name : String) : ServiceError :=
  .configuration ("Unknown service type '" ++ name ++ "'")

/- The type with a name. -/
def findType (discovery : Discovery) (name : String) :
    Except ServiceError ServiceType :=
  match discovery.find name with
  | some type => .ok type
  | none => .error (unknownType name)

/- The accepted types of all packages, each once. -/
def discoverTypes
    (declaration : Declaration)
    (discovery : Discovery)
    (filter : TypeFilter) :
    List ServiceType :=
  declaration.packages.foldl
    (fun found package =>
      filter.collect found (discovery.candidates package))
    []

/-
  The types of the group: those that are named, or else
  those that are discovered.
-/
def resolveTypes
    (declaration : Declaration)
    (discovery : Discovery)
    (filter : TypeFilter) :
    Except ServiceError (List ServiceType) :=
  if declaration.types.isEmpty then
    .ok (declaration.discoverTypes discovery filter)
  else declaration.types.mapM (findType discovery)

end Declaration

end ServiceCalls
