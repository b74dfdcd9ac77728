import ServiceCalls.Binding.ValueRule

/-
  Named values bound to arguments.

  A list is taken as its items, without those that are
  null.  A default stands for a value that is not there;
  without a default a required value has to be there.  A
  map contributes its entries, each under its own name.

  Key definitions include:
    * `ValueRule.addOne`
    * `ValueRule.addValue`
    * `ValueRule.addEntries`
    * `ValueRule.bind`
-/

namespace ServiceCalls

/- Adds to a request what one argument stands for. -/
abbrev Binder : Type :=
  Argument → Edit Unit

namespace ValueRule

------------------------------------------------------------
-- Single Values
------------------------------------------------------------

/- The record of a value that is about to be added. -/
def addingRecord
    (label name : String)
    (argument : Argument) :
    LogRecord :=
  { target := LogRecord.calls
    level := .trace
    message := "adding request value"
    fields :=
      [("label", label), ("name", name),
        ("kind", argument.kind)] }

/- Add a value that is there. -/
def addPresent
    (rule : ValueRule)
    (name : String)
    (argument : Argument) :
    Edit Unit := do
  Edit.record (addingRecord rule.label name argument)
  rule.add name argument

/- Add one value, or what stands for it. -/
def addOne
    (rule : ValueRule)
    (value : NamedValue)
    (argument : Argument) :
    Edit Unit :=
  if argument.isNull then
    match value.default? with
    | some text => addPresent rule value.name (.text text)
    | none =>
        if value.required then
          Edit.fail (.missingValue rule.label value.name)
        else Edit.pure ()
  else addPresent rule value.name argument

------------------------------------------------------------
-- Lists
------------------------------------------------------------

/- The items of a list. -/
def items? : Argument → Option (List Argument)
  | .list items => some items
  | .json (.array items) => some (items.map .json)
  | _ => none

/- An item of a list is not required by itself. -/
def ofItem (name : String) : NamedValue :=
  ⟨name, false, none⟩

/- Add one value, or all items of a list. -/
def addValue
    (rule : ValueRule)
    (value : NamedValue)
    (argument : Argument) :
    Edit Unit :=
  match items? argument with
  | none => addOne rule value argument
  | some items =>
      match items.filter fun item => !item.isNull with
      | [] => addOne rule value .null
      | present =>
          if rule.repeatable then
            Edit.all (present.map
              (addOne rule (ofItem value.name)))
          else
            Edit.bind (Edit.lift (rule.collapse present))
              (addOne rule value)

------------------------------------------------------------
-- Maps
------------------------------------------------------------

/- An argument that is no map. -/
def notMap (label : String) (argument : Argument) :
    ServiceError :=
  .invalidArgument
    ("Expected a map for " ++ label ++
      " parameter, got " ++ argument.kind)

/- The entries of a map; null has none. -/
def entries? :
    Argument → Option (List (String × Argument))
  | .null => some []
  | .map entries => some entries
  | .json (.object fields) =>
      some (fields.map fun (key, value) =>
        (key, .json value))
  | _ => none

/- Add all entries of a map. -/
def addEntries (rule : ValueRule) (argument : Argument) :
    Edit Unit :=
  match entries? argument with
  | none => Edit.fail (notMap rule.label argument)
  | some entries =>
      Edit.all (entries.map fun (name, item) =>
        addValue rule (ofItem name) item)

------------------------------------------------------------
-- Binding
------------------------------------------------------------

/- A parameter that has no name to go by. -/
def nameMissing (label : String) (parameter : Parameter) :
    ServiceError :=
  .configuration
    ("Name for " ++ label ++ " parameter " ++
      parameter.describe ++ " not specified, and " ++
      "parameter name information is not available")

/- The name to go by: its own, or that of the parameter. -/
def effectiveName
    (label : String)
    (value : NamedValue)
    (parameter : Parameter) :
    Except ServiceError String :=
  if value.name.isEmpty then
    match parameter.name with
    | some name => .ok name
    | none => .error (nameMissing label parameter)
  else .ok value.name

/-
  How the argument of a parameter is added by a rule.  Only
  the entries of a map do without a name.
-/
def bind
    (rule : ValueRule)
    (value : NamedValue)
    (parameter : Parameter) :
    Except ServiceError Binder :=
  if parameter.type = .map then .ok (addEntries rule)
  else
    (effectiveName rule.label value parameter).map
      fun name =>
        addValue rule { value with name := name }

end ValueRule

end ServiceCalls
