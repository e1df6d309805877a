/-!
# Errors

The causes for which an operation fails, and their texts. A cause carries what its text needs and nothing else.
-/

namespace ReviewChecks

/-- The enumerations whose members are looked up by name. -/
inductive Enumeration where
  | runStatus
  | category
  | patchsetContext
deriving DecidableEq, Repr

def Enumeration.label : Enumeration → String
  | .runStatus => "run status"
  | .category => "category"
  | .patchsetContext => "patchset context"

/-- A name that no member of an enumeration has. -/
structure UnknownName where
  enumeration : Enumeration
  name : String
deriving DecidableEq, Repr

def UnknownName.message (error : UnknownName) : String :=
  s!"Unknown {error.enumeration.label}: {error.name}"

/-- Why an operation on the model or its configuration fails. -/
inductive Error where
  /-- A file could not be read or written. -/
  | io (cause : String)
  /-- A file is no valid configuration. -/
  | config (cause : String)
  | alreadyRegistered (plugin : String)
  | unknownPlugin (plugin : String)
  | shutdown
deriving DecidableEq, Repr

def Error.message : Error → String
  | .io cause => s!"IO error: {cause}"
  | .config cause => s!"Configuration error: {cause}"
  | .alreadyRegistered plugin => s!"Provider already registered: {plugin}"
  | .unknownPlugin plugin => s!"Unknown provider: {plugin}"
  | .shutdown => "Checks model has been shut down"

end ReviewChecks
