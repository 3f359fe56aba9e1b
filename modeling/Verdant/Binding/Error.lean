import Verdant.Access.Error

/-!
# Binding failures
-/

namespace Verdant.Binding

open Storage

/-- Typed binding failure. -/
inductive BindingError where
  | invalidInput (what detail : String)
  | invalidRecord (detail : String)
  | duplicateIdentity (id detail : String)
  | wrongUnit (expected presented : String)
  | wrongRole (requested detail : String)
  | ambiguousFeedback (detail : String)
  | scopeDenied (expected presented : String)
  | needsReassessment (id address detail : String)
  | endpointConfusion (expected presented : String)
  | capabilityDenied (detail accessCode : String)
  | conflict (detail : String)
  | mutationUnknown (operation : OperationId) (detail : String)
  | store (error : StorageError)
  deriving DecidableEq

/-- The text a binding failure displays. -/
def BindingError.display : BindingError → String
  | .invalidInput what detail => s!"invalid {what}: {detail}"
  | .invalidRecord detail => s!"invalid binding record: {detail}"
  | .duplicateIdentity id detail => s!"duplicate installed identity '{id}': {detail}"
  | .wrongUnit expected presented => s!"wrong unit: point expects '{expected}', binding presents '{presented}'"
  | .wrongRole requested detail => s!"wrong role: requested '{requested}': {detail}"
  | .ambiguousFeedback detail => s!"ambiguous feedback: {detail}"
  | .scopeDenied expected presented =>
    s!"scope denied: binding scope '{expected}' does not cover '{presented}' (cross-scope links grant nothing)"
  | .needsReassessment id address detail =>
    s!"needs reassessment: record '{id}' at retired address '{address}': {detail}"
  | .endpointConfusion expected presented =>
    s!"endpoint confusion: point expects '{expected}' endpoint, binding presents '{presented}'"
  | .capabilityDenied detail accessCode => s!"capability denied [{accessCode}]: {detail}"
  | .conflict detail => s!"binding conflict: {detail}"
  | .mutationUnknown operation detail =>
    s!"binding outcome UNKNOWN for {operation.text}; reconcile this operation: {detail}"
  | .store error => error.display

/-- A stored row that does not read. -/
def unreadable (detail : String) : BindingError := .invalidRecord detail

end Verdant.Binding
