import Mathlib.Init

/-! The status codes that the modelled directives return. -/

set_option autoImplicit false

namespace RTContainer.Rtems

inductive StatusCode where
  | successful
  | invalidName
  | invalidId
  | tooMany
  | timeout
  | unsatisfied
  | resourceInUse
  | incorrectState
  | invalidAddress
  | invalidNumber
  | invalidSize
  | invalidClock
  | invalidPriority
  | notDefined
  | notOwnerOfResource
  | notConfigured
  | noMemory
  | ioError
  deriving DecidableEq, Repr

end RTContainer.Rtems
