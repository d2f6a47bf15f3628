import FrameGraph.Action
import FrameGraph.Document.Fault

namespace FrameGraph.Document

/-- What can be done about a fault where it is found: say what is wrong, and go no further. -/
class Reporting (m : Type → Type) where
  report : Fault → m Unit
  refuse {α : Type} : Fault → m α

/-- Reports a fault and goes no further. -/
def blame {m : Type → Type} [Monad m] [Reporting m] {α : Type} (f : Fault) : m α := do
  Reporting.report f
  Reporting.refuse f

/-- Faults as results, with nobody to report them to. -/
@[default_instance]
instance : Reporting (Except Fault) where
  report _ := .ok ()
  refuse f := .error f

/-- Faults as errors. A report is an entry in the log, under the part that found the fault. -/
instance {σ : Type} : Reporting (Action σ) where
  report f := Action.log (Action.errorEntry f.cause.origin f.error)
  refuse f := Action.refuse f.error

@[simp]
theorem blame_eq_error {α : Type} (f : Fault) : (blame f : Except Fault α) = .error f := rfl

theorem blame_eq_fail {σ α : Type} (f : Fault) :
    (blame f : Action σ α) = Action.fail f.cause.origin f.error := rfl

end FrameGraph.Document
