import Caretaker.CommandLine.Help
import Caretaker.Environ.Load
import Caretaker.Link
import Caretaker.Listing
import Caretaker.Outcome

/-!
# Dispatching requests

A request is carried out in steps: repair the managed link, resolve the route, and then list, print
or run. Help alone touches nothing. The lines for the screen come with the outcome.
-/

namespace Caretaker

/-! ## Running scripts -/

/-- Run an invocation to its end. -/
def Invocation.delegate (i : Invocation) (bindings : Bindings) : Action WaitStatus := do
  Action.ask (.launch ⟨i, bindings⟩) >>= Action.orFault (.launchFailed i.program)

/-- Run a plan: the target runs only if the check in front of it succeeds. -/
def Plan.execute (p : Plan) (bindings : Bindings) : Action Outcome := do
  if let some check := p.preCheck then
    let status ← check.delegate bindings
    if !status.success then return .failed status.reportedCode
  let status ← p.target.delegate bindings
  return .ofCode status.reportedCode

namespace Layout

/-- The variables for scripts: the roots, and what the environ file behind the managed link assigns.
-/
def childVariables (l : Layout) : Action Bindings := do
  let environ ← Environ.loadOptional l.environLink l.exportedVariables
  return l.exportedVariables ++ environ

end Layout

/-! ## Dispatching -/

/-- An outcome and the lines to show for it. -/
abbrev Answer := Outcome × List Line

/-- Carry out a route. -/
def Route.execute (l : Layout) (theme : Theme) : Route → Action Answer
  | .help => do
    return (.succeeded, [⟨.raw, CommandLine.help (← Action.ask .bindings) .lenient⟩])
  | .list format => do
    let registry ← Registry.ofDir l.tasksDir
    return (.succeeded, registry.lines l.tasksDir theme format)
  | .skipped _ => return (.succeeded, [])
  | .delegate plan => do
    let bindings ← l.childVariables
    return (← plan.execute bindings, [])

/-- Dispatch a request. -/
def Layout.dispatch (l : Layout) (flags : SkipFlags) (theme : Theme) (request : Request) :
    Action Answer := do
  if request ≠ .help then
    let _ ← LinkStatus.ensure l
  let route ← Route.resolve l flags request
  route.execute l theme

end Caretaker
