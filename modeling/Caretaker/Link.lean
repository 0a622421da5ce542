import Caretaker.Layout

/-!
# The managed link

Every command but help first makes sure that the managed link leads to the environ file that the
layout asks for. Several processes may do so at once, without a lock: whoever finds that the others
have done the work lets it be.
-/

namespace Caretaker

/-- What became of the managed link. -/
inductive LinkStatus where
  /-- It was right. -/
  | current
  /-- It was made anew; it had the text `previous`, if it was a link at all. -/
  | repaired (previous : Option Path)
deriving DecidableEq, Repr

namespace LinkStatus

/-- The text of the link at a path, if there is a link. -/
def linkText? (link : Path) : Program (Option Path) := do
  return (← Program.perform (.readLink link)).toOption

/-- Whether a link text leads to the target: whether it has the same components. -/
def leadsTo (target : Path) (text : Option Path) : Bool := text.any (·.same target)

/-- Remove what stands at a path; that it is gone already is fine. -/
def removeStale (link : Path) : Program (Except IoFault Unit) := do
  match ← Program.perform (.remove link) with
  | .error e => return if e = .noEntry then .ok () else .error e
  | .ok () => return .ok ()

/-- Make the link; that it has been made already is fine. -/
def makeAnew (target link : Path) : Program (Except IoFault Unit) := do
  match ← Program.perform (.makeLink target link) with
  | .error e =>
    if e = .alreadyExists then
      return if leadsTo target (← linkText? link) then .ok () else .error e
    else return .error e
  | .ok () => return .ok ()

/-- Make sure that a link leads to a target. -/
def ensureAt (target link : Path) : Action LinkStatus := do
  let previous ← ExceptT.lift (linkText? link)
  if leadsTo target previous then return .current
  if ← Action.ask (.standsAt link) then
    ExceptT.lift (removeStale link) >>= Action.orFault (.linkFailed link target)
  ExceptT.lift (makeAnew target link) >>= Action.orFault (.linkFailed link target)
  return .repaired previous

/-- Make sure that the managed link of a layout leads to its environ file. -/
def ensure (l : Layout) : Action LinkStatus := do
  let target ← ExceptT.lift l.environSource
  ensureAt target l.environLink

end LinkStatus
end Caretaker
