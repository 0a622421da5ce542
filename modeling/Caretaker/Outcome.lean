import Caretaker.Launch

/-!
# Outcomes

What a request came to: whether it succeeded, and the code to exit with.
-/

namespace Caretaker

structure Outcome where
  success : Bool
  exitCode : Int
deriving DecidableEq, Repr

namespace Outcome

def succeeded : Outcome := ⟨true, 0⟩

def failed (code : Int) : Outcome := ⟨false, code⟩

/-- A code of zero is a success. -/
def ofCode (code : Int) : Outcome := if code = 0 then succeeded else failed code

/-- The code as a byte, by which the process itself exits; a code that is none counts as one. -/
def statusByte (o : Outcome) : Nat := if 0 ≤ o.exitCode ∧ o.exitCode < 256 then o.exitCode.toNat else 1

theorem success_ofCode (code : Int) : (ofCode code).success = decide (code = 0) := by
  by_cases h : code = 0 <;> simp [ofCode, h, succeeded, failed]

theorem exitCode_ofCode (code : Int) : (ofCode code).exitCode = code := by
  by_cases h : code = 0 <;> simp [ofCode, h, succeeded, failed]

end Outcome
end Caretaker
