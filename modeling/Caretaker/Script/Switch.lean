/-!
# Switches

The options that a shell can be given. Most of them have a letter, all of them a name.
-/

namespace Caretaker.Script

inductive Switch where
  | errexit | noglob | ignoreeof | interactive | monitor | noexec | stdin | xtrace | verbose | vi | emacs | noclobber
  | allexport | notify | nounset | privileged | nolog | debug
deriving DecidableEq, Repr

namespace Switch

/-- All switches in the order in which they are listed. -/
def all : List Switch :=
  [errexit, noglob, ignoreeof, interactive, monitor, noexec, stdin, xtrace, verbose, vi, emacs, noclobber, allexport,
    notify, nounset, privileged, nolog, debug]

def name : Switch → String
  | errexit => "errexit"
  | noglob => "noglob"
  | ignoreeof => "ignoreeof"
  | interactive => "interactive"
  | monitor => "monitor"
  | noexec => "noexec"
  | stdin => "stdin"
  | xtrace => "xtrace"
  | verbose => "verbose"
  | vi => "vi"
  | emacs => "emacs"
  | noclobber => "noclobber"
  | allexport => "allexport"
  | notify => "notify"
  | nounset => "nounset"
  | privileged => "privileged"
  | nolog => "nolog"
  | debug => "debug"

def letter? : Switch → Option Char
  | errexit => some 'e'
  | noglob => some 'f'
  | ignoreeof => some 'I'
  | interactive => some 'i'
  | monitor => some 'm'
  | noexec => some 'n'
  | stdin => some 's'
  | xtrace => some 'x'
  | verbose => some 'v'
  | vi => some 'V'
  | emacs => some 'E'
  | noclobber => some 'C'
  | allexport => some 'a'
  | notify => some 'b'
  | nounset => some 'u'
  | privileged => some 'p'
  | nolog | debug => none

def ofLetter? (c : Char) : Option Switch := all.find? (·.letter? == some c)

def ofName? (t : List Char) : Option Switch := all.find? (·.name.toList == t)

theorem mem_all (s : Switch) : s ∈ all := by cases s <;> decide

/-- No two switches have the same name. -/
theorem ofName?_name (s : Switch) : ofName? s.name.toList = some s := by cases s <;> decide

/-- Turn a switch on or off. -/
def turn (on : List Switch) (s : Switch) (value : Bool) : List Switch :=
  let others := on.filter (· != s)
  if value then s :: others else others

/-- Turning a switch does nothing to the others. -/
theorem mem_turn (on : List Switch) (s t : Switch) (value : Bool) :
    t ∈ turn on s value ↔ if t = s then value else t ∈ on := by
  by_cases h : t = s <;> cases value <;> simp [turn, h]

/-- The letters of the switches that are on, the last ones of the list first. -/
def letters (on : List Switch) : List Char := (all.reverse.filter on.contains).filterMap letter?

end Switch
end Caretaker.Script
