import Caretaker.Script.Syntax

/-!
# Sources of scripts

A script is read character by character. In front of what is left of its text there may be other
texts: the values of aliases, and lines that have been looked at and put back. An alias is in use
until the character behind its value has been followed by another one; as long as it is in use it
is not replaced again.
-/

namespace Caretaker.Script

/-- A text in front of what is read otherwise. -/
structure Layer where
  rest : Octets
  /-- The alias whose value the text is. -/
  name? : Option Octets
  /-- Whether the value ends with a blank, so that the word behind it may be an alias too. -/
  endsInBlank : Bool
  /-- The aliases that had just been used up when the text was put in front. -/
  spent : List Octets

/-- What is left to read. -/
structure Source where
  layers : List Layer
  rest : Octets
  /-- The line that is read, from one on. -/
  line : Nat
  /-- The aliases whose values have been used up by the character that was read last. -/
  spent : List Octets
  /-- Whether the end has been come to. -/
  ended : Bool

namespace Source

def ofText (t : Octets) : Source := ⟨[], t.filter (· != '\x00'), 1, [], false⟩

/-- The aliases that are in use. -/
def inUse (s : Source) : List Octets :=
  s.spent ++ s.layers.flatMap fun l => l.name?.toList ++ l.spent

/-- Read the next character behind layers. The flag says whether a value that ends with a blank has
been used up on the way. -/
def nextBehind (s : Source) (blank : Bool) : List Layer → Option Char × Bool × Source
  | [] =>
    match s.rest with
    | [] => (none, blank, { s with layers := [], ended := true })
    | c :: rest => (some c, blank, { s with layers := [], rest })
  | l :: below =>
    match l.rest with
    | c :: rest => (some c, blank, { s with layers := { l with rest } :: below })
    | [] =>
      nextBehind { s with spent := l.name?.toList ++ l.spent ++ s.spent } (blank || l.endsInBlank) below

/-- Read the next character. -/
def next (s : Source) : Option Char × Bool × Source := nextBehind { s with spent := [] } false s.layers

/-- Put a character back that has just been read. -/
def unread (s : Source) (c : Char) : Source :=
  match s.layers with
  | [] => { s with rest := c :: s.rest }
  | l :: below => { s with layers := { l with rest := c :: l.rest } :: below }

/-- Put a text in front. -/
def push (s : Source) (t : Octets) (name? : Option Octets) : Source :=
  let endsInBlank := name?.isSome && (t.getLast? == some ' ' || t.getLast? == some '\t')
  { s with layers := ⟨t, name?, endsInBlank, s.spent⟩ :: s.layers, spent := [] }

/-- A character that is put back is the next one. -/
theorem next_unread (s : Source) (c : Char) : (s.unread c).next.1 = some c := by
  cases s with
  | mk layers rest line spent ended => cases layers <;> simp [unread, next, nextBehind]

end Source
end Caretaker.Script
