import Caretaker.Yaml.Token.Basic

/-!
# Events

The grammar of YAML turns tokens into events: the nodes of a document in the order in which they
start, with the ends of the collections. Tokens may break off or not fit the grammar; the events up
to there stand.
-/

namespace Caretaker.Yaml

/-- What goes with a node: the name by which it is known, and its tag with the handle resolved. -/
structure NodeProps where
  anchor : Option Text
  tag : Option Text
deriving DecidableEq, Repr

inductive Event where
  | documentStart
  | documentEnd
  | streamEnd
  | alias (name : Text)
  | scalar (s : Scalar) (props : NodeProps)
  | sequenceStart (props : NodeProps)
  | sequenceEnd
  | mappingStart (props : NodeProps)
  | mappingEnd
deriving DecidableEq, Repr

/-- An event and where it starts. -/
structure Marked (α : Type) where
  value : α
  mark : Mark
deriving DecidableEq, Repr

namespace Event

/-! ## Where the grammar stands -/

/-- What is expected next. -/
inductive State where
  | stream
  /-- A document; the first of a stream may start without a mark. -/
  | document (first : Bool)
  /-- What follows the mark of a document. -/
  | content
  | documentEnd
  | blockNode
  | sequenceItem
  /-- An item of a sequence that is not indented below its key. -/
  | flushItem
  | mappingKey
  | mappingValue
  | flowItem (first : Bool)
  | flowItemKey
  | flowItemValue
  | flowItemEnd
  | flowKey (first : Bool)
  | flowValue
  /-- The value of a key that stands alone. -/
  | flowNoValue
  | finished
deriving DecidableEq, Repr

structure Grammar where
  tokens : List Token
  state : State
  /-- What is expected when the nodes that are open have ended, the innermost first. -/
  stack : List State
  /-- What the handles of tags stand for. -/
  handles : List TagName
deriving Repr

/-- One step: the event it makes, if the grammar allows one here. -/
abbrev Step := Option (Marked Event × Grammar)

namespace Grammar

/-- Go on as was put off. -/
def pop (g : Grammar) : Grammar :=
  match g.stack with
  | [] => { g with state := .finished }
  | s :: stack => { g with state := s, stack }

/-- Expect one thing now and another one after it. -/
def push (g : Grammar) (later : State) : Grammar := { g with stack := later :: g.stack }

def goto (g : Grammar) (s : State) : Grammar := { g with state := s }

/-- Pass over the next token. -/
def advance (g : Grammar) : Grammar := { g with tokens := g.tokens.drop 1 }

def emit (g : Grammar) (e : Event) (m : Mark) : Step := some (⟨e, m⟩, g)

/-- A node that is not written is an empty plain scalar. -/
def emitEmpty (g : Grammar) (m : Mark) : Step := g.emit (.scalar ⟨[], true⟩ ⟨none, none⟩) m

def kind? (g : Grammar) : Option Token.Kind := g.tokens.head?.map (·.kind)

/-! ## Nodes -/

/-- What the handle of a tag stands for. -/
def resolveTag (g : Grammar) (t : TagName) : Option Text :=
  if t.handle.isEmpty then some t.suffix
  else (g.handles.find? (·.handle == t.handle)).map (·.suffix ++ t.suffix)

/-- Read an anchor and a tag, in either order. -/
def readProps (g : Grammar) : Option (NodeProps × Grammar) :=
  match g.tokens with
  | ⟨.anchor a, _, _⟩ :: ⟨.tag t, _, _⟩ :: rest
  | ⟨.tag t, _, _⟩ :: ⟨.anchor a, _, _⟩ :: rest =>
    (g.resolveTag t).map fun tag => (⟨some a, some tag⟩, { g with tokens := rest })
  | ⟨.anchor a, _, _⟩ :: rest => some (⟨some a, none⟩, { g with tokens := rest })
  | ⟨.tag t, _, _⟩ :: rest => (g.resolveTag t).map fun tag => (⟨none, some tag⟩, { g with tokens := rest })
  | _ => some (⟨none, none⟩, g)

/-- Read a node. In a flow collection there are no block collections; a sequence may lie flush with
its key in a mapping. -/
def node (g : Grammar) (block flush : Bool) : Step := do
  let first ← g.tokens.head?
  if let .alias name := first.kind then return (⟨.alias name, first.start⟩, g.advance.pop)
  let (props, g) ← g.readProps
  let t ← g.tokens.head?
  let m := first.start
  match t.kind, block, flush with
  | .blockEntry, _, true => (g.goto .flushItem).emit (.sequenceStart props) m
  | .scalar s, _, _ =>
    let props := if props.tag = some ['!'] then { props with tag := none } else props
    g.advance.pop.emit (.scalar s props) m
  | .flowSequenceStart, _, _ => (g.advance.goto (.flowItem true)).emit (.sequenceStart props) m
  | .flowMappingStart, _, _ => (g.advance.goto (.flowKey true)).emit (.mappingStart props) m
  | .blockSequenceStart, true, _ => (g.advance.goto .sequenceItem).emit (.sequenceStart props) m
  | .blockMappingStart, true, _ => (g.advance.goto .mappingKey).emit (.mappingStart props) m
  | _, _, _ =>
    -- only a node with properties may go without a content
    if props = ⟨none, none⟩ then none
    else g.pop.emit (.scalar ⟨[], true⟩ props) m

/-- Read a node, or make an empty one at a mark if a token follows that cannot start one. -/
def nodeUnless (g : Grammar) (ends : List Token.Kind) (m : Token → Mark) (block flush : Bool)
    (later : State) : Step := do
  let t ← g.tokens.head?
  if t.kind ∈ ends then (g.goto later).emitEmpty (m t) else (g.push later).node block flush

/-! ## Documents -/

/-- The handles that need no directive. -/
def standardHandles : List TagName :=
  [⟨['!'], ['!']⟩, ⟨['!', '!'], "tag:yaml.org,2002:".toList⟩]

/-- Read directives: at most one version, which has to be known, and handles that differ. -/
def readDirectives : List Token → (versioned : Bool) → List TagName → Option (List Token × List TagName)
  | ⟨.versionDirective major minor, _, _⟩ :: rest, versioned, handles =>
    if versioned || major != 1 || !(minor == 1 || minor == 2) then none
    else readDirectives rest true handles
  | ⟨.tagDirective t, _, _⟩ :: rest, versioned, handles =>
    if handles.any (·.handle == t.handle) then none
    else readDirectives rest versioned (handles ++ [t])
  | tokens, _, handles =>
    some (tokens, handles ++ standardHandles.filter fun t => handles.all (·.handle != t.handle))

/-- The tokens that cannot start the content of a document. -/
def endsContent : Token.Kind → Bool
  | .versionDirective .. | .tagDirective _ | .documentStart | .documentEnd | .streamEnd => true
  | _ => false

def startDocument (g : Grammar) (first : Bool) : Step := do
  let tokens := if first then g.tokens else g.tokens.dropWhile (·.kind == .documentEnd)
  let t ← tokens.head?
  let g := (({ g with tokens } : Grammar).goto .content).push .documentEnd
  if t.kind = .streamEnd then ({ g with state := .finished }).emit .streamEnd t.start
  -- the first document may do without its mark
  else if first ∧ !(endsContent t.kind && t.kind != .documentEnd) then
    ({ g with state := .blockNode, handles := standardHandles }).emit .documentStart t.start
  else
    let (rest, handles) ← readDirectives tokens false []
    let start ← rest.head?
    if start.kind = .documentStart then
      ({ g with tokens := rest.drop 1, handles }).emit .documentStart t.start
    else none

/-! ## Steps -/

/-- The tokens behind which an item or a part of an entry is empty. -/
def blockItemEnds : List Token.Kind := [.blockEntry, .blockEnd]

def flushItemEnds : List Token.Kind := [.blockEntry, .key, .value, .blockEnd]

def entryEnds : List Token.Kind := [.key, .value, .blockEnd]

def flowItemEnds : List Token.Kind := [.flowEntry, .flowSequenceEnd]

def flowEntryEnds : List Token.Kind := [.flowEntry, .flowMappingEnd]

/-- Pass over the comma between two items of a flow collection; none stands in front of the first
one. -/
def passComma (g : Grammar) (first : Bool) : Option Grammar :=
  if first then some g
  else if g.kind? = some .flowEntry then some g.advance
  else none

/-- An item of a flow sequence, its end, or a single pair that is written like a mapping. -/
def flowItem (g : Grammar) (first : Bool) : Step := do
  let t ← g.tokens.head?
  let g ← if t.kind = .flowSequenceEnd then some g else g.passComma first
  let t ← g.tokens.head?
  match t.kind with
  | .flowSequenceEnd => g.advance.pop.emit .sequenceEnd t.start
  | .key => (g.advance.goto .flowItemKey).emit (.mappingStart ⟨none, none⟩) t.start
  | _ => (g.push (.flowItem false)).node false false

/-- An entry of a flow mapping, or its end. -/
def flowKey (g : Grammar) (first : Bool) : Step := do
  let t ← g.tokens.head?
  let g ← if t.kind = .flowMappingEnd then some g else g.passComma first
  let t ← g.tokens.head?
  match t.kind with
  | .flowMappingEnd => g.advance.pop.emit .mappingEnd t.start
  | .key => g.advance.nodeUnless (.value :: flowEntryEnds) (·.start) false false .flowValue
  | _ => (g.push .flowNoValue).node false false

/-- Make the next event. -/
def step (g : Grammar) : Step := do
  let t ← g.tokens.head?
  match g.state with
  | .stream => g.advance.startDocument true
  | .document first => g.startDocument first
  | .content => if endsContent t.kind then g.pop.emitEmpty t.start else g.node true false
  | .documentEnd =>
    let g := if t.kind = .documentEnd then g.advance else g
    (g.goto (.document false)).emit .documentEnd t.start
  | .blockNode => g.node true false
  | .sequenceItem =>
    match t.kind with
    | .blockEntry => g.advance.nodeUnless blockItemEnds (fun _ => t.stop) true false .sequenceItem
    | .blockEnd => g.advance.pop.emit .sequenceEnd t.start
    | _ => none
  | .flushItem =>
    match t.kind with
    | .blockEntry => g.advance.nodeUnless flushItemEnds (fun _ => t.stop) true false .flushItem
    -- nothing closes a flush sequence, so it ends where another item is due
    | _ => g.pop.emit .sequenceEnd t.start
  | .mappingKey =>
    match t.kind with
    | .key => g.advance.nodeUnless entryEnds (fun _ => t.stop) true true .mappingValue
    | .blockEnd => g.advance.pop.emit .mappingEnd t.start
    | _ => none
  | .mappingValue =>
    match t.kind with
    | .value => g.advance.nodeUnless entryEnds (fun _ => t.stop) true true .mappingKey
    | _ => (g.goto .mappingKey).emitEmpty t.start
  | .flowItem first => g.flowItem first
  | .flowItemKey =>
    if t.kind ∈ .value :: flowItemEnds then (g.advance.goto .flowItemValue).emitEmpty t.stop
    else (g.push .flowItemValue).node false false
  | .flowItemValue =>
    if t.kind = .value then g.advance.nodeUnless flowItemEnds (·.start) false false .flowItemEnd
    else (g.goto .flowItemEnd).emitEmpty t.start
  | .flowItemEnd => (g.goto (.flowItem false)).emit .mappingEnd t.start
  | .flowKey first => g.flowKey first
  | .flowValue =>
    if t.kind = .value then g.advance.nodeUnless flowEntryEnds (·.start) false false (.flowKey false)
    else (g.goto (.flowKey false)).emitEmpty t.start
  | .flowNoValue => (g.goto (.flowKey false)).emitEmpty t.start
  | .finished => none

/-- Make events as long as the tokens go on and fit the grammar. -/
def run : Nat → Grammar → List (Marked Event)
  | 0, _ => []
  | fuel + 1, g =>
    match g.step with
    | none => []
    | some (e, g) => e :: run fuel g

end Grammar

/-- The events of a sequence of tokens. Between two tokens that are passed over there are few
events. -/
def ofTokens (tokens : List Token) : List (Marked Event) :=
  Grammar.run (8 * (tokens.length + 1)) ⟨tokens, .stream, [], []⟩

end Event
end Caretaker.Yaml
