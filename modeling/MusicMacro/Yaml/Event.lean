import MusicMacro.Yaml.Token

/-!
The events of a YAML document: its nodes in the order of the text, collections as a start and an
end. What the grammar expects next is kept as a stack of frames.
-/

namespace MusicMacro.Yaml

namespace Event

inductive Kind
  | alias (name : String)
  | scalar (scalar : Scalar) (anchor : Option String)
  | sequence (anchor : Option String)
  | sequenceEnd
  | mapping (anchor : Option String)
  | mappingEnd
  deriving DecidableEq, Repr

end Event

structure Event where
  kind : Event.Kind
  mark : Mark
  deriving DecidableEq, Repr

namespace Event

def missing (m : Mark) : Event := ⟨.scalar { text := "" } none, m⟩

/-- What is expected next, with the mark where a collection was opened. -/
inductive Frame
  | blockEntry (opened : Mark)
  | indentlessEntry
  | blockKey (opened : Mark)
  | blockValue (opened : Mark)
  | flowEntry (first : Bool) (opened : Mark)
  | flowKey (first : Bool) (opened : Mark)
  | flowValue (opened : Mark)
  | flowNoValue (opened : Mark)
  | pairKey
  | pairValue
  | pairEnd
  deriving DecidableEq, Repr

/-- One event: the event, what is expected behind it, and the tokens left. -/
structure Step where
  event : Event
  frames : List Frame
  tokens : List Token
  deriving DecidableEq, Repr

/-- What comes of some tokens, or why nothing does: there is a flaw, or no token is left. -/
abbrev Outcome (α : Type) := Except (Option Flaw) α

def front (ts : List Token) : Outcome Token :=
  match ts with
  | [] => .error none
  | t :: _ => .ok t

def flaw {α : Type} (t : Token) (cause : Cause) (start : Mark) : Outcome α :=
  .error (some (.broken cause t.start start))

/-- Handles of tags and what they expand to. -/
abbrev Handles := List (String × String)

def coreHandles : Handles := [("!", "!"), ("!!", "tag:yaml.org,2002:")]

/-- The properties in front of a node: an anchor and a tag, in either order, with the marks where
they and the tag begin. -/
structure Properties where
  anchor : Option String := none
  tag : Option (String × String × Mark) := none
  mark : Option Mark := none
  deriving DecidableEq, Repr

namespace Properties

def isNone (p : Properties) : Bool := p.anchor.isNone && p.tag.isNone

/-- The properties at the front and the tokens behind them. -/
def ofTokens : List Token → Properties × List Token
  | ⟨.anchor name, m, _⟩ :: ⟨.tag handle suffix, k, _⟩ :: ts =>
    (⟨some name, some (handle, suffix, k), some m⟩, ts)
  | ⟨.tag handle suffix, m, _⟩ :: ⟨.anchor name, _, _⟩ :: ts =>
    (⟨some name, some (handle, suffix, m), some m⟩, ts)
  | ⟨.anchor name, m, _⟩ :: ts => (⟨some name, none, some m⟩, ts)
  | ⟨.tag handle suffix, m, _⟩ :: ts => (⟨none, some (handle, suffix, m), some m⟩, ts)
  | ts => ({}, ts)

def expand (handles : Handles) (p : Properties) : Read (Option String) :=
  match p.tag with
  | none => .ok none
  | some (handle, suffix, mark) =>
    if handle.isEmpty then .ok (some suffix)
    else match handles.lookup handle with
      | some expansion => .ok (some (expansion ++ suffix))
      | none => .error (.broken .unknownHandle mark (p.mark.getD mark))

end Properties

/-- The scalar of a token. A lone exclamation mark is no tag. -/
def scalarOf (text : String) (style : Style) (tag : Option String) : Scalar :=
  ⟨text, style, tag.filter (· != "!")⟩

/-- The node at the front, in a block or a flow collection. A sequence that is the value of a block
mapping may stand without indentation. Properties alone make an empty scalar. -/
def node (handles : Handles) (block indentless : Bool) (frames : List Frame) (ts : List Token) :
    Outcome Step :=
  match ts with
  | ⟨.alias name, m, _⟩ :: ts => .ok ⟨⟨.alias name, m⟩, frames, ts⟩
  | _ => do
    let (p, ts) := Properties.ofTokens ts
    let t ← front ts
    let tag ← (p.expand handles).mapError some
    let m := p.mark.getD t.start
    let empty : Outcome Step :=
      if p.isNone then flaw t (.missingNode block) m
      else .ok ⟨⟨.scalar ⟨"", .plain, tag⟩ p.anchor, m⟩, frames, ts⟩
    match t.kind with
    | .entry =>
      if indentless then .ok ⟨⟨.sequence p.anchor, m⟩, .indentlessEntry :: frames, ts⟩ else empty
    | .scalar text style =>
      .ok ⟨⟨.scalar (scalarOf text style tag) p.anchor, m⟩, frames, ts.tail⟩
    | .flowSequence => .ok ⟨⟨.sequence p.anchor, m⟩, .flowEntry true t.start :: frames, ts.tail⟩
    | .flowMapping => .ok ⟨⟨.mapping p.anchor, m⟩, .flowKey true t.start :: frames, ts.tail⟩
    | .blockSequence =>
      if block then .ok ⟨⟨.sequence p.anchor, m⟩, .blockEntry t.start :: frames, ts.tail⟩ else empty
    | .blockMapping =>
      if block then .ok ⟨⟨.mapping p.anchor, m⟩, .blockKey t.start :: frames, ts.tail⟩ else empty
    | _ => empty

/-- The node at the front, or a missing one if one of the tokens given stands there. -/
def nodeUnless (stops : List Token.Kind) (handles : Handles) (block indentless : Bool)
    (frame : Frame) (m : Mark → Mark) (ts : List Token) : Outcome Step := do
  let t ← front ts
  if stops.contains t.kind then return ⟨missing (m t.start), [frame], ts⟩
  else node handles block indentless [frame] ts

/-- The next event, given the frame on top, the token at the front and the tokens behind it. -/
def step (handles : Handles) (frame : Frame) (t : Token) (ts : List Token) : Outcome Step :=
  match frame with
  | .blockEntry opened =>
    match t.kind with
    | .entry =>
      nodeUnless [.entry, .blockEnd] handles true false (.blockEntry opened) (fun _ => t.stop) ts
    | .blockEnd => .ok ⟨⟨.sequenceEnd, t.start⟩, [], ts⟩
    | _ => flaw t .missingEntry opened
  | .indentlessEntry =>
    match t.kind with
    | .entry =>
      nodeUnless [.entry, .key, .value, .blockEnd] handles true false .indentlessEntry
        (fun _ => t.stop) ts
    | _ => .ok ⟨⟨.sequenceEnd, t.start⟩, [], t :: ts⟩
  | .blockKey opened =>
    match t.kind with
    | .key =>
      nodeUnless [.key, .value, .blockEnd] handles true true (.blockValue opened)
        (fun _ => t.stop) ts
    | .blockEnd => .ok ⟨⟨.mappingEnd, t.start⟩, [], ts⟩
    | _ => flaw t .missingKey opened
  | .blockValue opened =>
    match t.kind with
    | .value =>
      nodeUnless [.key, .value, .blockEnd] handles true true (.blockKey opened) (fun _ => t.stop) ts
    | _ => .ok ⟨missing t.start, [.blockKey opened], t :: ts⟩
  | .flowEntry first opened =>
    match first, t.kind with
    | _, .flowSequenceEnd => .ok ⟨⟨.sequenceEnd, t.start⟩, [], ts⟩
    | true, _ => entry opened t ts
    | false, .comma =>
      match ts with
      | [] => .error none
      | ⟨.flowSequenceEnd, m, _⟩ :: ts => .ok ⟨⟨.sequenceEnd, m⟩, [], ts⟩
      | t :: ts => entry opened t ts
    | false, _ => flaw t .openSequence opened
  | .pairKey =>
    if [.value, .comma, .flowSequenceEnd].contains t.kind then
      .ok ⟨missing t.stop, [.pairValue], ts⟩
    else node handles false false [.pairValue] (t :: ts)
  | .pairValue =>
    match t.kind with
    | .value => nodeUnless [.comma, .flowSequenceEnd] handles false false .pairEnd id ts
    | _ => .ok ⟨missing t.start, [.pairEnd], t :: ts⟩
  | .pairEnd => .ok ⟨⟨.mappingEnd, t.start⟩, [], t :: ts⟩
  | .flowKey first opened =>
    match first, t.kind with
    | _, .flowMappingEnd => .ok ⟨⟨.mappingEnd, t.start⟩, [], ts⟩
    | true, _ => member opened t ts
    | false, .comma =>
      match ts with
      | [] => .error none
      | ⟨.flowMappingEnd, m, _⟩ :: ts => .ok ⟨⟨.mappingEnd, m⟩, [], ts⟩
      | t :: ts => member opened t ts
    | false, _ => flaw t .openMapping opened
  | .flowValue opened =>
    match t.kind with
    | .value =>
      nodeUnless [.comma, .flowMappingEnd] handles false false (.flowKey false opened) id ts
    | _ => .ok ⟨missing t.start, [.flowKey false opened], t :: ts⟩
  | .flowNoValue opened => .ok ⟨missing t.start, [.flowKey false opened], t :: ts⟩
where
  /-- An item of a flow sequence. A key opens a mapping of a single pair. -/
  entry (opened : Mark) (t : Token) (ts : List Token) : Outcome Step :=
    match t.kind with
    | .key => .ok ⟨⟨.mapping none, t.start⟩, [.pairKey, .flowEntry false opened], ts⟩
    | _ => node handles false false [.flowEntry false opened] (t :: ts)
  /-- A member of a flow mapping. A node without a key sign is a key without a value. -/
  member (opened : Mark) (t : Token) (ts : List Token) : Outcome Step :=
    match t.kind with
    | .key =>
      nodeUnless [.value, .comma, .flowMappingEnd] handles false false (.flowValue opened) id ts
    | _ => node handles false false [.flowNoValue opened] (t :: ts)

/-- The events up to the end of a document, as far as its tokens make any, and the tokens behind it
if it comes to its end. A token pays for three rounds at most, its own and two that take none, so
four times as many rounds as there are tokens are enough. -/
def readFrom (handles : Handles) : Nat → List Frame → List Token →
    List Event × Outcome (List Token)
  | 0, _, _ => ([], .error none)
  | _ + 1, [], ts => ([], .ok ts)
  | _ + 1, _ :: _, [] => ([], .error none)
  | fuel + 1, frame :: frames, t :: ts =>
    match step handles frame t ts with
    | .error stop => ([], .error stop)
    | .ok s =>
      let (events, rest) := readFrom handles fuel (s.frames ++ frames) s.tokens
      (s.event :: events, rest)

/-- The events of a document from its first node on. An empty document holds a missing scalar. -/
def content (handles : Handles) (explicit : Bool) (ts : List Token) :
    List Event × Outcome (List Token) :=
  match ts with
  | [] => ([], .error none)
  | t :: _ =>
    let empty := match t.kind with
      | .version _ _ | .handle _ _ | .documentStart | .documentEnd | .streamEnd => true
      | _ => false
    if explicit && empty then ([missing t.start], .ok ts)
    else match node handles true false [] ts with
      | .error stop => ([], .error stop)
      | .ok s =>
        let (events, rest) := readFrom handles (4 * ts.length + 4) s.frames s.tokens
        (s.event :: events, rest)

/-- The directives in front of a document: whether a version was given, the handles, and the tokens
behind the document start. -/
def directives (version : Bool) (handles : Handles) : List Token → Outcome (Handles × List Token)
  | [] => .error none
  | t :: ts =>
    match t.kind with
    | .version major minor =>
      if version then flaw t .secondVersion t.start
      else if major != 1 || (minor != 1 && minor != 2) then flaw t .foreignVersion t.start
      else directives true handles ts
    | .handle handle expansion =>
      if (handles.lookup handle).isSome then flaw t .secondHandle t.start
      else directives version (handles ++ [(handle, expansion)]) ts
    | .documentStart => .ok (handles ++ coreHandles, ts)
    | _ => flaw t .missingDocument t.start

def isOver : List Token → Bool
  | ⟨.documentEnd, _, _⟩ :: ts => isOver ts
  | ⟨.streamEnd, _, _⟩ :: _ => true
  | _ => false

/-- The events of the first document, and the tokens behind it. An empty stream has no events. -/
def first : List Token → List Event × Outcome (List Token)
  | ts@(⟨.streamEnd, _, _⟩ :: _) => ([], .ok ts)
  | ts@(⟨.version _ _, _, _⟩ :: _) | ts@(⟨.handle _ _, _, _⟩ :: _)
  | ts@(⟨.documentStart, _, _⟩ :: _) =>
    match directives false [] ts with
    | .error stop => ([], .error stop)
    | .ok (handles, ts) => content handles true ts
  | ts => content coreHandles false ts

/-- The events of the only document in a stream, up to the flaw if there is one. The tokens may end
early with a flaw of their own; behind the end of the document it counts as further text. -/
def ofTokens (ts : List Token) (unread : Option Flaw) : List Event × Option Flaw :=
  let (events, rest) := first ts
  match rest with
  | .error (some flaw) => (events, some flaw)
  | .error none | .ok [] => (events, unread)
  | .ok ts => (events, if isOver ts then none else some .severalDocuments)

end Event

end MusicMacro.Yaml
