import Station.Yaml.Problem
import Station.Yaml.Token

/-!
# Events

The events of a document spell its nodes out in order: scalars, aliases, and the starts and ends of
collections. `eventsOf` reads them from tokens; it keeps a stack of what to expect next, so that
nesting is limited by nothing. A missing key, value or entry is an empty plain scalar.
-/

namespace Station.Yaml

/-- What may be written in front of a node. -/
structure NodeProperties where
  /-- The name under which aliases find the node. -/
  anchor : Option String := none
  /-- The tag, with its handle replaced by what it stands for. -/
  tag : Option String := none
  deriving DecidableEq, Repr, Inhabited

/-- An event. -/
inductive Event where
  /-- An alias of an earlier node. -/
  | alias (name : String)
  /-- A scalar. -/
  | scalar (properties : NodeProperties) (text : String) (style : ScalarStyle)
  /-- A sequence starts. -/
  | sequenceStart (properties : NodeProperties)
  /-- A sequence ends. -/
  | sequenceEnd
  /-- A mapping starts; keys and values alternate. -/
  | mappingStart (properties : NodeProperties)
  /-- A mapping ends. -/
  | mappingEnd
  deriving DecidableEq, Repr, Inhabited

/-- What the grammar expects next. -/
inductive Expect where
  /-- A node; in a block context block collections may start, and if `dash` also a sequence whose
  dashes are not indented. -/
  | node (block dash : Bool)
  /-- An entry or the end of a block sequence. -/
  | blockSequenceEntry
  /-- An entry of a block sequence without indentation, or what follows it. -/
  | looseSequenceEntry
  /-- A key or the end of a block mapping. -/
  | blockMappingKey
  /-- The value of a block mapping. -/
  | blockMappingValue
  /-- An entry or the end of a flow sequence; the first one has no comma in front. -/
  | flowSequenceEntry (first : Bool)
  /-- The key of a pair inside a flow sequence. -/
  | pairKey
  /-- The value of a pair inside a flow sequence. -/
  | pairValue
  /-- The end of a pair inside a flow sequence. -/
  | pairEnd
  /-- A key or the end of a flow mapping; the first one has no comma in front. -/
  | flowMappingKey (first : Bool)
  /-- The value of a flow mapping. -/
  | flowMappingValue
  /-- The value of a flow mapping whose key has no colon. -/
  | flowMappingEmptyValue
  deriving DecidableEq, Repr, Inhabited

/-- An empty plain scalar. -/
def Event.empty : Event := .scalar {} "" .plain

/-- What a tag stands for, given the handles that are defined. -/
def resolveTag (handles : List (String × TagText)) (handle : String) (suffix : TagText) :
    Except Problem (Option String) :=
  if handle.isEmpty then .ok suffix.text?
  else
    match handles.find? (·.1 == handle) with
    | some (_, start) => .ok (start.append suffix).text?
    | none => .error .unknownHandle

/-- Reads an anchor and a tag in either order, at most one of each. -/
def readProperties (handles : List (String × TagText)) :
    List Token → Except Problem (NodeProperties × Bool × List Token)
  | .anchor name :: .tag handle suffix :: rest
  | .tag handle suffix :: .anchor name :: rest => do
    return ({ anchor := some name, tag := ← resolveTag handles handle suffix }, true, rest)
  | .anchor name :: rest => .ok ({ anchor := some name }, true, rest)
  | .tag handle suffix :: rest => do
    return ({ tag := ← resolveTag handles handle suffix }, true, rest)
  | tokens => .ok ({}, false, tokens)

/-- The tokens that are left, what to expect next, innermost first, and the events, last first. -/
structure Reader where
  /-- The tokens that are left. -/
  tokens : List Token
  /-- What to expect next. -/
  expected : List Expect
  /-- The events so far. -/
  events : List Event := []
  deriving Inhabited

namespace Reader

/-- Adds an event and goes on with other expectations. -/
def emit (tokens : List Token) (expected : List Expect) (event : Event) (r : Reader) : Reader :=
  { tokens, expected, events := event :: r.events }

/-- Expects a node and then something else, unless the next token already ends the place of the
node. Then the node is empty. -/
def nodeOrEmpty (ends : Token → Bool) (block dash : Bool) (tokens : List Token)
    (expected : List Expect) (r : Reader) : Reader :=
  if tokens.head?.all ends then emit tokens expected .empty r
  else { r with tokens, expected := .node block dash :: expected }

/-- Reads a node. -/
def node (handles : List (String × TagText)) (block dash : Bool) (expected : List Expect)
    (r : Reader) : Except Problem Reader := do
  if let .alias name :: tokens := r.tokens then return emit tokens expected (.alias name) r
  let (properties, written, tokens) ← readProperties handles r.tokens
  match tokens with
  | .blockEntry :: _ =>
    if dash then
      return emit tokens (.looseSequenceEntry :: expected) (.sequenceStart properties) r
  | .scalar text style :: tokens =>
    return emit tokens expected (.scalar properties text style) r
  | .flowSequenceStart :: tokens =>
    return emit tokens (.flowSequenceEntry true :: expected) (.sequenceStart properties) r
  | .flowMappingStart :: tokens =>
    return emit tokens (.flowMappingKey true :: expected) (.mappingStart properties) r
  | .blockSequenceStart :: tokens =>
    if block then
      return emit tokens (.blockSequenceEntry :: expected) (.sequenceStart properties) r
  | .blockMappingStart :: tokens =>
    if block then
      return emit tokens (.blockMappingKey :: expected) (.mappingStart properties) r
  | _ => pure ()
  if written then return emit tokens expected (.scalar properties "" .plain) r
  throw .unexpectedToken

/-- Whether a token ends the place of a block key or value. -/
def endsBlockPlace (token : Token) : Bool :=
  token matches .key | .value | .blockEnd

/-- One step of the grammar: meets the first expectation. -/
def step (handles : List (String × TagText)) (r : Reader) (expect : Expect)
    (expected : List Expect) : Except Problem Reader :=
  match expect, r.tokens with
  | .node block dash, _ => node handles block dash expected r
  | .blockSequenceEntry, .blockEntry :: tokens =>
    .ok (nodeOrEmpty (fun t => t matches .blockEntry | .blockEnd) true false tokens
      (.blockSequenceEntry :: expected) r)
  | .blockSequenceEntry, .blockEnd :: tokens => .ok (emit tokens expected .sequenceEnd r)
  | .blockSequenceEntry, _ => .error .unexpectedToken
  | .looseSequenceEntry, .blockEntry :: tokens =>
    .ok (nodeOrEmpty (fun t => t matches .blockEntry | .key | .value | .blockEnd) true false tokens
      (.looseSequenceEntry :: expected) r)
  | .looseSequenceEntry, tokens => .ok (emit tokens expected .sequenceEnd r)
  | .blockMappingKey, .key :: tokens =>
    .ok (nodeOrEmpty endsBlockPlace true true tokens (.blockMappingValue :: expected) r)
  | .blockMappingKey, .blockEnd :: tokens => .ok (emit tokens expected .mappingEnd r)
  | .blockMappingKey, _ => .error .unexpectedToken
  | .blockMappingValue, .value :: tokens =>
    .ok (nodeOrEmpty endsBlockPlace true true tokens (.blockMappingKey :: expected) r)
  | .blockMappingValue, tokens => .ok (emit tokens (.blockMappingKey :: expected) .empty r)
  | .flowSequenceEntry _, .flowSequenceEnd :: tokens => .ok (emit tokens expected .sequenceEnd r)
  | .flowSequenceEntry first, tokens => do
    let tokens ←
      match first, tokens with
      | true, tokens => pure tokens
      | false, .flowEntry :: tokens => pure tokens
      | false, _ => throw .unexpectedToken
    match tokens with
    | .key :: tokens =>
      return emit tokens (.pairKey :: .flowSequenceEntry false :: expected) (.mappingStart {}) r
    | .flowSequenceEnd :: tokens => return emit tokens expected .sequenceEnd r
    | tokens =>
      let next := .node false false :: .flowSequenceEntry false :: expected
      return { r with tokens, expected := next }
  | .pairKey, tokens =>
    match tokens with
    -- the token that ends the place of an empty key is passed over with it
    | .value :: rest | .flowEntry :: rest | .flowSequenceEnd :: rest =>
      .ok (emit rest (.pairValue :: expected) .empty r)
    | tokens => .ok { r with tokens, expected := .node false false :: .pairValue :: expected }
  | .pairValue, .value :: tokens =>
    .ok (nodeOrEmpty (fun t => t matches .flowEntry | .flowSequenceEnd) false false tokens
      (.pairEnd :: expected) r)
  | .pairValue, tokens => .ok (emit tokens (.pairEnd :: expected) .empty r)
  | .pairEnd, tokens => .ok (emit tokens expected .mappingEnd r)
  | .flowMappingKey _, .flowMappingEnd :: tokens => .ok (emit tokens expected .mappingEnd r)
  | .flowMappingKey first, tokens => do
    let tokens ←
      match first, tokens with
      | true, tokens => pure tokens
      | false, .flowEntry :: tokens => pure tokens
      | false, _ => throw .unexpectedToken
    match tokens with
    | .key :: tokens =>
      return nodeOrEmpty (fun t => t matches .value | .flowEntry | .flowMappingEnd) false false
        tokens (.flowMappingValue :: expected) r
    | .flowMappingEnd :: tokens => return emit tokens expected .mappingEnd r
    | tokens =>
      return { r with tokens, expected := .node false false :: .flowMappingEmptyValue :: expected }
  | .flowMappingValue, .value :: tokens =>
    .ok (nodeOrEmpty (fun t => t matches .flowEntry | .flowMappingEnd) false false tokens
      (.flowMappingKey false :: expected) r)
  | .flowMappingValue, tokens => .ok (emit tokens (.flowMappingKey false :: expected) .empty r)
  | .flowMappingEmptyValue, tokens => .ok (emit tokens (.flowMappingKey false :: expected) .empty r)

/-- Meets expectations until none is left. -/
def run (handles : List (String × TagText)) : Nat → Reader → Except Problem Reader
  | 0, _ => .error .unexpectedToken
  | fuel + 1, r =>
    match r.expected with
    | [] => .ok r
    | expect :: expected => do
      let r ← r.step handles expect expected
      run handles fuel r

end Reader

/-- Reads the directives in front of a document. A version is given at most once and is 1.1 or 1.2,
and no handle is defined twice. -/
def readDirectives : Bool → List (String × TagText) → List Token →
    Except Problem (List (String × TagText) × List Token)
  | versioned, handles, .version major minor :: rest =>
    if versioned || major != 1 || !(minor == 1 || minor == 2) then .error .badDirective
    else readDirectives true handles rest
  | versioned, handles, .tagDirective handle start :: rest =>
    if handles.any (·.1 == handle) then .error .badDirective
    else readDirectives versioned (handles ++ [(handle, start)]) rest
  | _, handles, tokens => .ok (handles, tokens)

/-- The handles that are defined unless a directive defines them otherwise. -/
def standardHandles : List (String × TagText) :=
  [("!", ⟨"!", true⟩), ("!!", ⟨"tag:yaml.org,2002:", true⟩)]

/-- The events of the only document of a stream; a stream without a document has none. -/
def eventsOf (tokens : List Token) : Except Problem (List Event) := do
  if tokens.head? == some .streamEnd then return []
  let (handles, body) ← readDirectives false [] tokens
  let marked := body.head? == some .documentStart
  if !marked && (tokens.head?.any fun t => t matches .version .. | .tagDirective ..) then
    throw .unexpectedToken
  let body := if marked then body.drop 1 else body
  let absent := marked && body.head?.all fun t =>
    t matches .version .. | .tagDirective .. | .documentStart | .documentEnd | .streamEnd
  let start : Reader :=
    if absent then { tokens := body, expected := [], events := [.empty] }
    else { tokens := body, expected := [.node true false] }
  let done ← start.run (handles ++ standardHandles) (5 * tokens.length + 10)
  let after := done.tokens.dropWhile fun t => t matches .documentEnd
  if after.head? == some .streamEnd then return done.events.reverse else throw .secondDocument

end Station.Yaml
