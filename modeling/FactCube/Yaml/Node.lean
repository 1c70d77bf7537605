import FactCube.Yaml.Scanner

/-!
# YAML nodes

A text is read into one node: a scalar, a sequence or a mapping. Mappings keep the order of their
entries and repeated keys. A text has to hold exactly one document.
-/

namespace FactCube.Yaml

/-- A YAML value. -/
inductive Node
  /-- A scalar, and whether it stands without quotes and block marks. -/
  | scalar (text : String) (plain : Bool)
  | sequence (items : List Node)
  | mapping (entries : List (Node × Node))

/-- The node of a value that is not written. -/
def Node.empty : Node := .scalar "" true

/-! ## From tokens -/

/-- Whether the next token is one of some. -/
def nextIn (stops : List Token) (ts : List Token) : Bool :=
  match ts with
  | t :: _ => stops.contains t
  | [] => true

mutual

/-- The node at the start of some tokens and the tokens after it. Block collections are read only
where `block` is set, and a sequence that is not indented only where `loose` is. -/
def readNode (block loose : Bool) : Nat → List Token → Option (Node × List Token)
  | 0, _ => none
  | fuel + 1, ts =>
    match ts with
    | .scalar text plain :: ts => some (.scalar text plain, ts)
    | .flowSequenceStart :: ts =>
      (readFlowItems true fuel ts).map fun (items, ts) => (.sequence items, ts)
    | .flowMappingStart :: ts =>
      (readFlowEntries true fuel ts).map fun (entries, ts) => (.mapping entries, ts)
    | .blockSequenceStart :: ts =>
      if block then (readBlockItems fuel ts).map fun (items, ts) => (.sequence items, ts) else none
    | .blockMappingStart :: ts =>
      if block then (readBlockEntries fuel ts).map fun (entries, ts) => (.mapping entries, ts)
      else none
    | .blockEntry :: _ =>
      if loose then (readLooseItems fuel ts).map fun (items, ts) => (.sequence items, ts) else none
    | _ => none

/-- The node at the start of some tokens, or an empty one in front of a token of `stops`. -/
def readOptional (block loose : Bool) (stops : List Token) :
    Nat → List Token → Option (Node × List Token)
  | 0, _ => none
  | fuel + 1, ts => if nextIn stops ts then some (.empty, ts) else readNode block loose fuel ts

/-- The items of a block sequence. -/
def readBlockItems : Nat → List Token → Option (List Node × List Token)
  | 0, _ => none
  | fuel + 1, ts =>
    match ts with
    | .blockEntry :: ts =>
      (readOptional true false [.blockEntry, .blockEnd] fuel ts).bind fun (item, ts) =>
        (readBlockItems fuel ts).map fun (items, ts) => (item :: items, ts)
    | .blockEnd :: ts => some ([], ts)
    | _ => none

/-- The items of a sequence that is not indented. -/
def readLooseItems : Nat → List Token → Option (List Node × List Token)
  | 0, _ => none
  | fuel + 1, ts =>
    match ts with
    | .blockEntry :: ts =>
      (readOptional true false [.blockEntry, .key, .value, .blockEnd] fuel ts).bind
        fun (item, ts) => (readLooseItems fuel ts).map fun (items, ts) => (item :: items, ts)
    | ts => some ([], ts)

/-- The entries of a block mapping. -/
def readBlockEntries : Nat → List Token → Option (List (Node × Node) × List Token)
  | 0, _ => none
  | fuel + 1, ts =>
    match ts with
    | .key :: ts =>
      (readOptional true true [.key, .value, .blockEnd] fuel ts).bind fun (key, ts) =>
        (readBlockValue fuel ts).bind fun (value, ts) =>
          (readBlockEntries fuel ts).map fun (entries, ts) => ((key, value) :: entries, ts)
    | .blockEnd :: ts => some ([], ts)
    | _ => none

/-- The value of an entry of a block mapping. -/
def readBlockValue : Nat → List Token → Option (Node × List Token)
  | 0, _ => none
  | fuel + 1, ts =>
    match ts with
    | .value :: ts => readOptional true true [.key, .value, .blockEnd] fuel ts
    | ts => some (.empty, ts)

/-- The items of a flow sequence; an item can be a single entry. -/
def readFlowItems (first : Bool) : Nat → List Token → Option (List Node × List Token)
  | 0, _ => none
  | fuel + 1, ts =>
    match first, ts with
    | _, .flowSequenceEnd :: ts => some ([], ts)
    | true, ts => readFlowItem fuel ts
    | false, .flowEntry :: .flowSequenceEnd :: ts => some ([], ts)
    | false, .flowEntry :: ts => readFlowItem fuel ts
    | false, _ => none

/-- The key of an entry that is an item of a flow sequence. One that is not written takes the token
it should stand in front of. -/
def readItemKey : Nat → List Token → Option (Node × List Token)
  | 0, _ => none
  | fuel + 1, ts =>
    match ts with
    | .value :: ts | .flowEntry :: ts | .flowSequenceEnd :: ts => some (.empty, ts)
    | ts => readNode false false fuel ts

/-- An item of a flow sequence and the items after it. -/
def readFlowItem : Nat → List Token → Option (List Node × List Token)
  | 0, _ => none
  | fuel + 1, ts =>
    let item : Option (Node × List Token) := match ts with
      | .key :: ts =>
        (readItemKey fuel ts).bind fun (key, ts) =>
          (readFlowValue .flowSequenceEnd fuel ts).map fun (value, ts) =>
            (Node.mapping [(key, value)], ts)
      | ts => readNode false false fuel ts
    item.bind fun (item, ts) =>
      (readFlowItems false fuel ts).map fun (items, ts) => (item :: items, ts)

/-- The entries of a flow mapping. -/
def readFlowEntries (first : Bool) : Nat → List Token → Option (List (Node × Node) × List Token)
  | 0, _ => none
  | fuel + 1, ts =>
    match first, ts with
    | _, .flowMappingEnd :: ts => some ([], ts)
    | true, ts => readFlowPair fuel ts
    | false, .flowEntry :: .flowMappingEnd :: ts => some ([], ts)
    | false, .flowEntry :: ts => readFlowPair fuel ts
    | false, _ => none

/-- An entry of a flow mapping and the entries after it. A scalar without a colon is a key. -/
def readFlowPair : Nat → List Token → Option (List (Node × Node) × List Token)
  | 0, _ => none
  | fuel + 1, ts =>
    let pair : Option ((Node × Node) × List Token) := match ts with
      | .key :: ts =>
        (readOptional false false [.value, .flowEntry, .flowMappingEnd] fuel ts).bind
          fun (key, ts) =>
            (readFlowValue .flowMappingEnd fuel ts).map fun (value, ts) => ((key, value), ts)
      | ts => (readNode false false fuel ts).map fun (key, ts) => ((key, Node.empty), ts)
    pair.bind fun (pair, ts) =>
      (readFlowEntries false fuel ts).map fun (entries, ts) => (pair :: entries, ts)

/-- The value of an entry in a flow collection that ends with the token `close`. -/
def readFlowValue (close : Token) : Nat → List Token → Option (Node × List Token)
  | 0, _ => none
  | fuel + 1, ts =>
    match ts with
    | .value :: ts => readOptional false false [.flowEntry, close] fuel ts
    | ts => some (.empty, ts)

end

/-! ## Documents -/

/-- The node of a document after its start. -/
def readDocument (ts : List Token) : Option (Node × List Token) :=
  readOptional true false [.directive, .documentStart, .documentEnd] (4 * ts.length + 4) ts

/-- The node of the only document in some tokens. -/
def ofTokens? (ts : List Token) : Option Node :=
  let body : Option (Node × List Token) := match ts with
    | [] => none
    | .directive :: .documentStart :: ts => readDocument ts
    | .directive :: _ => none
    | .documentStart :: ts => readDocument ts
    | ts => readNode true false (4 * ts.length + 4) ts
  body.bind fun (node, ts) => if ts.all (· == .documentEnd) then some node else none

/-- The node of a text, if it is well formed and holds one document. -/
def Node.ofText? (text : String) : Option Node := (tokens? text).bind ofTokens?

end FactCube.Yaml
