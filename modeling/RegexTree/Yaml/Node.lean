import RegexTree.Yaml.Token.Stream

/-!
# YAML nodes

Tokens make a tree of nodes. A node may carry an anchor, and an alias refers to one: first by name, as the text has it, then by
number, since a name may be given again and an alias means the node that had it last before.
-/

namespace RegexTree.Yaml

/-- What a node may carry. -/
structure Marks (ref : Type) where
  anchor : Option ref := none
  tag : Option String := none

/-- A node of a document, where anchors are named by `ref`. -/
inductive Node (ref : Type) where
  | scalar (marks : Marks ref) (style : Style) (text : String)
  | sequence (marks : Marks ref) (items : List (Node ref))
  | mapping (marks : Marks ref) (entries : List (Node ref × Node ref))
  | reference (ref : ref)

namespace Node

variable {ref : Type}

/-- A scalar of no characters. -/
def blank (marks : Marks ref) : Node ref := .scalar marks .plain ""

mutual
/-- The number of scalars and aliases and of beginnings and ends of collections. -/
def size : Node ref → Nat
  | scalar .. => 1
  | reference _ => 1
  | sequence _ items => 2 + sizeItems items
  | mapping _ entries => 2 + sizeEntries entries

/-- The size of items. -/
def sizeItems : List (Node ref) → Nat
  | [] => 0
  | n :: ns => n.size + sizeItems ns

/-- The size of entries. -/
def sizeEntries : List (Node ref × Node ref) → Nat
  | [] => 0
  | (k, v) :: es => k.size + v.size + sizeEntries es
end

end Node

/-! ## Nodes from tokens -/

/-- The handles of tags with the beginnings they stand for. -/
abbrev Handles := List (List Char × List Char)

/-- The handles that need no directive. -/
def standardHandles : Handles :=
  [(['!'], ['!']), (['!', '!'], "tag:yaml.org,2002:".toList)]

/-- The tag that a handle and a suffix stand for. -/
def resolveTag? (handles : Handles) (handle suffix : List Char) : Option String :=
  if handle.isEmpty then some (String.ofList suffix)
  else (handles.lookup handle).map (fun start => String.ofList (start ++ suffix))

/-- The anchor and the tag before a node, in either order. -/
def readMarks? (handles : Handles) : List Token → Option (Marks String × List Token)
  | .anchor name :: .tag handle suffix :: ts | .tag handle suffix :: .anchor name :: ts => do
    return ({ anchor := some name, tag := some (← resolveTag? handles handle suffix) }, ts)
  | .anchor name :: ts => some ({ anchor := some name }, ts)
  | .tag handle suffix :: ts => do return ({ tag := some (← resolveTag? handles handle suffix) }, ts)
  | ts => some ({}, ts)

/-- The next token ends the entry of a block collection. -/
def endsBlockEntry : List Token → Bool
  | .blockEntry :: _ | .blockEnd :: _ => true
  | _ => false

/-- The next token ends the key or the value of a block mapping. -/
def endsBlockPart : List Token → Bool
  | .key :: _ | .value :: _ | .blockEnd :: _ => true
  | _ => false

/-- The next token ends an entry of a sequence that has the column of the mapping around it. -/
def endsOpenEntry (ts : List Token) : Bool := endsBlockPart ts || endsBlockEntry ts

/-- The next token ends the key of an entry in a flow sequence, or comes in its place. -/
def endsFlowItemKey : List Token → Bool
  | .value :: _ | .flowEntry :: _ | .flowSequenceEnd :: _ => true
  | _ => false

/-- The next token ends an item of a flow sequence. -/
def endsFlowItem : List Token → Bool
  | .flowEntry :: _ | .flowSequenceEnd :: _ => true
  | _ => false

/-- The next token ends the key of a flow mapping. -/
def endsFlowKey : List Token → Bool
  | .value :: _ | .flowEntry :: _ | .flowMappingEnd :: _ => true
  | _ => false

/-- The next token ends the value of a flow mapping. -/
def endsFlowValue : List Token → Bool
  | .flowEntry :: _ | .flowMappingEnd :: _ => true
  | _ => false

/-- The tokens behind the comma that must stand before every item but the first. -/
def nextItem? (isFirst : Bool) : List Token → Option (List Token)
  | .flowEntry :: ts => if isFirst then some (.flowEntry :: ts) else some ts
  | ts => if isFirst then some ts else none

mutual
/-- A node. A block collection may stand only where `inBlock` holds, and one without indentation only where `isOpen` holds. -/
def readNode (handles : Handles) (inBlock isOpen : Bool) : (fuel : Nat) → List Token → Option (Node String × List Token)
  | 0, _ => none
  | _ + 1, .reference name :: ts => some (.reference name, ts)
  | fuel + 1, ts => do
    let (marks, ts) ← readMarks? handles ts
    match ts with
    | .scalar text style :: ts => return (.scalar marks style text, ts)
    | .flowSequenceStart :: ts =>
      let (items, ts) ← readFlowItems handles true fuel ts
      return (.sequence marks items, ts)
    | .flowMappingStart :: ts =>
      let (entries, ts) ← readFlowEntries handles true fuel ts
      return (.mapping marks entries, ts)
    | ts =>
      match inBlock, isOpen, ts with
      | _, true, .blockEntry :: _ =>
        let (items, ts) ← readOpenItems handles fuel ts
        return (.sequence marks items, ts)
      | true, _, .blockSequenceStart :: ts =>
        let (items, ts) ← readBlockItems handles fuel ts
        return (.sequence marks items, ts)
      | true, _, .blockMappingStart :: ts =>
        let (entries, ts) ← readBlockEntries handles fuel ts
        return (.mapping marks entries, ts)
      | _, _, ts => if marks.anchor.isSome || marks.tag.isSome then return (.blank marks, ts) else none

/-- The items of a block sequence up to its end. -/
def readBlockItems (handles : Handles) : (fuel : Nat) → List Token → Option (List (Node String) × List Token)
  | 0, _ => none
  | fuel + 1, .blockEntry :: ts => do
    let (item, ts) ← if endsBlockEntry ts then some (.blank {}, ts) else readNode handles true false fuel ts
    let (items, ts) ← readBlockItems handles fuel ts
    return (item :: items, ts)
  | _ + 1, .blockEnd :: ts => some ([], ts)
  | _ + 1, _ => none

/-- The items of a block sequence that has the column of the mapping around it. -/
def readOpenItems (handles : Handles) : (fuel : Nat) → List Token → Option (List (Node String) × List Token)
  | 0, _ => none
  | fuel + 1, .blockEntry :: ts => do
    let (item, ts) ← if endsOpenEntry ts then some (.blank {}, ts) else readNode handles true false fuel ts
    let (items, ts) ← readOpenItems handles fuel ts
    return (item :: items, ts)
  | _ + 1, ts => some ([], ts)

/-- The entries of a block mapping up to its end. -/
def readBlockEntries (handles : Handles) :
    (fuel : Nat) → List Token → Option (List (Node String × Node String) × List Token)
  | 0, _ => none
  | fuel + 1, .key :: ts => do
    let (key, ts) ← if endsBlockPart ts then some (.blank {}, ts) else readNode handles true true fuel ts
    let (value, ts) ←
      match ts with
      | .value :: ts => if endsBlockPart ts then some (.blank {}, ts) else readNode handles true true fuel ts
      | ts => some (.blank {}, ts)
    let (entries, ts) ← readBlockEntries handles fuel ts
    return ((key, value) :: entries, ts)
  | _ + 1, .blockEnd :: ts => some ([], ts)
  | _ + 1, _ => none

/-- The items of a flow sequence up to its end. An item may be a mapping of one entry; where its key is missing, the token in
the key's place is passed over. -/
def readFlowItems (handles : Handles) (isFirst : Bool) :
    (fuel : Nat) → List Token → Option (List (Node String) × List Token)
  | 0, _ => none
  | _ + 1, .flowSequenceEnd :: ts => some ([], ts)
  | fuel + 1, ts => do
    match ← nextItem? isFirst ts with
    | .flowSequenceEnd :: ts => return ([], ts)
    | .key :: ts =>
      let (key, ts) ← if endsFlowItemKey ts then some (.blank {}, ts.drop 1) else readNode handles false false fuel ts
      let (value, ts) ←
        match ts with
        | .value :: ts => if endsFlowItem ts then some (.blank {}, ts) else readNode handles false false fuel ts
        | ts => some (.blank {}, ts)
      let (items, ts) ← readFlowItems handles false fuel ts
      return (.mapping {} [(key, value)] :: items, ts)
    | ts =>
      let (item, ts) ← readNode handles false false fuel ts
      let (items, ts) ← readFlowItems handles false fuel ts
      return (item :: items, ts)

/-- The entries of a flow mapping up to its end. -/
def readFlowEntries (handles : Handles) (isFirst : Bool) :
    (fuel : Nat) → List Token → Option (List (Node String × Node String) × List Token)
  | 0, _ => none
  | _ + 1, .flowMappingEnd :: ts => some ([], ts)
  | fuel + 1, ts => do
    match ← nextItem? isFirst ts with
    | .flowMappingEnd :: ts => return ([], ts)
    | .key :: ts =>
      let (key, ts) ← if endsFlowKey ts then some (.blank {}, ts) else readNode handles false false fuel ts
      let (value, ts) ←
        match ts with
        | .value :: ts => if endsFlowValue ts then some (.blank {}, ts) else readNode handles false false fuel ts
        | ts => some (.blank {}, ts)
      let (entries, ts) ← readFlowEntries handles false fuel ts
      return ((key, value) :: entries, ts)
    | ts =>
      let (key, ts) ← readNode handles false false fuel ts
      let (entries, ts) ← readFlowEntries handles false fuel ts
      return ((key, .blank {}) :: entries, ts)
end

/-! ## Documents -/

/-- The directives before a document and the handles they define: one version, which is 1.1 or 1.2, and each handle once. -/
def readDirectives (seenVersion : Bool) (handles : Handles) : List Token → Option (Handles × List Token)
  | .version major minor :: ts => do
    guard (!seenVersion && major == 1 && (minor == 1 || minor == 2))
    readDirectives true handles ts
  | .tagHandle handle start :: ts => do
    guard (handles.lookup handle).isNone
    readDirectives seenVersion (handles ++ [(handle, start)]) ts
  | ts => some (handles, ts)

/-- The node of an explicit document, where a document may be empty. -/
def readContent (handles : Handles) (fuel : Nat) : List Token → Option (Node String × List Token)
  | ts@(.version .. :: _) | ts@(.tagHandle .. :: _) | ts@(.documentStart :: _) | ts@(.documentEnd :: _)
  | ts@(.streamEnd :: _) => some (.blank {}, ts)
  | ts => readNode handles true false fuel ts

/-- The tokens of a stream with one document, or with none, which counts as an empty one. -/
def readStream (fuel : Nat) (ts : List Token) : Option (Node String) := do
  let (root, rest) ←
    match ts with
    | .streamEnd :: _ => some (.blank {}, ts)
    | .version .. :: _ | .tagHandle .. :: _ | .documentStart :: _ => do
      let (handles, rest) ← readDirectives false [] ts
      let .documentStart :: rest := rest | none
      readContent (handles ++ standardHandles) fuel rest
    | _ => readNode standardHandles true false fuel ts
  match rest.dropWhile (· == .documentEnd) with
  | [.streamEnd] => return root
  | _ => none

/-- The node of a text. A token begins at most two readings, so twice their number is fuel enough. -/
def Node.ofChars? (cs : List Char) : Option (Node String) := do
  let ts ← Token.ofChars? cs
  readStream (2 * ts.length + 2) ts

/-! ## Anchors by number -/

/-- The numbers that names stand for so far. -/
abbrev Names := List (String × Nat)

namespace Node

/-- The marks with the anchor's number, which is the number of different names before it, and the names from there on. -/
def numberMarks (marks : Marks String) (names : Names) : Marks Nat × Names :=
  match marks.anchor with
  | none => ({ tag := marks.tag }, names)
  | some name =>
    ({ anchor := some names.length, tag := marks.tag }, (name, names.length) :: names.filter (fun n => n.1 != name))

mutual
/-- The node with numbers for names, from the first to the last node of the text. An alias needs an anchor before it. -/
def number : Node String → Names → Option (Node Nat × Names)
  | scalar marks style text, names =>
    let (marks, names) := numberMarks marks names
    some (scalar marks style text, names)
  | sequence marks items, names => do
    let (marks, names) := numberMarks marks names
    let (items, names) ← numberItems items names
    return (sequence marks items, names)
  | mapping marks entries, names => do
    let (marks, names) := numberMarks marks names
    let (entries, names) ← numberEntries entries names
    return (mapping marks entries, names)
  | reference name, names => do return (reference (← names.lookup name), names)

/-- The items with numbers for names. -/
def numberItems : List (Node String) → Names → Option (List (Node Nat) × Names)
  | [], names => some ([], names)
  | n :: ns, names => do
    let (n, names) ← n.number names
    let (ns, names) ← numberItems ns names
    return (n :: ns, names)

/-- The entries with numbers for names. -/
def numberEntries : List (Node String × Node String) → Names → Option (List (Node Nat × Node Nat) × Names)
  | [], names => some ([], names)
  | (k, v) :: es, names => do
    let (k, names) ← k.number names
    let (v, names) ← v.number names
    let (es, names) ← numberEntries es names
    return ((k, v) :: es, names)
end

/-- The anchor of marks with the node that carries them. -/
def anchorOf (marks : Marks Nat) (node : Node Nat) : List (Nat × Node Nat) :=
  match marks.anchor with
  | some n => [(n, node)]
  | none => []

mutual
/-- The anchored nodes in the order of the text. -/
def anchored : Node Nat → List (Nat × Node Nat)
  | scalar marks style text => anchorOf marks (scalar marks style text)
  | sequence marks items => anchorOf marks (sequence marks items) ++ anchoredItems items
  | mapping marks entries => anchorOf marks (mapping marks entries) ++ anchoredEntries entries
  | reference _ => []

/-- The anchored nodes of items. -/
def anchoredItems : List (Node Nat) → List (Nat × Node Nat)
  | [] => []
  | n :: ns => n.anchored ++ anchoredItems ns

/-- The anchored nodes of entries. -/
def anchoredEntries : List (Node Nat × Node Nat) → List (Nat × Node Nat)
  | [] => []
  | (k, v) :: es => k.anchored ++ v.anchored ++ anchoredEntries es
end

end Node

/-- The tree of a text and the nodes its aliases refer to. Of two anchored nodes of one number the last one counts. -/
structure Tree where
  root : Node Nat
  anchors : List (Nat × Node Nat)

/-- The tree of a text. -/
def Tree.ofText? (text : String) : Option Tree := do
  let (root, _) ← (← Node.ofChars? text.toList).number []
  return { root, anchors := root.anchored.reverse }

end RegexTree.Yaml
