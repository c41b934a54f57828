import RecipeScript.Yaml.Lexer

/-!
# Nodes

A YAML document is a tree of nodes: scalars, sequences and mappings. A node may be given an anchor, and an alias stands for
the node whose anchor it names. The tree keeps aliases as they are, so it stays finite even where an alias names a node
that contains it; `Node.target?` finds what an alias stands for.

Anchors are numbered as they are met, and an alias holds the number that its name has at that place. An anchor takes for its
number how many different names have been met before it, a name that is used again counting once. So two anchors may share
a number after a name has been used again, and then the later one has it.

The grammar is read from the tokens by functions that call each other; their fuel is a multiple of the number of tokens,
as at most four calls in a row use none up.
-/

namespace RecipeScript.Yaml

/-- A node of a document. -/
inductive Node where
  | scalar (anchor : Option Nat) (tag : Option (List UInt8)) (style : Style) (text : List Char)
  | sequence (anchor : Option Nat) (tag : Option (List UInt8)) (items : List Node)
  | mapping (anchor : Option Nat) (tag : Option (List UInt8)) (members : List (Node × Node))
  /-- The node whose anchor has the number. -/
  | alias (anchor : Nat)

/-- What may stand in front of a node. -/
structure Properties where
  anchor : Option Nat := none
  tag : Option (List UInt8) := none

namespace Properties

/-- The node without any content. -/
def emptyNode (p : Properties) : Node :=
  .scalar p.anchor p.tag .plain []

end Properties

/-- The node that stands where nothing is written. -/
def Node.empty : Node := Properties.emptyNode {}

/-- What is left to read, and what has been learnt. -/
structure ParseState where
  tokens : List Token
  /-- The numbers of the anchors met so far, by name, the latest first. -/
  anchors : List (List Char × Nat) := []
  /-- What handles abbreviate. -/
  handles : List (List UInt8 × List UInt8)

namespace ParseState

/-- The state without its first token. -/
def next (st : ParseState) : ParseState :=
  { st with tokens := st.tokens.tail }

/-- Whether the next token is one of the given ones. -/
def isAt (st : ParseState) (tokens : List Token) : Bool :=
  st.tokens.head?.any tokens.contains

/-- Numbers an anchor. -/
def define (st : ParseState) (name : List Char) : Nat × ParseState :=
  let number := st.anchors.length
  let others := st.anchors.filter fun (known, _) => known ≠ name
  (number, { st with anchors := (name, number) :: others })

/-- The tag that a handle and a suffix stand for. -/
def resolveTag? (st : ParseState) (handle suffix : List UInt8) : Option (List UInt8) :=
  if handle.isEmpty then some suffix else (st.handles.lookup handle).map (· ++ suffix)

/-- The anchor and the tag in front of a node, in either order. -/
def takeProperties? (st : ParseState) : Option (Properties × ParseState) :=
  match st.tokens with
  | .anchor name :: .tag handle suffix :: _ => do
    let tag ← st.resolveTag? handle suffix
    let (anchor, st) := st.next.next.define name
    return (⟨some anchor, some tag⟩, st)
  | .tag handle suffix :: .anchor name :: _ => do
    let tag ← st.resolveTag? handle suffix
    let (anchor, st) := st.next.next.define name
    return (⟨some anchor, some tag⟩, st)
  | .anchor name :: _ =>
    let (anchor, st) := st.next.define name
    some (⟨some anchor, none⟩, st)
  | .tag handle suffix :: _ => do
    let tag ← st.resolveTag? handle suffix
    return (⟨none, some tag⟩, st.next)
  | _ => some ({}, st)

end ParseState

mutual

/-- Reads a node. `block` tells whether it may be a block, and `indentless` whether it may be a sequence whose dashes are
not indented. -/
def takeNode? (fuel : Nat) (block indentless : Bool) (st : ParseState) : Option (Node × ParseState) :=
  match fuel with
  | 0 => none
  | fuel + 1 =>
    match st.tokens with
    | .alias name :: _ => do
      let anchor ← st.anchors.lookup name
      return (.alias anchor, st.next)
    | _ => do
      let (p, st) ← st.takeProperties?
      match st.tokens with
      | .blockEntry :: _ =>
        if indentless then
          let (items, st) ← takeIndentlessItems? fuel st
          return (.sequence p.anchor p.tag items, st)
        else if p.anchor.isSome || p.tag.isSome then return (p.emptyNode, st)
        else none
      | .scalar style text :: _ => return (.scalar p.anchor p.tag style text, st.next)
      | .flowSequenceStart :: _ => do
        let (items, st) ← takeFlowItems? fuel true st.next
        return (.sequence p.anchor p.tag items, st)
      | .flowMappingStart :: _ => do
        let (members, st) ← takeFlowMembers? fuel true st.next
        return (.mapping p.anchor p.tag members, st)
      | token :: _ =>
        if block && token = .blockSequenceStart then
          let (items, st) ← takeBlockItems? fuel st.next
          return (.sequence p.anchor p.tag items, st)
        else if block && token = .blockMappingStart then
          let (members, st) ← takeBlockMembers? fuel st.next
          return (.mapping p.anchor p.tag members, st)
        else if p.anchor.isSome || p.tag.isSome then return (p.emptyNode, st)
        else none
      | [] => if p.anchor.isSome || p.tag.isSome then return (p.emptyNode, st) else none

/-- Reads a node, unless one of the given tokens comes next or there are no more: then nothing is written in its place. -/
def takeOptional? (fuel : Nat) (block indentless : Bool) (ends : List Token) (st : ParseState) :
    Option (Node × ParseState) :=
  match fuel with
  | 0 => none
  | fuel + 1 => if st.isAt ends then some (.empty, st) else takeNode? fuel block indentless st

/-- Reads the items of a block up to its end. -/
def takeBlockItems? (fuel : Nat) (st : ParseState) : Option (List Node × ParseState) :=
  match fuel with
  | 0 => none
  | fuel + 1 =>
    match st.tokens with
    | .blockEntry :: _ => do
      let (item, st) ← takeOptional? fuel true false [.blockEntry, .blockEnd] st.next
      let (items, st) ← takeBlockItems? fuel st
      return (item :: items, st)
    | .blockEnd :: _ => some ([], st.next)
    | _ => none

/-- Reads items whose dashes are not indented, up to the first token that is no dash. -/
def takeIndentlessItems? (fuel : Nat) (st : ParseState) : Option (List Node × ParseState) :=
  match fuel with
  | 0 => none
  | fuel + 1 =>
    match st.tokens with
    | .blockEntry :: _ => do
      let (item, st) ← takeOptional? fuel true false [.blockEntry, .key, .value, .blockEnd] st.next
      let (items, st) ← takeIndentlessItems? fuel st
      return (item :: items, st)
    | _ => some ([], st)

/-- Reads the members of a block up to its end. -/
def takeBlockMembers? (fuel : Nat) (st : ParseState) : Option (List (Node × Node) × ParseState) :=
  match fuel with
  | 0 => none
  | fuel + 1 =>
    match st.tokens with
    | .key :: _ => do
      let ends := [.key, .value, .blockEnd]
      let (name, st) ← takeOptional? fuel true true ends st.next
      let (value, st) ←
        if st.isAt [.value] then takeOptional? fuel true true ends st.next else some (.empty, st)
      let (members, st) ← takeBlockMembers? fuel st
      return ((name, value) :: members, st)
    | .blockEnd :: _ => some ([], st.next)
    | _ => none

/-- Reads an item between brackets. It may be a single member, marked by a question mark or a colon; if the name of that
member is left out, the token after the question mark is passed over. -/
def takeFlowItem? (fuel : Nat) (st : ParseState) : Option (Node × ParseState) :=
  match fuel with
  | 0 => none
  | fuel + 1 =>
    match st.tokens with
    | .key :: _ => do
      let st := st.next
      let (name, st) ←
        if st.isAt [.value, .flowEntry, .flowSequenceEnd] then some (.empty, st.next)
        else takeNode? fuel false false st
      let (value, st) ←
        if st.isAt [.value] then takeOptional? fuel false false [.flowEntry, .flowSequenceEnd] st.next
        else some (.empty, st)
      return (.mapping none none [(name, value)], st)
    | _ => takeNode? fuel false false st

/-- Reads the items between brackets up to the closing one. -/
def takeFlowItems? (fuel : Nat) (first : Bool) (st : ParseState) : Option (List Node × ParseState) :=
  match fuel with
  | 0 => none
  | fuel + 1 =>
    if st.isAt [.flowSequenceEnd] then some ([], st.next)
    else if !first && !st.isAt [.flowEntry] then none
    else
      let st := if first then st else st.next
      if st.isAt [.flowSequenceEnd] then some ([], st.next)
      else do
        let (item, st) ← takeFlowItem? fuel st
        let (items, st) ← takeFlowItems? fuel false st
        return (item :: items, st)

/-- Reads a member between braces. It may be a name alone. -/
def takeFlowMember? (fuel : Nat) (st : ParseState) : Option ((Node × Node) × ParseState) :=
  match fuel with
  | 0 => none
  | fuel + 1 =>
    match st.tokens with
    | .key :: _ => do
      let (name, st) ← takeOptional? fuel false false [.value, .flowEntry, .flowMappingEnd] st.next
      let (value, st) ←
        if st.isAt [.value] then takeOptional? fuel false false [.flowEntry, .flowMappingEnd] st.next
        else some (.empty, st)
      return ((name, value), st)
    | _ => do
      let (name, st) ← takeNode? fuel false false st
      return ((name, .empty), st)

/-- Reads the members between braces up to the closing one. -/
def takeFlowMembers? (fuel : Nat) (first : Bool) (st : ParseState) : Option (List (Node × Node) × ParseState) :=
  match fuel with
  | 0 => none
  | fuel + 1 =>
    if st.isAt [.flowMappingEnd] then some ([], st.next)
    else if !first && !st.isAt [.flowEntry] then none
    else
      let st := if first then st else st.next
      if st.isAt [.flowMappingEnd] then some ([], st.next)
      else do
        let (member, st) ← takeFlowMember? fuel st
        let (members, st) ← takeFlowMembers? fuel false st
        return (member :: members, st)

end

/-! ## Documents -/

/-- The handles that need no directive. -/
def defaultHandles : List (List UInt8 × List UInt8) :=
  [([0x21], [0x21]), ([0x21, 0x21], asciiBytes "tag:yaml.org,2002:".toList)]

/-- Reads the directives in front of a document. There may be one version, which has to be one of the two that are
known, and no handle may be given a meaning twice. -/
def takeDirectives? (versionSeen : Bool) (handles : List (List UInt8 × List UInt8)) :
    List Token → Option (List (List UInt8 × List UInt8) × List Token)
  | .version major minor :: tokens =>
    if versionSeen || major ≠ 1 || (minor ≠ 1 && minor ≠ 2) then none
    else takeDirectives? true handles tokens
  | .abbreviation handle beginning :: tokens =>
    if (handles.lookup handle).isSome then none
    else takeDirectives? versionSeen (handles ++ [(handle, beginning)]) tokens
  | tokens => some (handles ++ defaultHandles, tokens)

/-- Reads a document after its directives. Without a marker in front it cannot have had any. -/
def takeDocument? (directives : Bool) (st : ParseState) : Option (Node × ParseState) :=
  let fuel := 4 * st.tokens.length + 4
  match st.tokens with
  | .documentStart :: tokens =>
    let st := { st with tokens }
    match tokens with
    | [] | .version _ _ :: _ | .abbreviation _ _ :: _ | .documentStart :: _ | .documentEnd :: _ => some (.empty, st)
    | _ => takeNode? fuel true false st
  | _ => if directives then none else takeNode? fuel true false st

/-- The node that a text holds. `some none` stands for a text without any document; a text with more than one is
refused. -/
def Node.ofText? (text : String) : Option (Option Node) := do
  let tokens ← Token.ofText? text.toList
  if tokens.isEmpty then return none
  let (handles, rest) ← takeDirectives? false [] tokens
  let (node, st) ← takeDocument? (rest.length ≠ tokens.length) { tokens := rest, handles }
  if st.tokens.all (· = .documentEnd) then return some node else none

/-! ## Aliases -/

mutual

/-- The nodes with the given anchor, in the order in which they begin. -/
def Node.anchored (number : Nat) : Node → List Node
  | .scalar anchor tag style text => if anchor = some number then [.scalar anchor tag style text] else []
  | .sequence anchor tag items =>
    (if anchor = some number then [.sequence anchor tag items] else []) ++ anchoredItems number items
  | .mapping anchor tag members =>
    (if anchor = some number then [.mapping anchor tag members] else []) ++ anchoredMembers number members
  | .alias _ => []

/-- The nodes with the given anchor among items and below them. -/
def anchoredItems (number : Nat) : List Node → List Node
  | [] => []
  | item :: items => item.anchored number ++ anchoredItems number items

/-- The nodes with the given anchor among members and below them. -/
def anchoredMembers (number : Nat) : List (Node × Node) → List Node
  | [] => []
  | (name, value) :: members => name.anchored number ++ value.anchored number ++ anchoredMembers number members

end

/-- What a node of a document stands for: an alias for the last node with its anchor, any other node for itself. -/
def Node.target? (document : Node) : Node → Option Node
  | .alias number => (document.anchored number).getLast?
  | node => some node

end RecipeScript.Yaml
