import TableQuery.Yaml.Node
import TableQuery.Yaml.Token

/-!
# Reading configuration texts

A node may be given a name, and the name stands for it further on. A text holds one document.

## Main definitions

* `Yaml.Names` — the names of nodes and the short forms of tags.
* `Yaml.node?` — the node at the start of tokens.
* `Yaml.ofTokens?` — the node that all tokens denote.
* `Yaml.parse?` — the node that a whole text denotes.
-/

namespace TableQuery.Yaml

/-- What names stand for: nodes, the last one given first, and stems of tags. -/
structure Names where
  nodes : List (String × Node)
  stems : List (String × String)

namespace Names

/-- The short forms of tags that need no line of their own. -/
def initial : Names := ⟨[], [("!", "!"), ("!!", "tag:yaml.org,2002:")]⟩

def withNode (names : Names) (anchor : Option String) (node : Node) : Names :=
  match anchor with
  | none => names
  | some name => { names with nodes := (name, node) :: names.nodes }

def tag? (names : Names) (handle suffix : String) : Option String :=
  if handle.isEmpty then some suffix
  else (names.stems.lookup handle).map fun stem => stem ++ suffix

end Names

/-- What stands before a node: a name and a tag, in either order. -/
structure Properties where
  anchor : Option String
  tag : Option String

def properties? (names : Names) : List Token → Option (Properties × List Token)
  | .anchor name :: .tag handle suffix :: ts =>
    (names.tag? handle suffix).map fun tag => (⟨some name, some tag⟩, ts)
  | .tag handle suffix :: .anchor name :: ts =>
    (names.tag? handle suffix).map fun tag => (⟨some name, some tag⟩, ts)
  | .anchor name :: ts => some (⟨some name, none⟩, ts)
  | .tag handle suffix :: ts =>
    (names.tag? handle suffix).map fun tag => (⟨none, some tag⟩, ts)
  | ts => some (⟨none, none⟩, ts)

/-- What is read, with the names known behind it and the tokens left. -/
structure Reading (α : Type) where
  result : α
  names : Names
  rest : List Token

def Reading.map {α β : Type} (f : α → β) (r : Reading α) : Reading β :=
  ⟨f r.result, r.names, r.rest⟩

/-- A token that ends an item of a list without brackets. -/
def endsItem : List Token → Bool
  | .item :: _ | .blockEnd :: _ => true
  | _ => false

def endsEntryPart : List Token → Bool
  | .key :: _ | .value :: _ | .blockEnd :: _ => true
  | _ => false

def endsFlowPart (close : Token) : List Token → Bool
  | t :: _ => t == .value || t == .comma || t == close
  | [] => false

/-- The tokens behind the comma that stands before all items but the first. -/
def afterComma? (first : Bool) : List Token → Option (List Token)
  | .comma :: ts => if first then some (.comma :: ts) else some ts
  | ts => if first then some ts else none

mutual

/-- The node at the start of tokens. Lists and mappings without brackets and braces may only
stand in a `block`; the dashes of a list that is `flush` stand in the column of the key before
it. -/
def node? (block flush : Bool) : (fuel : Nat) → Names → List Token → Option (Reading Node)
  | 0, _, _ => none
  | _, names, .alias name :: ts => (names.nodes.lookup name).map fun node => ⟨node, names, ts⟩
  | fuel + 1, names, ts => do
    let (given, ts) ← properties? names ts
    let r : Reading Node ←
      match ts with
      | .item :: _ =>
        if flush then (flushItems? fuel names ts).map (Reading.map Node.list) else none
      | .scalar text style :: ts =>
        some ⟨.scalar text style (given.tag.filter (· != "!")), names, ts⟩
      | .flowListStart :: ts => (flowItems? true fuel names ts).map (Reading.map Node.list)
      | .flowMappingStart :: ts => (flowEntries? true fuel names ts).map (Reading.map Node.mapping)
      | .listStart :: ts =>
        if block then (items? fuel names ts).map (Reading.map Node.list) else none
      | .mappingStart :: ts =>
        if block then (entries? fuel names ts).map (Reading.map Node.mapping) else none
      | ts =>
        if given.anchor.isSome || given.tag.isSome then
          some ⟨.scalar "" .plain given.tag, names, ts⟩
        else none
    some { r with names := r.names.withNode given.anchor r.result }

def items? : (fuel : Nat) → Names → List Token → Option (Reading (List Node))
  | 0, _, _ => none
  | _, names, .blockEnd :: ts => some ⟨[], names, ts⟩
  | fuel + 1, names, .item :: ts => do
    let item ←
      if endsItem ts then some ⟨.empty, names, ts⟩ else node? true false fuel names ts
    let items ← items? fuel item.names item.rest
    some (items.map (item.result :: ·))
  | _, _, _ => none

/-- The items of a list in the column of the key before it, as long as there are any. -/
def flushItems? : (fuel : Nat) → Names → List Token → Option (Reading (List Node))
  | 0, _, _ => none
  | fuel + 1, names, .item :: ts => do
    let item ←
      if endsItem ts || endsEntryPart ts then some ⟨.empty, names, ts⟩
      else node? true false fuel names ts
    let items ← flushItems? fuel item.names item.rest
    some (items.map (item.result :: ·))
  | _, names, ts => some ⟨[], names, ts⟩

/-- A key or a value of a mapping without braces, where nothing may stand for it. -/
def entryPart? : (fuel : Nat) → Names → List Token → Option (Reading Node)
  | 0, _, _ => none
  | fuel + 1, names, ts =>
    if endsEntryPart ts then some ⟨.empty, names, ts⟩ else node? true true fuel names ts

def entries? : (fuel : Nat) → Names → List Token → Option (Reading (List (Node × Node)))
  | 0, _, _ => none
  | _, names, .blockEnd :: ts => some ⟨[], names, ts⟩
  | fuel + 1, names, ts => do
    let key ←
      match ts with
      | .key :: ts => entryPart? fuel names ts
      | .value :: ts => some ⟨.empty, names, .value :: ts⟩
      | _ => none
    let value ←
      match key.rest with
      | .value :: ts => entryPart? fuel key.names ts
      | ts => some ⟨.empty, key.names, ts⟩
    let entries ← entries? fuel value.names value.rest
    some (entries.map ((key.result, value.result) :: ·))

/-- A key or a value between brackets or braces, where nothing may stand for it. -/
def flowPart? (close : Token) : (fuel : Nat) → Names → List Token → Option (Reading Node)
  | 0, _, _ => none
  | fuel + 1, names, ts =>
    if endsFlowPart close ts then some ⟨.empty, names, ts⟩ else node? false false fuel names ts

def flowEntry? (close : Token) :
    (fuel : Nat) → Names → List Token → Option (Reading (Node × Node))
  | 0, _, _ => none
  | fuel + 1, names, ts => do
    let key ← flowPart? close fuel names ts
    let value ←
      match key.rest with
      | .value :: ts => flowPart? close fuel key.names ts
      | ts => some ⟨.empty, key.names, ts⟩
    some (value.map ((key.result, ·)))

/-- The items of a list up to its bracket. A single entry is a mapping of its own. -/
def flowItems? (first : Bool) : (fuel : Nat) → Names → List Token → Option (Reading (List Node))
  | 0, _, _ => none
  | _, names, .flowListEnd :: ts => some ⟨[], names, ts⟩
  | fuel + 1, names, ts => do
    match ← afterComma? first ts with
    | .flowListEnd :: ts => some ⟨[], names, ts⟩
    | .key :: ts => do
      let entry ← flowEntry? .flowListEnd fuel names ts
      let items ← flowItems? false fuel entry.names entry.rest
      some (items.map (.mapping [entry.result] :: ·))
    | ts => do
      let item ← node? false false fuel names ts
      let items ← flowItems? false fuel item.names item.rest
      some (items.map (item.result :: ·))

/-- The entries of a mapping up to its brace. An entry may lack its value. -/
def flowEntries? (first : Bool) :
    (fuel : Nat) → Names → List Token → Option (Reading (List (Node × Node)))
  | 0, _, _ => none
  | _, names, .flowMappingEnd :: ts => some ⟨[], names, ts⟩
  | fuel + 1, names, ts => do
    match ← afterComma? first ts with
    | .flowMappingEnd :: ts => some ⟨[], names, ts⟩
    | .key :: ts => do
      let entry ← flowEntry? .flowMappingEnd fuel names ts
      let entries ← flowEntries? false fuel entry.names entry.rest
      some (entries.map (entry.result :: ·))
    | ts => do
      let key ← node? false false fuel names ts
      let entries ← flowEntries? false fuel key.names key.rest
      some (entries.map ((key.result, Node.empty) :: ·))

end

/-- The lines before a document, which tell the version at most once and each short form of tags
at most once. -/
def directives? (version : Bool) (stems : List (String × String)) :
    List Token → Option (List (String × String) × List Token)
  | .version major minor :: ts =>
    if !version && major = 1 && (minor = 1 || minor = 2) then directives? true stems ts else none
  | .tagHandle handle stem :: ts =>
    if (stems.lookup handle).isSome then none
    else directives? version (stems ++ [(handle, stem)]) ts
  | ts => some (stems, ts)

def endsDocument : List Token → Bool
  | [] | .documentStart :: _ | .documentEnd :: _ | .version _ _ :: _ | .tagHandle _ _ :: _ => true
  | _ => false

/-- The node that tokens denote. Only a document that is opened by a mark may be empty or have
lines before it. -/
def ofTokens? (ts : List Token) : Option Node := do
  let (stems, rest) ← directives? false [] ts
  let names := { Names.initial with stems := stems ++ Names.initial.stems }
  let fuel := 4 * ts.length + 4
  let r ←
    match rest with
    | .documentStart :: rest =>
      if endsDocument rest then some ⟨.empty, names, rest⟩ else node? true false fuel names rest
    | _ => if rest.length = ts.length then node? true false fuel names ts else none
  if r.rest.all (· == .documentEnd) then some r.result else none

def parseChars? (s : List Char) : Option Node :=
  (Token.ofText? s).bind ofTokens?

def parse? (s : String) : Option Node :=
  parseChars? s.toList

end TableQuery.Yaml
