import LoanOrders.Assoc
import LoanOrders.Yaml.Node
import LoanOrders.Yaml.Scalar

/-!
Documents in the YAML notation. A text is split into tokens, tokens give nodes, aliases are replaced
by the nodes that they name, and the nodes then give data; so a document with a fault in its form is
told before any scalar in it is refused.
-/

namespace LoanOrders.Yaml

/-- A part of a document whose names and tags are resolved. A broken one is a collection with a
fault that shows when it is opened. -/
inductive Node
  | leaf (meaning : Meaning)
  | list (items : List Node)
  | object (entries : List (Node × Node))
  | broken
deriving Inhabited

/-! ## Tags -/

/-- What a tag says: nothing but to take the node as if it were plain, one of the common kinds, or
something that has no meaning here. -/
inductive Kind
  | asPlain
  | common (name : String)
  | unknown

/-- The kind that a tag names, if its handle is known. -/
def kindOf? (directives : List Directive) (tag : Tag) : Option Kind :=
  match tag.handle with
  | none => some (if tag = Tag.mark then .asPlain else .unknown)
  | some handle =>
    if directives.contains (.handle handle) then some .unknown
    else if handle = "!!" then some (.common tag.suffix)
    else if handle = "!" then some .unknown
    else none

def isFloat : Meaning → Bool
  | .value (.float _) => true
  | _ => false

/-- The meaning of a text that is told to be of a common kind. -/
def commonMeaning (name text : String) : Meaning :=
  match name, meaning text with
  | "str", _ => .value (.text text)
  | "null", _ => .value .null
  | "bool", .value (.bool b) => .value (.bool b)
  | "int", .value (.int n) => .value (.int n)
  | "float", .value (.float x) => .value (.float x)
  | "float", .value (.int n) => .value (.float (.ofRatio (n < 0) n.natAbs 1))
  | "timestamp", .value (.time t) => .value (.time t)
  | "int", .refused fault | "timestamp", .refused fault => .refused fault
  | _, _ => .undefined

def scalarMeaning (kind : Option Kind) (plain : Bool) (text : String) : Meaning :=
  match kind with
  | none => if plain then meaning text else .value (.text text)
  | some .asPlain => meaning text
  | some (.common name) => commonMeaning name text
  | some .unknown => .undefined

/-- A collection, unless a tag says that it is something else. -/
def collection (kind : Option Kind) (name : String) (node : Node) : Node :=
  match kind with
  | none | some .asPlain => node
  | some (.common given) =>
    if given = name then node
    else if ["seq", "map"].contains given then .broken
    else .leaf .undefined
  | some .unknown => .leaf .undefined

/-! ## Names -/

/-- The nodes that are named so far. A node that is still open has none. -/
abbrev Anchors := List (String × Option Node)

/-- Notes the node of a name, which no other node may have. -/
def openAnchor (anchor : Option String) (anchors : Anchors) : Option Anchors :=
  match anchor with
  | none => some anchors
  | some name => if anchors.any (·.1 == name) then none else some ((name, none) :: anchors)

def closeAnchor (anchor : Option String) (node : Node) (anchors : Anchors) : Anchors :=
  match anchor with
  | none => anchors
  | some name => (name, some node) :: anchors

mutual

def resolve (directives : List Directive) (kind : Option Kind) :
    Written → Anchors → Option (Node × Anchors)
  | .scalar plain text, anchors => some (.leaf (scalarMeaning kind plain text), anchors)
  | .list items, anchors => do
    let (items, anchors) ← resolveItems directives items anchors
    return (collection kind "seq" (.list items), anchors)
  | .object entries, anchors => do
    let (entries, anchors) ← resolveEntries directives entries anchors
    return (collection kind "map" (.object entries), anchors)
  | .alias name, anchors => do return (← (← anchors.lookup name), anchors)
  | .described anchor tag node, anchors => do
    let kind ← match tag with
      | some tag => some <$> kindOf? directives tag
      | none => some none
    let (node, anchors) ← resolve directives kind node (← openAnchor anchor anchors)
    return (node, closeAnchor anchor node anchors)

def resolveItems (directives : List Directive) :
    List Written → Anchors → Option (List Node × Anchors)
  | [], anchors => some ([], anchors)
  | item :: rest, anchors => do
    let (node, anchors) ← resolve directives none item anchors
    let (nodes, anchors) ← resolveItems directives rest anchors
    return (node :: nodes, anchors)

def resolveEntries (directives : List Directive) :
    List (Written × Written) → Anchors → Option (List (Node × Node) × Anchors)
  | [], anchors => some ([], anchors)
  | (key, value) :: rest, anchors => do
    let (key, anchors) ← resolve directives none key anchors
    let (value, anchors) ← resolve directives none value anchors
    let (entries, anchors) ← resolveEntries directives rest anchors
    return ((key, value) :: entries, anchors)

end

/-! ## Merging -/

/-- The entries that a value merges in: those of an object, or of the objects in a list, of which
the first one counts most. -/
def entriesToMerge? : Node → Option (List (Node × Node))
  | .object entries => some entries
  | .list items => do
    let parts ← items.reverse.mapM fun
      | .object entries => some entries
      | _ => none
    return parts.flatten
  | _ => none

mutual

/-- A node with the entries that are merged in at their places, before the others. -/
def Node.merged : Node → Node
  | .list items => .list (mergedItems items)
  | .object entries =>
    match mergedEntries? entries with
    | some (more, own) => .object (more ++ own)
    | none => .broken
  | .leaf meaning => .leaf meaning
  | .broken => .broken

def mergedItems : List Node → List Node
  | [] => []
  | item :: rest => item.merged :: mergedItems rest

def mergedEntries? : List (Node × Node) → Option (List (Node × Node) × List (Node × Node))
  | [] => some ([], [])
  | (.leaf .merge, value) :: rest => do
    let more ← entriesToMerge? value.merged
    let (merged, own) ← mergedEntries? rest
    return (more ++ merged, own)
  | (key, value) :: rest => do
    let (merged, own) ← mergedEntries? rest
    return (merged, (key, value.merged) :: own)

end

/-! ## Data -/

def Meaning.value? : Meaning → Except Fault Scalar
  | .value s => .ok s
  | .refused fault => .error (.refused fault)
  | .merge | .equals | .undefined => .error .malformed

def Node.key : Node → Except Fault Scalar
  | .leaf .equals => .ok (.text "=")
  | .leaf meaning => meaning.value?
  | _ => .error .malformed

/-- The fault of an outcome at a depth, if it has one. -/
def faultAt (depth : Nat) : Except Fault α → List (Nat × Fault)
  | .ok _ => []
  | .error fault => [(depth, fault)]

mutual

/-- The faults in a node with their depths. What is in a collection is one step deeper. -/
def Node.faults (depth : Nat) : Node → List (Nat × Fault)
  | .leaf meaning => faultAt depth meaning.value?
  | .list items => itemFaults (depth + 1) items
  | .object entries => entryFaults (depth + 1) entries
  | .broken => [(depth + 1, .malformed)]

def itemFaults (depth : Nat) : List Node → List (Nat × Fault)
  | [] => []
  | item :: rest => item.faults depth ++ itemFaults depth rest

def entryFaults (depth : Nat) : List (Node × Node) → List (Nat × Fault)
  | [] => []
  | (key, value) :: rest => faultAt depth key.key ++ value.faults depth ++ entryFaults depth rest

end

/-- The fault that counts: a collection is opened after all that is no deeper than itself, so it is
the first one of those at the least depth. -/
def firstFault? (faults : List (Nat × Fault)) : Option Fault :=
  let least := (faults.map (·.1)).min?
  (faults.find? fun fault => some fault.1 == least).map (·.2)

mutual

/-- The data of a node. Where there is a fault they have a null. -/
def Node.data : Node → Data
  | .leaf meaning => .scalar (meaning.value?.toOption.getD .null)
  | .list items => .list (itemsData items)
  | .object entries => .object (Assoc.ofList Scalar.sameKey (entriesData entries))
  | .broken => .null

def itemsData : List Node → List Data
  | [] => []
  | item :: rest => item.data :: itemsData rest

def entriesData : List (Node × Node) → Entries
  | [] => []
  | (key, value) :: rest => (key.key.toOption.getD .null, value.data) :: entriesData rest

end

def Node.read (node : Node) : Except Fault Data :=
  let node := node.merged
  match firstFault? (node.faults 0) with
  | some fault => .error fault
  | none => .ok node.data

def isAllowed (c : Char) : Bool :=
  let n := c.toNat
  n == 0x09 || n == 0x0A || n == 0x0D || (0x20 ≤ n && n ≤ 0x7E) || n == 0x85 ||
    (0xA0 ≤ n && n ≤ 0xFFFD) || 0x10000 ≤ n

def unifyLines : List Char → List Char
  | '\r' :: '\n' :: rest => '\n' :: unifyLines rest
  | '\r' :: rest => '\n' :: unifyLines rest
  | c :: rest => c :: unifyLines rest
  | [] => []

/-- The data of a document; an empty one is null. -/
def read (text : String) : Except Fault Data := do
  let cs := unifyLines text.toList
  if !cs.all isAllowed then throw .malformed
  let (directives, written) ← readDocument (← orMalformed (tokens? cs))
  let (node, _) ← orMalformed (resolve directives none written [])
  node.read

end LoanOrders.Yaml
