import Gatehouse.Condition
import Gatehouse.Doc.Scope
import Gatehouse.Json

/-!
# Conditions in documents

What this file fixes:

* `Wire.Node`: the one record that stands for leaves and branches alike in a document, all its
  fields optional;
* `ShapeError`: why such a record is neither a leaf nor a branch, and its wording. An empty logic,
  an empty operator and an empty comparand path count as missing;
* `Wire.Node.decode`: the tree that a record describes, or the first error in pre-order;
* `Condition.toValue`: the record of a tree, as a value;
* `Condition.parse`, `Condition.ofValue`: the tree of a JSON text or of a value. Whatever is wrong
  with the form of a record anywhere comes before all else.
-/

namespace Gatehouse

namespace Wire

/-! ## 1. Records -/

/-- A leaf as a document has it. -/
structure Leaf where
  path : String
  operator : String
  description : Option String
  value : Option Value
  comparandPath : Option String
  deriving DecidableEq, Repr

/-- A node as a document has it. -/
inductive Node where
  | node (description : Option String) (logic : Option String) (children : Option (List Node))
      (leaf : Option Leaf)
  deriving Repr

/-- The fields of a leaf, in order. -/
def leafFields : List String :=
  ["attribute", "operator", "description", "value", "resource_attribute"]

/-- The fields of a node, in order. -/
def nodeFields : List String := ["description", "logic_type", "children", "leaf"]

open Doc.Scope in
/-- What is looked at in a document of a node. -/
def Node.scope : Doc.Scope :=
  .tree "children" (refine (ofNames nodeFields) "leaf" (.record leafFields))

/-- The leaf in a document. A null as value is a value. -/
def Leaf.read? (d : Doc) : Option Leaf :=
  (d.fields? leafFields).bind fun fs => do
    let path ← fs.defaulted "attribute" "" Doc.string?
    let operator ← fs.defaulted "operator" "" Doc.string?
    let description ← fs.optional "description" Doc.string?
    let value ← fs.defaulted "value" none fun v => v.value?.map some
    let comparandPath ← fs.optional "resource_attribute" Doc.string?
    some ⟨path, operator, description, value, comparandPath⟩

/-- The node in a document of at most the given number of levels. -/
def Node.readWithin? : Nat → Doc → Option Node
  | 0, _ => none
  | levels + 1, d =>
      (d.fields? nodeFields).bind fun fs => do
        let description ← fs.optional "description" Doc.string?
        let logic ← fs.optional "logic_type" Doc.string?
        let children ← fs.optional "children" (Doc.list? (Node.readWithin? levels))
        let leaf ← fs.optional "leaf" Leaf.read?
        some (.node description logic children leaf)

/-- The node in a document. -/
def Node.read? (d : Doc) : Option Node := Node.readWithin? d.depth d

end Wire

/-! ## 2. Errors -/

/-- Why a record is no node of a tree. -/
inductive ShapeFault where
  | unknownOperator (operator : String)
  | missingOperator (path : String)
  | unknownLogic (logic : String)
  | leafAndBranch
  | missingLogic
  | emptyNode
  | conflictingComparands (path : String)
  deriving DecidableEq, Repr

/-- The wording of a fault of the node with the given label. -/
def ShapeFault.message (node : Label) : ShapeFault → String
  | .unknownOperator o => "leaf node" ++ node.text ++ " has unknown 'operator' '" ++ o ++ "'"
  | .missingOperator p =>
      "leaf node" ++ node.text ++ " (attribute '" ++ p ++ "') is missing required 'operator'"
  | .unknownLogic l =>
      "branch node" ++ node.text ++ " has invalid 'logic_type': '" ++ l
        ++ "' (must be AND or OR)"
  | .leafAndBranch =>
      "node" ++ node.text ++ " is incorrectly structured as both leaf and branch"
  | .missingLogic => "node" ++ node.text ++ " has 'children' but no 'logic_type'"
  | .emptyNode => "node" ++ node.text ++ " is empty and invalid (must be leaf or branch)"
  | .conflictingComparands p =>
      "leaf node" ++ node.text ++ " (attribute '" ++ p
        ++ "') cannot have both 'value' and 'resource_attribute' defined"

/-- A fault with the node it is found at. -/
structure ShapeError where
  trail : Trail
  node : Label
  fault : ShapeFault
  deriving DecidableEq, Repr

/-- The wording of a shape error, the trail in front. -/
def ShapeError.message (e : ShapeError) : String := e.trail.text ++ e.fault.message e.node

/-- Why a document describes no tree: its records have the wrong form, or one of them is no
    node. -/
inductive ParseError where
  | malformed
  | shape (e : ShapeError)
  deriving DecidableEq, Repr

/-! ## 3. From records to trees -/

namespace Wire

/-- A text that is there and has characters. -/
def filled? (s : Option String) : Option String := s.filter fun t => !t.isEmpty

/-- The comparand of a leaf. -/
def Leaf.comparand (l : Leaf) : Except ShapeFault Comparand :=
  match l.value, filled? l.comparandPath with
  | some _, some _ => .error (.conflictingComparands l.path)
  | some v, none => .ok (.literal v)
  | none, some p => .ok (.path ⟨p⟩)
  | none, none => .ok .absent

/-- The leaf that a record describes. -/
def Leaf.decode (l : Leaf) : Except ShapeFault Gatehouse.Leaf :=
  if l.operator.isEmpty then .error (.missingOperator l.path)
  else match Operator.ofName? l.operator with
    | none => .error (.unknownOperator l.operator)
    | some o => l.comparand.map fun c => ⟨⟨l.path⟩, o, c, l.description⟩

mutual

/-- The tree that a record at the end of a trail describes. -/
def Node.decodeAt (trail : Trail) : Node → Except ShapeError Condition
  | .node description logic children leaf =>
      let fault (f : ShapeFault) : Except ShapeError Condition :=
        .error ⟨trail, .ofDescription description, f⟩
      match leaf with
      | some l =>
          if (filled? logic).isSome || children.isSome then fault .leafAndBranch
          else match l.decode with
            | .error f => fault f
            | .ok l => .ok (.leaf l description)
      | none =>
          match filled? logic with
          | none =>
              match children with
              | some (_ :: _) => fault .missingLogic
              | _ => fault .emptyNode
          | some name =>
              match Logic.ofName? name with
              | none => fault (.unknownLogic name)
              | some logic =>
                  match children with
                  | none => .ok (.branch logic [] description)
                  | some cs =>
                      (decodeAmong trail (.ofDescription description) 1 cs).map fun decoded =>
                        .branch logic decoded description

/-- The trees of the children of a node, counted from `index`. -/
def decodeAmong (trail : Trail) (parent : Label) (index : Nat) :
    List Node → Except ShapeError (List Condition)
  | [] => .ok []
  | c :: cs =>
      match Node.decodeAt (trail ++ [⟨index, parent⟩]) c with
      | .error e => .error e
      | .ok d => (decodeAmong trail parent (index + 1) cs).map (d :: ·)

end

/-- The tree that a record describes. -/
def Node.decode (n : Node) : Except ShapeError Condition := n.decodeAt []

end Wire

/-! ## 4. From trees to values -/

namespace Comparand

/-- The fields of a comparand. -/
def entries : Comparand → List (String × Value)
  | .absent => []
  | .literal v => [("value", v)]
  | .path p => [("resource_attribute", .string p.text)]

end Comparand

/-- The field of a description. -/
def descriptionEntry : Option String → List (String × Value)
  | none => []
  | some s => [("description", .string s)]

/-- The record of a leaf. -/
def Leaf.toValue (l : Leaf) : Value :=
  .ofEntries
    ([("attribute", .string l.path.text), ("operator", .string l.operator.name)]
      ++ descriptionEntry l.description ++ l.comparand.entries)

namespace Condition

mutual

/-- The record of a tree. -/
def toValue : Condition → Value
  | .leaf l d => .ofEntries (descriptionEntry d ++ [("leaf", l.toValue)])
  | .branch logic children d =>
      .ofEntries (descriptionEntry d
        ++ [("logic_type", .string logic.name), ("children", .array (toValues children))])

/-- The records of trees, one by one. -/
def toValues : List Condition → List Value
  | [] => []
  | c :: cs => toValue c :: toValues cs

end

/-! ## 5. Reading -/

/-- The tree in a document. -/
def ofDoc (d : Doc) : Except ParseError Condition :=
  match Wire.Node.read? d with
  | none => .error .malformed
  | some n => n.decode.mapError .shape

/-- The tree in a value. -/
def ofValue (v : Value) : Except ParseError Condition := ofDoc (.ofValue v)

/-- The tree in a JSON text. -/
def parse (text : String) : Except ParseError Condition :=
  match Json.read? text with
  | none => .error .malformed
  | some d => ofDoc d

/-- The tree in a document, where it does not matter why there is none. -/
def read? (d : Doc) : Option Condition := (ofDoc d).toOption

end Condition

end Gatehouse
