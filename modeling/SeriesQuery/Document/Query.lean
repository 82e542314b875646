import SeriesQuery.Document.Scalar
import SeriesQuery.Document.Words
import SeriesQuery.Expr.Basic
import SeriesQuery.Json.Skip

/-!
# Documents of queries

The JSON forms of fields and expressions. A unit that is missing and empty metadata are not
written. What else stands in a field of its own text is passed over.
-/

namespace SeriesQuery

open SeriesQuery.Document

namespace Field

def encodeUnit : Option String → List (String × Json)
  | some unit => [("unit", .string unit)]
  | none => []

def encodeMeta (metadata : Meta) : List (String × Json) :=
  if metadata.entries.isEmpty then [] else [("custom_meta", .object metadata.entries)]

def encode (field : Field) : Json :=
  .object ([("urn", .string field.urn), ("data_type", field.dataType.encode),
    ("required", .bool field.required)] ++ encodeUnit field.unit ++ encodeMeta field.metadata)

def decodeUnit : Option Json → Option (Option String)
  | none => some none
  | some .null => some none
  | some tree => (text? tree).map some

def decodeMeta : Option Json → Option Meta
  | none => some .empty
  | some tree => (entries? tree).map Meta.ofEntries

def keys : List String := ["urn", "data_type", "required", "unit", "custom_meta"]

def decodeEntries (place : Place) (entries : List (String × Json)) : Option Field := do
  let urn ← text? (← required? entries "urn")
  let dataType ← DataType.decode place (← required? entries "data_type")
  let required ← truth? (← required? entries "required")
  let unit ← decodeUnit (← optional? entries "unit")
  let metadata ← decodeMeta (← optional? entries "custom_meta")
  return { urn, dataType, required, unit, metadata }

def decode (tree : Json) : Option Field := do
  decodeEntries .part (← entries? tree)

def read? (text : String) : Option Field := do
  decodeEntries .whole (← Json.readKnown? keys text)

end Field

namespace Expr

def node (name : String) (entries : List (String × Json)) : Json :=
  .object (("node", .string name) :: entries)

def encode : Expr → Json
  | .constant field value => node "constant" [("field", field.encode), ("value", value.encode)]
  | .reference urn => node "reference" [("urn", .string urn)]
  | .cast source target => node "cast" [("source", source.encode), ("target", target.encode)]
  | .condition op left right =>
    node "condition" [("op", op.encode), ("left", left.encode), ("right", right.encode)]
  | .logical op left right =>
    node "logical" [("op", op.encode), ("left", left.encode), ("right", right.encode)]
  | .numeric op left right =>
    node "numeric" [("op", op.encode), ("left", left.encode), ("right", right.encode)]
  | .unary op operand => node "unary" [("op", op.encode), ("operand", operand.encode)]
  | .nvl source alternative =>
    node "nvl" [("source", source.encode), ("alternative", alternative.encode)]
  | .selector choice whenTrue whenFalse =>
    node "selector" [("selector", choice.encode), ("when_true", whenTrue.encode),
      ("when_false", whenFalse.encode)]

def nodeNames : List String :=
  ["constant", "reference", "cast", "condition", "logical", "numeric", "unary", "nvl", "selector"]

/-- The name of a node; inside a node also its number among the names. -/
def nodeName? : Place → Json → Option String
  | _, .string name => some name
  | .part, .integer (.ofNat n) => nodeNames[n]?
  | _, _ => none

def decodeNode (place : Place) (entries : List (String × Json))
    (parts : List (String × Option Expr)) : Option Expr := do
  let entry := required? entries
  let part := fun key => (required? parts key).join
  match ← nodeName? place (← entry "node") with
  | "constant" =>
    return .constant (← Field.decode (← entry "field")) (← Value.decode (← entry "value"))
  | "reference" => return .reference (← text? (← entry "urn"))
  | "cast" => return .cast (← part "source") (← DataType.decode .part (← entry "target"))
  | "condition" =>
    return .condition (← Comparison.decode (← entry "op")) (← part "left") (← part "right")
  | "logical" =>
    return .logical (← LogicalOp.decode (← entry "op")) (← part "left") (← part "right")
  | "numeric" =>
    return .numeric (← NumericOp.decode (← entry "op")) (← part "left") (← part "right")
  | "unary" => return .unary (← UnaryOp.decode (← entry "op")) (← part "operand")
  | "nvl" => return .nvl (← part "source") (← part "alternative")
  | "selector" =>
    return .selector (← part "selector") (← part "when_true") (← part "when_false")
  | _ => none

mutual

def decodeAt (place : Place) : Json → Option Expr
  | .object entries => decodeNode place entries (decodeEntries entries)
  | .null => none
  | .bool _ => none
  | .integer _ => none
  | .decimal _ => none
  | .string _ => none
  | .array _ => none

def decodeEntries : List (String × Json) → List (String × Option Expr)
  | [] => []
  | (key, tree) :: rest => (key, decodeAt .part tree) :: decodeEntries rest

end

def decode (tree : Json) : Option Expr := decodeAt .whole tree

end Expr

end SeriesQuery
