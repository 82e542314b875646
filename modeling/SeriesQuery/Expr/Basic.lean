import SeriesQuery.Expr.Operator
import SeriesQuery.Field.Basic

/-!
# Expressions

Typed scalar expressions over the rows of a query, as a user writes them.
-/

namespace SeriesQuery

inductive Expr where
  | constant (field : Field) (value : Value)
  | reference (urn : String)
  | cast (source : Expr) (target : DataType)
  | condition (op : Comparison) (left right : Expr)
  | logical (op : LogicalOp) (left right : Expr)
  | numeric (op : NumericOp) (left right : Expr)
  | unary (op : UnaryOp) (operand : Expr)
  /-- The source, or the alternative where the source is null. -/
  | nvl (source alternative : Expr)
  | selector (selector whenTrue whenFalse : Expr)

end SeriesQuery
