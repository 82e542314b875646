import SeriesQuery.Document.Object
import SeriesQuery.Expr.Operator
import SeriesQuery.Reduction.Accumulator
import SeriesQuery.Resample.GapFill
import SeriesQuery.Stream.Merge

/-!
# Words of documents

The words that stand for the cases of the enumerations. Operators and calendar units are only
written as parts of an object; a data type may be either.
-/

namespace SeriesQuery

open SeriesQuery.Document

namespace DataType

def cases : List DataType := [.integer, .decimal, .string, .boolean, .timestamp]

def word : DataType → String
  | .integer => "Integer"
  | .decimal => "Decimal"
  | .string => "String"
  | .boolean => "Boolean"
  | .timestamp => "Timestamp"

def encode (type : DataType) : Json := .string type.word
def decode (place : Place) : Json → Option DataType := word? place cases word

end DataType

namespace JoinKind

def cases : List JoinKind := [.inner, .left, .full]

def word : JoinKind → String
  | .inner => "inner"
  | .left => "left"
  | .full => "full"

def encode (kind : JoinKind) : Json := .string kind.word
def decode : Json → Option JoinKind := word? .whole cases word

end JoinKind

namespace Reduction

def cases : List Reduction := [.sum, .avg, .min, .max, .count]

def encode (reduction : Reduction) : Json := .string reduction.name
def decode : Json → Option Reduction := word? .whole cases name

end Reduction

namespace FillMode

def cases : List FillMode := [.linear, .forwardFill]

def word : FillMode → String
  | .linear => "linear"
  | .forwardFill => "forward_fill"

def encode (mode : FillMode) : Json := .string mode.word
def decode : Json → Option FillMode := word? .whole cases word

end FillMode

namespace Comparison

def cases : List Comparison := [.equals, .notEquals, .greater, .greaterOrEqual, .less, .lessOrEqual]

def word : Comparison → String
  | .equals => "equals"
  | .notEquals => "not_equals"
  | .greater => "greater"
  | .greaterOrEqual => "greater_or_equal"
  | .less => "less"
  | .lessOrEqual => "less_or_equal"

def encode (op : Comparison) : Json := .string op.word
def decode : Json → Option Comparison := word? .part cases word

end Comparison

namespace LogicalOp

def cases : List LogicalOp := [.and, .or]

def encode (op : LogicalOp) : Json := .string op.symbol
def decode : Json → Option LogicalOp := word? .part cases symbol

end LogicalOp

namespace NumericOp

def cases : List NumericOp := [.add, .subtract, .multiply, .divide, .modulo]

def word : NumericOp → String
  | .add => "add"
  | .subtract => "subtract"
  | .multiply => "multiply"
  | .divide => "divide"
  | .modulo => "modulo"

def encode (op : NumericOp) : Json := .string op.word
def decode : Json → Option NumericOp := word? .part cases word

end NumericOp

namespace UnaryOp

def cases : List UnaryOp :=
  [.abs, .negate, .sqrt, .ceil, .floor, .round, .log, .log10, .exp, .sin, .cos, .tan]

def encode (op : UnaryOp) : Json := .string op.name
def decode : Json → Option UnaryOp := word? .part cases name

end UnaryOp

namespace CalendarUnit

def cases : List CalendarUnit := [.day, .week, .month]

def word : CalendarUnit → String
  | .day => "day"
  | .week => "week"
  | .month => "month"

def encode (unit : CalendarUnit) : Json := .string unit.word
def decode : Json → Option CalendarUnit := word? .part cases word

end CalendarUnit

end SeriesQuery
