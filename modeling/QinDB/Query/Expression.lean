/-
# Query.Expression — the expression evaluator

`expression_evaluator.cpp` on the expressions of the parser. Operands are evaluated from left to
right and the first error ends the evaluation. Literals, columns, arithmetic, comparisons and the
connectives of SQL's three-valued logic are evaluated; every other kind of expression is an error.
Qt's conversions and arithmetic on values that are not null are parameters.
-/
import QinDB.Executor.Select
import QinDB.Parser.Ast
import QinDB.Storage.RecordBytes

namespace QinDB.Query

open QinDB.Storage QinDB.Executor
open QinDB.Parser (Expression BinaryOp UnaryOp)

set_option autoImplicit false

/-- What evaluation asks of values besides their storage: conversions and arithmetic of Qt on
values that are not null. -/
structure Operations (V : Type) where
  ofBool : Bool → V
  negate : V → Except String V
  arithmetic : BinaryOp → V → V → Except String V
  compare : BinaryOp → V → V → Except String V

section Evaluation

variable {V : Type} (qt : Variant V) (ops : Operations V)

/-! ## Operators -/

def evaluateArithmetic (left right : V) (op : BinaryOp) : Except String V :=
  if qt.isNull left || qt.isNull right then .ok qt.null else ops.arithmetic op left right

/-- Two nulls are equal, and a null is not equal to another value; the other comparisons with null
are null. -/
def evaluateComparison (left right : V) (op : BinaryOp) : Except String V :=
  match op, qt.isNull left, qt.isNull right with
  | .EQ, true, true => .ok (ops.ofBool true)
  | .EQ, true, false | .EQ, false, true => .ok (ops.ofBool false)
  | .NE, true, true => .ok (ops.ofBool false)
  | .NE, true, false | .NE, false, true => .ok (ops.ofBool true)
  | _, false, false => ops.compare op left right
  | _, _, _ => .ok qt.null

/-- Neither null nor true. -/
def isFalse (value : V) : Bool := !qt.isNull value && !qt.toBool value

def evaluateLogical (left right : V) (op : BinaryOp) : Except String V :=
  match op with
  | .AND =>
      if isFalse qt left || isFalse qt right then .ok (ops.ofBool false)
      else if qt.isNull left || qt.isNull right then .ok qt.null
      else .ok (ops.ofBool (qt.toBool left && qt.toBool right))
  | .OR =>
      if isTrue qt left || isTrue qt right then .ok (ops.ofBool true)
      else if qt.isNull left || qt.isNull right then .ok qt.null
      else .ok (ops.ofBool (qt.toBool left || qt.toBool right))
  | _ => .error "Unsupported logical operator"

def evaluateBinaryOp (left right : V) (op : BinaryOp) : Except String V :=
  match op with
  | .ADD | .SUB | .MUL | .DIV | .MOD => evaluateArithmetic qt ops left right op
  | .EQ | .NE | .LT | .LE | .GT | .GE => evaluateComparison qt ops left right op
  | .AND | .OR => evaluateLogical qt ops left right op
  | .LIKE | .IN => .error "Unsupported binary operator"

def evaluateUnaryOp (operand : V) (op : UnaryOp) : Except String V :=
  match op with
  | .MINUS => if qt.isNull operand then .ok qt.null else ops.negate operand
  | .NOT => if qt.isNull operand then .ok qt.null else .ok (ops.ofBool (!qt.toBool operand))
  | .IS_NULL => .ok (ops.ofBool (qt.isNull operand))
  | .IS_NOT_NULL => .ok (ops.ofBool (!qt.isNull operand))
  | .PLUS => .error "Unsupported unary operator"

/-! ## Expressions -/

def qualified (table column : Identifier) : String :=
  String.ofList (if table = [] then column else table ++ ['.'] ++ column)

def evaluateColumn (table column : Identifier) (schema : Option TableSchema) (row : List V) :
    Except String V :=
  match schema with
  | none => .error ("Column reference '" ++ qualified table column ++
      "' is not allowed in this context. If you meant to insert a string value, please use " ++
      "quotes: '" ++ qualified table column ++ "'")
  | some definition =>
      match definition.columns.findIdx? fun candidate =>
          candidate.name.toLower = column.toLower with
      | none => .error ("Column '" ++ String.ofList column ++ "' not found in table '" ++
          String.ofList definition.name ++ "'")
      | some index =>
          match row[index]? with
          | none => .error ("Row does not have column at index " ++ toString index)
          | some value => .ok value

def evaluateWithRow : Expression V → Option TableSchema → List V → Except String V
  | .null, _, _ => .error "Null expression"
  | .literal value, _, _ => .ok value
  | .binary left op right, schema, row =>
      match evaluateWithRow left schema row with
      | .error message => .error message
      | .ok l =>
          match evaluateWithRow right schema row with
          | .error message => .error message
          | .ok r => evaluateBinaryOp qt ops l r op
  | .unary op expr, schema, row =>
      match evaluateWithRow expr schema row with
      | .error message => .error message
      | .ok operand => evaluateUnaryOp qt ops operand op
  | .column table column, schema, row => evaluateColumn table column schema row
  | _, _, _ => .error "Unsupported expression type"

def expressionEvaluator : Evaluator V (Expression V) := ⟨evaluateWithRow qt ops⟩

end Evaluation

namespace Literals

/-- Integers, of which zero is false. -/
def conv : Conversions :=
  { RawPage.Literals.conv with toBool := fun value => decide (value ≠ .integer 0) }

def ops : Operations Cell where
  ofBool := fun truth => .integer (if truth then 1 else 0)
  negate := .ok
  arithmetic := fun op left right =>
    if op = .DIV ∧ right = .integer 0 then .error "Division by zero" else .ok left
  compare := fun _ left right => .ok (.integer (if left = right then 1 else 0))

end Literals

end QinDB.Query
