/-
# Parser.Ast — expressions and SELECT statements as the parser builds them

The classes of `ast.h` that a SELECT consists of, and their `toString`. Sub-expressions are
pointers there: `Expression.null` is a null pointer. The parser never leaves one inside an
expression, but other code may; `toString` goes through every pointer without a check, so it is
`none` where it would reach a null one.
-/
import QinDB.Storage.TablePage

namespace QinDB.Parser

open QinDB.Storage

set_option autoImplicit false

inductive BinaryOp where
  | ADD | SUB | MUL | DIV | MOD
  | EQ | NE | LT | LE | GT | GE
  | AND | OR
  | LIKE | IN
  deriving DecidableEq, Repr

inductive UnaryOp where
  | NOT | MINUS | PLUS | IS_NULL | IS_NOT_NULL
  deriving DecidableEq, Repr

inductive AggFunc where
  | COUNT | SUM | AVG | MIN | MAX
  deriving DecidableEq, Repr

inductive MatchMode where
  | NATURAL_LANGUAGE | BOOLEAN
  deriving DecidableEq, Repr

inductive JoinType where
  | INNER | LEFT | RIGHT | FULL | CROSS
  deriving DecidableEq, Repr

/-- The alias is empty when there is none. -/
structure TableReference where
  tableName : Identifier
  alias_ : Identifier
  deriving DecidableEq, Repr

mutual

inductive Expression (V : Type) where
  | null
  | literal (value : V)
  | column (table column : Identifier)
  | binary (left : Expression V) (op : BinaryOp) (right : Expression V)
  | unary (op : UnaryOp) (expr : Expression V)
  | aggregate (func : AggFunc) (argument : Expression V) (distinct : Bool)
  | functionCall (name : Identifier) (arguments : List (Expression V))
  | case (whenClauses : List (Expression V × Expression V)) (elseExpression : Expression V)
  | subquery (query : SelectStatement V)
  | matchAgainst (columns : List Identifier) (query : Identifier) (mode : MatchMode)

structure JoinClause (V : Type) where
  type : JoinType
  right : TableReference
  condition : Expression V

structure OrderByItem (V : Type) where
  expression : Expression V
  ascending : Bool

structure GroupByClause (V : Type) where
  expressions : List (Expression V)
  having_ : Expression V

/-- `limit` and `offset` are negative when they are not given, and the path of an export is empty
then. -/
structure SelectStatement (V : Type) where
  distinct : Bool
  selectList : List (Expression V)
  selectAliases : List Identifier
  from_ : Option TableReference
  joins : List (JoinClause V)
  where_ : Expression V
  groupBy : Option (GroupByClause V)
  orderBy : List (OrderByItem V)
  limit : Int
  offset : Int
  exportFilePath : Identifier
  exportFormat : Identifier

end

/-! ## Texts -/

def BinaryOp.text : BinaryOp → Identifier
  | .ADD => "+".toList
  | .SUB => "-".toList
  | .MUL => "*".toList
  | .DIV => "/".toList
  | .MOD => "%".toList
  | .EQ => "=".toList
  | .NE => "!=".toList
  | .LT => "<".toList
  | .LE => "<=".toList
  | .GT => ">".toList
  | .GE => ">=".toList
  | .AND => "AND".toList
  | .OR => "OR".toList
  | .LIKE => "LIKE".toList
  | .IN => "IN".toList

def UnaryOp.text : UnaryOp → Identifier
  | .NOT => "NOT".toList
  | .MINUS => "-".toList
  | .PLUS => "+".toList
  | .IS_NULL => "IS NULL".toList
  | .IS_NOT_NULL => "IS NOT NULL".toList

def AggFunc.text : AggFunc → Identifier
  | .COUNT => "COUNT".toList
  | .SUM => "SUM".toList
  | .AVG => "AVG".toList
  | .MIN => "MIN".toList
  | .MAX => "MAX".toList

def JoinType.text : JoinType → Identifier
  | .INNER => "INNER JOIN".toList
  | .LEFT => "LEFT JOIN".toList
  | .RIGHT => "RIGHT JOIN".toList
  | .FULL => "FULL JOIN".toList
  | .CROSS => "CROSS JOIN".toList

def TableReference.text (table : TableReference) : Identifier :=
  if table.alias_ = [] then table.tableName else table.tableName ++ " AS ".toList ++ table.alias_

/-- Texts with a separator between them. -/
def joined (separator : Identifier) : List Identifier → Identifier
  | [] => []
  | [text] => text
  | text :: rest => text ++ separator ++ joined separator rest

def MatchMode.text : MatchMode → Identifier
  | .NATURAL_LANGUAGE => []
  | .BOOLEAN => " IN BOOLEAN MODE".toList

/-- The items of a select list with their aliases. -/
def withAliases : List Identifier → List Identifier → List Identifier
  | text :: texts, name :: names =>
      (if name = [] then text else text ++ " AS ".toList ++ name) :: withAliases texts names
  | texts, _ => texts

def numberText (keyword : Identifier) (number : Int) : Identifier :=
  if number < 0 then [] else keyword ++ (toString number).toList

/-- A part that is left out when its pointer is null. -/
def optionalText {V : Type} (keyword : Identifier) (expr : Expression V)
    (text : Option Identifier) : Option Identifier :=
  match expr with
  | .null => some []
  | _ => text.map (keyword ++ ·)

section Texts

variable {V : Type} (valueText : V → Identifier)

mutual

def Expression.toString : Expression V → Option Identifier
  | .null => none
  | .literal value => some (valueText value)
  | .column table column => some (if table = [] then column else table ++ ['.'] ++ column)
  | .binary left op right =>
      match left.toString, right.toString with
      | some l, some r => some (['('] ++ l ++ [' '] ++ op.text ++ [' '] ++ r ++ [')'])
      | _, _ => none
  | .unary op expr =>
      match expr.toString with
      | none => none
      | some text =>
          match op with
          | .IS_NULL | .IS_NOT_NULL => some (text ++ [' '] ++ op.text)
          | _ => some (op.text ++ [' '] ++ text)
  | .aggregate func argument distinct =>
      match argument.toString with
      | none => none
      | some text => some (func.text ++ ['('] ++ (if distinct then "DISTINCT ".toList else []) ++
          text ++ [')'])
  | .functionCall name arguments =>
      match listTexts arguments with
      | none => none
      | some texts => some (name ++ ['('] ++ joined ", ".toList texts ++ [')'])
  | .case whenClauses elseExpression =>
      match whenTexts whenClauses,
          optionalText " ELSE ".toList elseExpression elseExpression.toString with
      | some whens, some otherwise => some ("CASE".toList ++ whens ++ otherwise ++ " END".toList)
      | _, _ => none
  | .subquery query =>
      match query.toString with
      | none => none
      | some text => some (['('] ++ text ++ [')'])
  | .matchAgainst columns query mode =>
      some ("MATCH(".toList ++ joined ", ".toList columns ++ ") AGAINST('".toList ++ query ++
        "'".toList ++ mode.text ++ ")".toList)

def listTexts : List (Expression V) → Option (List Identifier)
  | [] => some []
  | expr :: rest =>
      match expr.toString, listTexts rest with
      | some text, some texts => some (text :: texts)
      | _, _ => none

def whenTexts : List (Expression V × Expression V) → Option Identifier
  | [] => some []
  | (condition, result) :: rest =>
      match condition.toString, result.toString, whenTexts rest with
      | some condition, some result, some texts =>
          some (" WHEN ".toList ++ condition ++ " THEN ".toList ++ result ++ texts)
      | _, _, _ => none

def joinTexts : List (JoinClause V) → Option Identifier
  | [] => some []
  | ⟨type, right, condition⟩ :: rest =>
      match optionalText " ON ".toList condition condition.toString, joinTexts rest with
      | some on, some texts => some ([' '] ++ type.text ++ [' '] ++ right.text ++ on ++ texts)
      | _, _ => none

def orderTexts : List (OrderByItem V) → Option (List Identifier)
  | [] => some []
  | ⟨expression, ascending⟩ :: rest =>
      match expression.toString, orderTexts rest with
      | some text, some texts =>
          some ((text ++ (if ascending then " ASC".toList else " DESC".toList)) :: texts)
      | _, _ => none

def groupText : Option (GroupByClause V) → Option Identifier
  | none => some []
  | some ⟨expressions, having_⟩ =>
      match listTexts expressions, optionalText " HAVING ".toList having_ having_.toString with
      | some texts, some text => some (" GROUP BY ".toList ++ joined ", ".toList texts ++ text)
      | _, _ => none

def SelectStatement.toString : SelectStatement V → Option Identifier
  | ⟨distinct, selectList, selectAliases, from_, joins, where_, groupBy, orderBy, limit, offset,
      _, _⟩ =>
      match listTexts selectList, joinTexts joins,
          optionalText " WHERE ".toList where_ where_.toString, groupText groupBy,
          orderTexts orderBy with
      | some list, some joins, some condition, some group, some order =>
          some ("SELECT ".toList ++ (if distinct then "DISTINCT ".toList else []) ++
            joined ", ".toList (withAliases list selectAliases) ++
            (match from_ with | none => [] | some table => " FROM ".toList ++ table.text) ++
            joins ++ condition ++ group ++
            (if order = [] then [] else " ORDER BY ".toList ++ joined ", ".toList order) ++
            numberText " LIMIT ".toList limit ++ numberText " OFFSET ".toList offset)
      | _, _, _, _, _ => none

end

end Texts

end QinDB.Parser
