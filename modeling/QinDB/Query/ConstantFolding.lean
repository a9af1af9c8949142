/-
# Query.ConstantFolding — folding constant expressions

`foldConstants` of `query_rewriter.cpp`. An expression without columns is replaced by the literal
that the evaluator gives for it. The evaluator reports an error on the side and returns null then;
the rewriter waits for an exception, so a constant that fails becomes the literal null.

* `foldConstants_sound_iff`: folding an expression and its parts keeps what they evaluate to
  exactly if none of its constant parts fails.
-/
import QinDB.Query.Expression

namespace QinDB.Query

open QinDB.Storage QinDB.Executor
open QinDB.Parser (Expression BinaryOp UnaryOp)

set_option autoImplicit false

section Folding

variable {V : Type}

mutual

def isConstant : Expression V → Bool
  | .literal _ => true
  | .binary left _ right => isConstant left && isConstant right
  | .unary _ expr => isConstant expr
  | .functionCall _ arguments => allConstant arguments
  | _ => false

def allConstant : List (Expression V) → Bool
  | [] => true
  | argument :: arguments => isConstant argument && allConstant arguments

end

variable (qt : Variant V) (ops : Operations V)

/-- The error of the evaluator is not looked at. -/
def evaluateConstant : Expression V → V
  | .null => qt.null
  | .literal value => value
  | expr =>
      match evaluateWithRow qt ops expr none [] with
      | .ok value => value
      | .error _ => qt.null

mutual

def foldConstants : Expression V → Expression V
  | .binary left op right =>
      let folded := .binary (foldConstants left) op (foldConstants right)
      if isConstant (foldConstants left) && isConstant (foldConstants right) then
        .literal (evaluateConstant qt ops folded)
      else folded
  | .unary op expr =>
      let folded := .unary op (foldConstants expr)
      if isConstant (foldConstants expr) then .literal (evaluateConstant qt ops folded) else folded
  | .functionCall name arguments =>
      let folded := .functionCall name (foldArguments arguments)
      if allConstant (foldArguments arguments) then .literal (evaluateConstant qt ops folded)
      else folded
  | .case whenClauses elseExpression =>
      .case (foldWhens whenClauses) (foldConstants elseExpression)
  | expr => expr

def foldArguments : List (Expression V) → List (Expression V)
  | [] => []
  | argument :: arguments => foldConstants argument :: foldArguments arguments

def foldWhens : List (Expression V × Expression V) → List (Expression V × Expression V)
  | [] => []
  | (condition, result) :: rest => (foldConstants condition, foldConstants result) :: foldWhens rest

end

/-- Folding keeps the value of an expression, and whether there is an error. -/
def FoldSound (expr : Expression V) : Prop :=
  ∀ schema row, (evaluateWithRow qt ops (foldConstants qt ops expr) schema row).toOption =
    (evaluateWithRow qt ops expr schema row).toOption

/-- A constant does not fail. -/
def ConstantEvaluates (expr : Expression V) : Prop :=
  isConstant expr = true → ∃ value, evaluateWithRow qt ops expr none [] = .ok value

/-- An expression and the parts that its operators are applied to. -/
def Throughout (P : Expression V → Prop) : Expression V → Prop
  | .binary left op right => P (.binary left op right) ∧ Throughout P left ∧ Throughout P right
  | .unary op expr => P (.unary op expr) ∧ Throughout P expr
  | expr => P expr

variable {qt ops} {P : Expression V → Prop} {expr left right : Expression V}

theorem Throughout.self (throughout : Throughout P expr) : P expr := by
  cases expr with
  | binary | unary => exact throughout.1
  | _ => exact throughout

mutual

theorem isConstant_foldConstants : ∀ expr : Expression V,
    isConstant (foldConstants qt ops expr) = isConstant expr
  | .binary left op right => by
      have first := isConstant_foldConstants left
      have second := isConstant_foldConstants right
      simp only [foldConstants, isConstant, first, second]
      split <;> simp_all [isConstant]
  | .unary op expr => by
      have part := isConstant_foldConstants expr
      simp only [foldConstants, isConstant, part]
      split <;> simp_all [isConstant]
  | .functionCall name arguments => by
      have parts := allConstant_foldArguments arguments
      simp only [foldConstants, isConstant, parts]
      split <;> simp_all [isConstant]
  | .case _ _ => by simp only [foldConstants, isConstant]
  | .null | .literal _ | .column _ _ | .aggregate _ _ _ | .subquery _ | .matchAgainst _ _ _ => rfl

theorem allConstant_foldArguments : ∀ arguments : List (Expression V),
    allConstant (foldArguments qt ops arguments) = allConstant arguments
  | [] => rfl
  | argument :: arguments => by
      rw [foldArguments, allConstant, allConstant, isConstant_foldConstants argument,
        allConstant_foldArguments arguments]

end

/-- A constant that fails is null. -/
theorem evaluateConstant_eq (expr : Expression V) : evaluateConstant qt ops expr =
    ((evaluateWithRow qt ops expr none []).toOption).getD qt.null := by
  cases expr with
  | null | literal => rfl
  | _ =>
    simp only [evaluateConstant]
    split <;> simp_all [Except.toOption]

/-- A constant does not look at tables and rows. -/
theorem evaluateWithRow_constant : ∀ {expr : Expression V}, isConstant expr = true →
    ∀ schema row, evaluateWithRow qt ops expr schema row = evaluateWithRow qt ops expr none []
  | .literal _, _, _, _ => rfl
  | .binary left op right, constant, schema, row => by
      obtain ⟨first, second⟩ := Bool.and_eq_true_iff.mp constant
      simp only [evaluateWithRow, evaluateWithRow_constant first schema row,
        evaluateWithRow_constant second schema row]
  | .unary op expr, constant, schema, row => by
      have inner : isConstant expr = true := constant
      simp only [evaluateWithRow, evaluateWithRow_constant inner schema row]
  | .functionCall _ _, _, _, _ => rfl

theorem toOption_binary {left' right' : Expression V} {op : BinaryOp}
    {schema : Option TableSchema} {row : List V}
    (first : (evaluateWithRow qt ops left' schema row).toOption =
      (evaluateWithRow qt ops left schema row).toOption)
    (second : (evaluateWithRow qt ops right' schema row).toOption =
      (evaluateWithRow qt ops right schema row).toOption) :
    (evaluateWithRow qt ops (.binary left' op right') schema row).toOption =
      (evaluateWithRow qt ops (.binary left op right) schema row).toOption := by
  simp only [evaluateWithRow]
  cases l : evaluateWithRow qt ops left schema row <;>
    cases l' : evaluateWithRow qt ops left' schema row <;>
    cases r : evaluateWithRow qt ops right schema row <;>
    cases r' : evaluateWithRow qt ops right' schema row <;>
    simp_all [Except.toOption]

theorem toOption_unary {expr' : Expression V} {op : UnaryOp} {schema : Option TableSchema}
    {row : List V} (same : (evaluateWithRow qt ops expr' schema row).toOption =
      (evaluateWithRow qt ops expr schema row).toOption) :
    (evaluateWithRow qt ops (.unary op expr') schema row).toOption =
      (evaluateWithRow qt ops (.unary op expr) schema row).toOption := by
  simp only [evaluateWithRow]
  cases e : evaluateWithRow qt ops expr schema row <;>
    cases e' : evaluateWithRow qt ops expr' schema row <;> simp_all [Except.toOption]

/-- An operator on folded parts: the constant is folded to its value exactly if it has one. -/
theorem foldSound_iff_of_folded (folded : Expression V)
    (step : foldConstants qt ops expr =
      if isConstant expr = true then .literal (evaluateConstant qt ops folded) else folded)
    (same : ∀ schema row, (evaluateWithRow qt ops folded schema row).toOption =
      (evaluateWithRow qt ops expr schema row).toOption) :
    FoldSound qt ops expr ↔ ConstantEvaluates qt ops expr := by
  rw [FoldSound, step]
  by_cases constant : isConstant expr = true
  · rw [if_pos constant, evaluateConstant_eq, same none []]
    constructor
    · intro sound _
      have here := sound none []
      cases result : evaluateWithRow qt ops expr none [] with
      | ok value => exact ⟨value, rfl⟩
      | error message =>
        rw [result] at here
        cases here
    · intro evaluates schema row
      obtain ⟨value, ok⟩ := evaluates constant
      rw [evaluateWithRow_constant constant schema row, ok]
      rfl
  · rw [if_neg constant]
    exact iff_of_true same fun isConst => absurd isConst constant

theorem foldSound_binary_iff (op : BinaryOp) (first : FoldSound qt ops left)
    (second : FoldSound qt ops right) : FoldSound qt ops (.binary left op right) ↔
      ConstantEvaluates qt ops (.binary left op right) := by
  apply foldSound_iff_of_folded
    (.binary (foldConstants qt ops left) op (foldConstants qt ops right))
  · rw [foldConstants, isConstant_foldConstants, isConstant_foldConstants]
    rfl
  · exact fun schema row => toOption_binary (first schema row) (second schema row)

theorem foldSound_unary_iff (op : UnaryOp) (inner : FoldSound qt ops expr) :
    FoldSound qt ops (.unary op expr) ↔ ConstantEvaluates qt ops (.unary op expr) := by
  apply foldSound_iff_of_folded (.unary op (foldConstants qt ops expr))
  · rw [foldConstants, isConstant_foldConstants]
    rfl
  · exact fun schema row => toOption_unary (inner schema row)

/-- Calls are not evaluated: before folding a call is always an error. -/
theorem foldSound_functionCall_iff (name : Identifier) (arguments : List (Expression V)) :
    FoldSound qt ops (.functionCall name arguments) ↔
      ConstantEvaluates qt ops (.functionCall name arguments) := by
  apply foldSound_iff_of_folded (.functionCall name (foldArguments qt ops arguments))
  · rw [foldConstants, allConstant_foldArguments]
    rfl
  · exact fun schema row => rfl

/-- Folding keeps the meaning of an expression and its parts exactly if none of its constant
parts fails. -/
theorem foldConstants_sound_iff : ∀ expr : Expression V,
    Throughout (FoldSound qt ops) expr ↔ Throughout (ConstantEvaluates qt ops) expr
  | .binary left op right => by
      have first := foldConstants_sound_iff left
      have second := foldConstants_sound_iff right
      rw [Throughout, Throughout, ← first, ← second]
      refine and_congr_left fun ⟨leftSound, rightSound⟩ => ?_
      exact foldSound_binary_iff op leftSound.self rightSound.self
  | .unary op expr => by
      have inner := foldConstants_sound_iff expr
      rw [Throughout, Throughout, ← inner]
      exact and_congr_left fun sound => foldSound_unary_iff op sound.self
  | .functionCall name arguments => foldSound_functionCall_iff name arguments
  | .case _ _ => iff_of_true (fun _ _ => rfl) fun constant => absurd constant Bool.false_ne_true
  | .literal value => iff_of_true (fun _ _ => rfl) fun _ => ⟨value, rfl⟩
  | .null | .column _ _ | .aggregate _ _ _ | .subquery _ | .matchAgainst _ _ _ =>
      iff_of_true (fun _ _ => rfl) fun constant => absurd constant Bool.false_ne_true

end Folding

namespace Literals

/-- `1 / 0` is an error, and folded it is null. -/
theorem fold_division :
    evaluateWithRow (cells conv) ops (.binary (.literal (.integer 1)) .DIV (.literal (.integer 0)))
        none [] = .error "Division by zero" ∧
      evaluateWithRow (cells conv) ops (foldConstants (cells conv) ops
        (.binary (.literal (.integer 1)) .DIV (.literal (.integer 0)))) none [] = .ok .null :=
  ⟨rfl, rfl⟩

end Literals

end QinDB.Query
