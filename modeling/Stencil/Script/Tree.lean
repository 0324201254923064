/-!
# Syntax trees of scripts

The trees that the parser builds and the evaluator walks, and the static check that a function can
return a value (`FunctionDef.promisesValue`).
-/
namespace Stencil.Script

/-- How a declaration binds its names. -/
inductive DeclKind where
  | letDecl
  | constDecl
  | varDecl
  deriving Repr, DecidableEq

/-- Operators on one operand. -/
inductive UnaryOp where
  | not
  | neg
  | plus
  | typeOf
  | void
  deriving Repr, DecidableEq

/-- Steps that change a variable by one. -/
inductive UpdateOp where
  | inc
  | dec
  deriving Repr, DecidableEq

/-- Operators that evaluate both operands. -/
inductive BinaryOp where
  | add
  | sub
  | mul
  | div
  | rem
  | pow
  | eq
  | notEq
  | strictEq
  | strictNotEq
  | lt
  | ltEq
  | gt
  | gtEq
  | mem
  deriving Repr, DecidableEq

/-- Operators whose right operand is evaluated only if the left does not decide. -/
inductive LogicalOp where
  | and
  | or
  | nullish
  deriving Repr, DecidableEq

/-- Assignments, plain or combined with arithmetic. -/
inductive AssignOp where
  | assign
  | add
  | sub
  | mul
  | div
  | rem
  deriving Repr, DecidableEq

/-- The arithmetic that a combined assignment applies. -/
def AssignOp.binary? : AssignOp → Option BinaryOp
  | .assign => none
  | .add => some .add
  | .sub => some .sub
  | .mul => some .mul
  | .div => some .div
  | .rem => some .rem

mutual

/-- Expressions. -/
inductive Expr where
  | number (x : Float)
  | string (s : String)
  | bool (b : Bool)
  | null
  | undefined
  | template (parts : List TemplatePart)
  | name (x : String)
  | array (items : List Expr)
  | object (entries : List (String × Expr))
  /-- A member; `a.x` has the property `"x"`, and `optional` marks `a?.x`. -/
  | member (object property : Expr) (optional : Bool)
  | call (callee : Expr) (args : List Expr) (optional : Bool)
  | construct (callee : Expr) (args : List Expr)
  | unary (op : UnaryOp) (operand : Expr)
  /-- `first` marks the operator that stands before its target and gives the new value. -/
  | update (op : UpdateOp) (first : Bool) (target : Expr)
  | binary (op : BinaryOp) (left right : Expr)
  | logical (op : LogicalOp) (left right : Expr)
  | conditional (test consequent alternative : Expr)
  | assign (op : AssignOp) (target value : Expr)
  | function (definition : FunctionDef)
  | await (operand : Expr)
  | sequence (items : List Expr)

/-- Parts of a template literal. -/
inductive TemplatePart where
  | text (s : String)
  | interpolation (e : Expr)

/-- Statements. -/
inductive Stmt where
  | expr (e : Expr)
  | decl (kind : DeclKind) (declarators : List (String × Option Expr))
  | function (definition : FunctionDef)
  | return (value : Option Expr)
  | branch (test : Expr) (consequent : Stmt) (alternative : Option Stmt)
  | whileLoop (test : Expr) (body : Stmt)
  | doLoop (body : Stmt) (test : Expr)
  | forLoop (init : Option Stmt) (test update : Option Expr) (body : Stmt)
  | forOf (name : String) (source : Expr) (body : Stmt)
  | forIn (name : String) (source : Expr) (body : Stmt)
  | block (body : List Stmt)
  | break
  | continue
  | throw (value : Expr)
  | export (inner : Stmt)
  | exportDefault (value : Expr)
  | empty

/-- A function: its own name, its parameters and its body. -/
inductive FunctionDef where
  | mk (name : Option String) (params : List String) (body : FunctionBody) (arrow : Bool)

/-- The body of a function: one expression or a block. -/
inductive FunctionBody where
  | expr (e : Expr)
  | block (body : List Stmt)

end

instance : Inhabited Expr := ⟨.undefined⟩
instance : Inhabited Stmt := ⟨.empty⟩

namespace FunctionDef

/-- The name that the function has of its own. -/
def name : FunctionDef → Option String
  | .mk name _ _ _ => name

/-- The names of the parameters. -/
def params : FunctionDef → List String
  | .mk _ params _ _ => params

/-- The body. -/
def body : FunctionDef → FunctionBody
  | .mk _ _ body _ => body

/-- Whether the function is written with an arrow. -/
def isArrow : FunctionDef → Bool
  | .mk _ _ _ arrow => arrow

end FunctionDef

mutual

/-- Whether a statement holds a `return` with a value, those of inner functions aside. -/
def Stmt.returnsValue : Stmt → Bool
  | .return (some _) => true
  | .branch _ consequent (some alternative) => consequent.returnsValue || alternative.returnsValue
  | .branch _ consequent none => consequent.returnsValue
  | .whileLoop _ body | .doLoop body _ | .forLoop _ _ _ body | .forOf _ _ body
  | .forIn _ _ body => body.returnsValue
  | .block body => Stmt.anyReturnsValue body
  | _ => false

/-- Whether one of the statements holds a `return` with a value. -/
def Stmt.anyReturnsValue : List Stmt → Bool
  | [] => false
  | s :: rest => s.returnsValue || Stmt.anyReturnsValue rest

end

/-- Whether the function can return a value: it is one expression, or some `return` has a value. -/
def FunctionDef.promisesValue (f : FunctionDef) : Bool :=
  match f.body with
  | .expr _ => true
  | .block body => Stmt.anyReturnsValue body

end Stencil.Script
