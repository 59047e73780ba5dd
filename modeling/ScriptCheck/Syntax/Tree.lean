import ScriptCheck.Declaration.Record
import ScriptCheck.Span

/-!
# Syntax trees

The tree of a script as the analysis takes it. Every node carries a number and a place (`Node`); the number is the key
under which the analysis notes what it found out about the node, and the place only goes into diagnostics.
-/

namespace ScriptCheck

/-- The number of a node, unique in its tree, and where it stands in the source. -/
structure Node where
  id : Nat
  span : Span
  deriving DecidableEq, Repr, Inhabited

/-- How a node's number is shown. -/
def displayNodeId (id : Nat) : String := "node#" ++ toString id

/-! ### Operators -/

inductive BinaryOp where
  | add | sub | mul | div | rem
  | eq | ne
  | lt | gt | le | ge
  | and | or
  deriving DecidableEq, Repr

/-- How the operator is written. -/
def BinaryOp.symbol : BinaryOp → String
  | add => "+"
  | sub => "-"
  | mul => "*"
  | div => "/"
  | rem => "%"
  | eq => "=="
  | ne => "!="
  | lt => "<"
  | gt => ">"
  | le => "<="
  | ge => ">="
  | and => "&&"
  | or => "||"

/-- The two directions in which a variable steps. -/
inductive StepOp where
  | up
  | down
  deriving DecidableEq, Repr

/-- The name of the member that says how a type steps. -/
def StepOp.member : StepOp → Name
  | up => .increment
  | down => .decrement

inductive UnaryOp where
  | neg
  | not
  /-- `++` or `--`; `before` where it is written before its operand. -/
  | step (op : StepOp) (before : Bool)
  deriving DecidableEq, Repr

namespace UnaryOp

/-- How the operator is written. -/
def symbol : UnaryOp → String
  | neg => "-"
  | not => "!"
  | step .up _ => "++"
  | step .down _ => "--"

/-- The step an operator takes, for `++` and `--`. -/
def step? : UnaryOp → Option StepOp
  | step op _ => some op
  | _ => none

/-- Whether this is `++` or `--` written before its operand. -/
def stepsBefore : UnaryOp → Bool
  | step _ before => before
  | _ => false

end UnaryOp

/-! ### Type expressions -/

/-- A type as it is written. -/
inductive TypeExpr where
  /-- `List<int>`, `T` -/
  | named (node : Node) (name : String) (args : List TypeExpr)
  /-- `X<int>.Y<string>` -/
  | member (node : Node) (parent : TypeExpr) (name : String) (args : List TypeExpr)
  /-- `func<R, P, Q>` -/
  | func (node : Node) (ret : TypeExpr) (params : List TypeExpr)
  | void (node : Node)
  /-- `var`: the type is that of the initial value. -/
  | var (node : Node)

/-- The node of a type expression. -/
def TypeExpr.node : TypeExpr → Node
  | named n .. => n
  | member n .. => n
  | func n .. => n
  | void n => n
  | var n => n

/-! ### Expressions and statements -/

/-- A lambda's parameter, with or without a type. -/
structure LambdaParam where
  node : Node
  name : String
  ty : Option TypeExpr

mutual

inductive Expr where
  | identifier (node : Node) (name : String) (typeArgs : List TypeExpr)
  | intLit (node : Node) (value : Int)
  | boolLit (node : Node) (value : Bool)
  | strLit (node : Node) (value : String)
  | binary (node : Node) (op : BinaryOp) (left right : Expr)
  | unary (node : Node) (op : UnaryOp) (operand : Expr)
  | assign (node : Node) (target value : Expr)
  | call (node : Node) (callee : Expr) (args : List Expr)
  | lambda (node : Node) (params : List LambdaParam) (ret : Option TypeExpr) (body : Body)
  | member (node : Node) (object : Expr) (name : String) (typeArgs : List TypeExpr)
  | index (node : Node) (object index : Expr)
  /-- `value is T` -/
  | isTest (node : Node) (value : Expr) (ty : TypeExpr)

/-- The body of a lambda: one expression, or a block. -/
inductive Body where
  | expr (value : Expr)
  | block (block : Block)

inductive Stmt where
  | varDecl (node : Node) (ty : TypeExpr) (name : String) (init : Option Expr)
  | ifThen (node : Node) (cond : Expr) (thenBody : Stmt) (elseBody : Option Stmt)
  | whileDo (node : Node) (cond : Expr) (body : Stmt)
  | block (node : Node) (block : Block)
  | expr (node : Node) (value : Expr)
  | ret (node : Node) (value : Option Expr)
  | yields (node : Node) (value : Expr)
  | breaks (node : Node)
  | continues (node : Node)
  /-- A block that runs on its own; it reaches the variables around it through captures. -/
  | task (node : Node) (block : Block)
  | awaits (node : Node) (block : Block)

inductive Block where
  | mk (node : Node) (stmts : List Stmt)

end

/-- The node of an expression. -/
def Expr.node : Expr → Node
  | identifier n .. => n
  | intLit n _ => n
  | boolLit n _ => n
  | strLit n _ => n
  | binary n .. => n
  | unary n .. => n
  | assign n .. => n
  | call n .. => n
  | lambda n .. => n
  | member n .. => n
  | index n .. => n
  | isTest n .. => n

/-- The name of an identifier that is written without type arguments. -/
def Expr.plainName? : Expr → Option String
  | identifier _ name [] => some name
  | _ => none

/-- The node of a statement. -/
def Stmt.node : Stmt → Node
  | varDecl n .. => n
  | ifThen n .. => n
  | whileDo n .. => n
  | block n _ => n
  | expr n _ => n
  | ret n _ => n
  | yields n _ => n
  | breaks n => n
  | continues n => n
  | task n _ => n
  | awaits n _ => n

/-- The name that a statement declares in the scope it stands in. -/
def Stmt.declared? : Stmt → Option String
  | varDecl _ _ name _ => some name
  | _ => none

/-- The node of a block. -/
def Block.node : Block → Node
  | mk n _ => n

/-- The statements of a block. -/
def Block.stmts : Block → List Stmt
  | mk _ ss => ss

/-- The node of a lambda's body. -/
def Body.node : Body → Node
  | expr e => e.node
  | block b => b.node

/-! ### Declarations -/

/-- The kinds of types that a script can declare. -/
inductive DeclKind where
  | classDecl
  | structDecl
  | enumDecl
  deriving DecidableEq, Repr

/-- The kind of type that a declaration of this kind makes. -/
def DeclKind.typeKind : DeclKind → TypeKind
  | classDecl => .classType
  | structDecl => .structType
  | enumDecl => .enumType

/-- A parameter of a declared function. -/
structure FuncParam where
  node : Node
  name : String
  ty : TypeExpr

/-- A function, at the top level or as a member. -/
structure FuncDecl where
  node : Node
  name : Name
  typeParams : List String
  params : List FuncParam
  ret : TypeExpr
  /-- The body yields values one by one. -/
  isSequence : Bool
  isStatic : Bool
  body : Block

/-- A variable of a type. -/
structure FieldDecl where
  node : Node
  name : String
  ty : TypeExpr
  isStatic : Bool

/-- A case of an enum. -/
structure CaseDecl where
  node : Node
  name : String

mutual

inductive TypeDecl where
  | mk (node : Node) (kind : DeclKind) (name : String) (typeParams : List String) (base : Option TypeExpr)
      (members : List Member)

inductive Member where
  | type (decl : TypeDecl)
  | func (decl : FuncDecl)
  | field (decl : FieldDecl)
  | case (decl : CaseDecl)

end

/-- A declaration or a statement at the top level of a script. -/
inductive Element where
  | type (decl : TypeDecl)
  | func (decl : FuncDecl)
  | stmt (stmt : Stmt)

/-- A script: its declarations and top-level statements, in the order they are written. -/
abbrev Script := List Element

/-- The id of a type that is declared under `outer`. -/
def TypeDecl.idUnder (outer : ItemId) : TypeDecl → ItemId
  | mk _ _ name typeParams _ _ => outer.child (.text name) typeParams.length

/-- The id of a function that is declared under `outer`. -/
def FuncDecl.idUnder (outer : ItemId) (decl : FuncDecl) : ItemId := outer.child decl.name decl.typeParams.length

/-- The id of a variable that is declared under `outer`. -/
def FieldDecl.idUnder (outer : ItemId) (decl : FieldDecl) : ItemId := outer.child (.text decl.name) 0

end ScriptCheck
