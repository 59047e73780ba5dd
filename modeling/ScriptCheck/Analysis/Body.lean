import ScriptCheck.Analysis.Assignment
import ScriptCheck.Analysis.Closure
import ScriptCheck.Analysis.Statement

/-!
# The walk through a body

Every expression is analysed once and its type noted; the rules for each form stand in the modules before this one, and here
they are tied together along the tree. An expression gets a hint of the type that is expected of it. The hint helps a
lambda to find the types of its parameters and is never a check.
-/

namespace ScriptCheck.Check

mutual

/-- Analyses an expression and notes its type. -/
def expr (ctx : Context) : Expr → Option Ty → Check Ty
  | .identifier node name typeArgs, _ => typed node (identifier ctx node name typeArgs)
  | .intLit node _, _ => typed node (return Builtin.int)
  | .boolLit node _, _ => typed node (return Builtin.bool)
  | .strLit node _, _ => typed node (return Builtin.string)
  | .binary node op left right, _ =>
    typed node (binary ctx node op (valued left.node (expr ctx left none)) (valued right.node (expr ctx right none)))
  | .unary node op operand, _ =>
    typed node <|
      unary ctx node op (target ctx operand (expr ctx operand none)) (valued operand.node (expr ctx operand none))
  | .assign node left value, _ =>
    typed node <|
      assign ctx node value.node (target ctx left (expr ctx left none))
        (fun hint => valued value.node (expr ctx value hint))
  | .call node callee args, _ =>
    typed node <|
      call ctx node callee.node (callable ctx callee (expr ctx callee none)) (args.map Expr.node)
        (fun hints => exprs ctx args hints)
  | .lambda node params ret body, hint =>
    typed node (lambda ctx node params ret body hint (fun declared => lambdaBody ctx body declared))
  | .member node object name typeArgs, _ =>
    typed node <|
      memberValue ctx node
        (memberUse ctx node object.node (receiver ctx object (expr ctx object none)) name typeArgs)
  | .index node object index, _ =>
    typed node <|
      elementValue ctx node index.node (valued object.node (expr ctx object none))
        (valued index.node (expr ctx index none))
  | .isTest node value ty, _ => typed node (isTest ctx node (valued value.node (expr ctx value none)) ty)

/-- Analyses several expressions that have to give values, each with the hint in its position. -/
def exprs (ctx : Context) : List Expr → List (Option Ty) → Check (List Ty)
  | [], _ => return []
  | e :: es, hints => do
    let ty ← valued e.node (expr ctx e (hints.headD none))
    let tys ← exprs ctx es hints.tail
    return ty :: tys

/-- Analyses an expression as something to assign to; `asValue` analyses it as a value. -/
def target (ctx : Context) : Expr → Check Ty → Check (Option Target)
  | .identifier node name typeArgs, _ => identifierTarget ctx node name typeArgs
  | .member node object name typeArgs, _ =>
    memberTarget node
      (memberUse ctx node object.node (receiver ctx object (expr ctx object none)) name typeArgs)
  | .index node object index, _ =>
    elementTarget ctx node object.node index.node (valued object.node (expr ctx object none))
      (valued index.node (expr ctx index none))
  | e, asValue => do
    let _ ← asValue
    notAssignable e.node

/-- Analyses an expression as something to call; `asValue` analyses it as a value. -/
def callable (ctx : Context) : Expr → Check Ty → Check Callable
  | .identifier node name typeArgs, _ => identifierCallable ctx node name typeArgs
  | .member node object name typeArgs, _ =>
    memberCallable node
      (memberUse ctx node object.node (receiver ctx object (expr ctx object none)) name typeArgs)
  | e, asValue => return .value (← valued e.node asValue)

/-- Analyses the body of a lambda, given what the lambda says it returns. -/
def lambdaBody (ctx : Context) : Body → Option Ty → Check Unit
  | .expr e, declared => exprBody ctx declared e.node (fun hint => expr ctx e hint)
  | .block b, _ => block ctx b

/-- Analyses a block in a scope of its own. -/
def block (ctx : Context) : Block → Check Unit
  | .mk _ ss => inBlock (stmts ctx ss)

/-- Analyses statements one after the other. -/
def stmts (ctx : Context) : List Stmt → Check Unit
  | [] => return
  | s :: ss => do
    stmt ctx s
    stmts ctx ss

/-- Analyses a statement. -/
def stmt (ctx : Context) : Stmt → Check Unit
  | .varDecl node ty name init => varDecl ctx node ty name (initial ctx init)
  | .ifThen _ cond thenBody elseBody =>
    ifThen cond (valued cond.node (expr ctx cond none)) do
      inBlock (stmt ctx thenBody)
      otherwise ctx elseBody
  | .whileDo _ cond body => whileDo cond.node (valued cond.node (expr ctx cond none)) (stmt ctx body)
  | .block _ b => block ctx b
  | .expr _ e => do
    let _ ← expr ctx e none
  | .ret node value => returns ctx node value
  | .yields node e => yields ctx node e.node (fun hint => expr ctx e hint)
  | .breaks node => inLoop .invalidBreak node
  | .continues node => inLoop .invalidContinue node
  | .task node b => task ctx node b (block ctx b)
  | .awaits _ b => block ctx b

/-- How the initial value of a variable is analysed, if there is one. -/
def initial (ctx : Context) : Option Expr → Option Initial
  | none => none
  | some e => some ⟨e.node, fun hint => valued e.node (expr ctx e hint)⟩

/-- Analyses the branch after `else`, if there is one. -/
def otherwise (ctx : Context) : Option Stmt → Check Unit
  | none => return
  | some s => inBlock (stmt ctx s)

/-- Analyses a `return` at `node`, with or without a value. -/
def returns (ctx : Context) (node : Node) : Option Expr → Check Unit
  | none => returnNothing ctx node
  | some e => returnValue ctx e.node (fun hint => expr ctx e hint)

end

end ScriptCheck.Check
