import ScriptCheck.Analysis.Identifier

/-!
# Statements

Each rule is given how the parts of its statement are analysed. A variable is declared after its initial value, so the value
cannot mean the variable. `if (x is T)` takes `x` to be a `T` in both branches and forgets it afterwards.
-/

namespace ScriptCheck

/-- The initial value of a variable: its node, and how it is analysed under a hint. -/
structure Initial where
  node : Node
  analyse : Option Ty → Check Ty

/-- The place and the type of `x is T`, where `x` is a variable. -/
def narrowingOf (nodes : NodeMap) : Expr → Option (Storage × Ty)
  | .isTest node value _ =>
    match value.plainName?, nodes.info? value.node.id, nodes.info? node.id with
    | some _, some (.storage storage), some (.isTest ty) => some (storage, ty)
    | _, _, _ => none
  | _ => none

namespace Check

/-- A condition, given how it is analysed. -/
def condition (node : Node) (value : Check Ty) : Check Unit := do
  let ty ← value
  if !ty.isUnresolved && ty ≠ Builtin.bool then
    report (.conditionNotBool ty) node

/-- An `if`, given how the condition and the branches are analysed. -/
def ifThen (cond : Expr) (value : Check Ty) (branches : Check Unit) : Check Unit := do
  condition cond.node value
  let s ← get
  inScope do
    match narrowingOf s.nodes cond with
    | some (storage, ty) => modifyFrame (·.narrow storage ty)
    | none => pure ()
    branches

/-- A `while`, given how the condition and the body are analysed. -/
def whileDo (cond : Node) (value : Check Ty) (body : Check Unit) : Check Unit := do
  condition cond value
  modifyFrame fun f => { f with loopDepth := f.loopDepth + 1 }
  inBlock body
  modifyFrame fun f => { f with loopDepth := f.loopDepth - 1 }

/-- The type of a declared variable: the written one, against which the initial value is checked, or that of the initial
value. -/
def declaredType (ctx : Context) (node : Node) (ty : TypeExpr) (name : String) (init : Option Initial) : Check Ty := do
  match ty, init with
  | .var tyNode, some init => resolved tyNode (init.analyse none)
  | .var tyNode, none => resolved tyNode (reject (.cannotInferVarType name) node)
  | ty, some init =>
    let declared ← typeExpr ctx ty
    let found ← init.analyse (some declared)
    let _ ← checkAssignable ctx declared found init.node
    return declared
  | ty, none => typeExpr ctx ty

/-- Makes a slot for a variable: in the script where its statement stands directly in the script's body, and in the frame
everywhere else. -/
def declareVar (name : String) (ty : Ty) : Check Storage := do
  if (← get).globalScope then
    let slot := (← get).globals.size
    modify fun s => { s with globals := s.globals.declare name ty }
    return .privateGlobal slot
  else
    return .localSlot (← declareLocal name ty)

/-- A declaration of a variable. -/
def varDecl (ctx : Context) (node : Node) (ty : TypeExpr) (name : String) (init : Option Initial) : Check Unit := do
  let ty ← declaredType ctx node ty name init
  let storage ← declareVar name ty
  noteInfo node (.varDecl storage)

/-- A `return` without a value. -/
def returnNothing (ctx : Context) (node : Node) : Check Unit := do
  let frame := (← get).frame
  match frame.seqElem, frame.ret with
  | some _, _ => return
  | none, .fixed expected => if !expected.isVoid then report (.missingReturnValue expected) node
  | none, .inferred none => modifyFrame fun f => { f with ret := .inferred (some .void) }
  | none, .inferred (some expected) =>
    let _ ← checkAssignable ctx expected .void node

/-- A `return` with a value, given how the value is analysed under a hint. -/
def returnValue (ctx : Context) (node : Node) (analyse : Option Ty → Check Ty) : Check Unit := do
  let frame := (← get).frame
  match frame.seqElem, frame.ret with
  | some _, _ =>
    let _ ← valued node (analyse none)
    report .returnValueInSequence node
  | none, .fixed expected =>
    if expected.isVoid then
      let found ← analyse none
      if !found.isVoid && !found.isUnresolved then
        report (.typeMismatch expected found) node
    else
      let found ← valued node (analyse (some expected))
      let _ ← checkAssignable ctx expected found node
  | none, .inferred none =>
    let found ← analyse none
    modifyFrame fun f => { f with ret := .inferred (some found) }
  | none, .inferred (some expected) =>
    let found ← analyse (some expected)
    let _ ← checkAssignable ctx expected found node

/-- A `yield`, given how its value is analysed under a hint. -/
def yields (ctx : Context) (node valueNode : Node) (analyse : Option Ty → Check Ty) : Check Unit := do
  match (← get).frame.seqElem with
  | none =>
    let _ ← valued valueNode (analyse none)
    report .yieldOutsideSequence node
  | some elem =>
    let found ← valued valueNode (analyse (some elem))
    let _ ← checkAssignable ctx elem found valueNode

/-- A statement that has to stand in a loop. -/
def inLoop (problem : Problem) (node : Node) : Check Unit := do
  if (← get).frame.loopDepth = 0 then report problem node

end Check

end ScriptCheck
