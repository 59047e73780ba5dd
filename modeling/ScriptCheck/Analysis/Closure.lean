import ScriptCheck.Analysis.Identifier

/-!
# Lambdas and tasks

The body of a lambda or a task has a frame of its own. Each outer name it needs is looked up where it is written; a
variable of the enclosing frame is given a slot in the new frame, after the parameters, and anything else is reached
directly. If one of the names means nothing there, the body is not analysed.
-/

namespace ScriptCheck

/-- A variable of the enclosing frame that a body needs, before it has a slot there. -/
structure PendingCapture where
  name : String
  kind : CaptureKind
  storage : Storage
  ty : Ty

/-- The types that an expected function type gives to a lambda's parameters, if it has as many. -/
def paramHints (expected : Option Ty) (count : Nat) : Option (List Ty) :=
  match expected with
  | some (.func _ params) => if params.length = count then some params else none
  | _ => none

/-- What a lambda returns: what it says, or else what its `return`s or its expression were found to give. -/
def lambdaResult (declared : Option Ty) (ret : ReturnMode) : Ty :=
  match declared, ret with
  | some ty, _ => ty
  | none, .inferred (some ty) => ty
  | none, _ => .void

namespace Check

/-- The type of a lambda's parameter: the written one, or else the first of those that are still expected, if any are. -/
def lambdaParam (ctx : Context) (hints : Option (List Ty)) (param : LambdaParam) : Check Ty :=
  match param.ty, hints with
  | some ty, _ => typeExpr ctx ty
  | none, some types => Fault.require types.head?
  | none, none => reject (.cannotInferLambdaParam param.name) param.node

/-- The types of a lambda's parameters, in order; where types are expected, there is one for each parameter. -/
def lambdaParams (ctx : Context) : Option (List Ty) → List LambdaParam → Check (List Ty)
  | _, [] => return []
  | hints, p :: ps => do
    let ty ← lambdaParam ctx hints p
    let tys ← lambdaParams ctx (hints.map List.tail) ps
    return ty :: tys

/-- Gives a parameter the next slot of the frame. -/
def declareParam (node : Node) (name : String) (ty : Ty) : Check Unit := do
  let slot ← declareLocal name ty
  noteInfo node (.varDecl (.localSlot slot))

/-- Gives each parameter a slot, in order, as far as there are types. -/
def declareParams : List (Node × String) → List Ty → Check Unit
  | (node, name) :: ps, ty :: tys => do
    declareParam node name ty
    declareParams ps tys
  | _, _ => return

/-- Looks up the names that a body needs and keeps the variables of this frame; nothing is kept where one of the names
means nothing. -/
def wireCaptures (ctx : Context) (node : Node) : List CaptureNeed → Check (Option (List PendingCapture))
  | [] => return some []
  | need :: needs => do
    match ← lookup ctx need.name [] true with
    | .var (.localSlot slot) _ declared =>
      let rest ← wireCaptures ctx node needs
      return rest.map (⟨need.name, need.kind, .localSlot slot, declared⟩ :: ·)
    | .var _ _ _ | .func _ | .type _ => wireCaptures ctx node needs
    | .notFound | .ambiguous _ =>
      report (.captureFailed need.name) node
      let _ ← wireCaptures ctx node needs
      return none

/-- Gives each capture a slot of the new frame, in order. -/
def declareCaptures : List PendingCapture → Check (List CaptureInfo)
  | [] => return []
  | c :: cs => do
    let slot ← declareLocal c.name c.ty
    let rest ← declareCaptures cs
    return ⟨c.name, c.kind, c.storage, c.ty, slot⟩ :: rest

/-- The one expression that is a lambda's body, given what the lambda says it returns and how the expression is analysed. -/
def exprBody (ctx : Context) (declared : Option Ty) (node : Node) (analyse : Option Ty → Check Ty) : Check Unit := do
  match declared with
  | some .void =>
    let _ ← analyse none
  | some ret =>
    let found ← valued node (analyse (some ret))
    let _ ← checkAssignable ctx ret found node
  | none =>
    let found ← analyse none
    modifyFrame fun f => { f with ret := .inferred (some found) }

/-- Analyses a body in a frame of its own: first the parameters get their slots, then the captures. -/
def closure (params : List (Node × String)) (types : List Ty) (pending : List PendingCapture) (ret : ReturnMode)
    (body : Check Unit) : Check (List CaptureInfo × Frame) :=
  inFrame (.enter ret none false) do
    declareParams params types
    let captures ← declareCaptures pending
    body
    return captures

/-- A lambda, given the type that is expected of it and how its body is analysed once its own result type is known. -/
def lambda (ctx : Context) (node : Node) (params : List LambdaParam) (ret : Option TypeExpr) (body : Body)
    (expected : Option Ty) (analyse : Option Ty → Check Unit) : Check Ty := do
  let types ← lambdaParams ctx (paramHints expected params.length) params
  let declared ← ret.mapM (typeExpr ctx)
  match ← wireCaptures ctx node (ctx.capturer (params.map (·.name)) body) with
  | none => return .unresolved
  | some pending =>
    let mode := match declared with
      | some ty => ReturnMode.fixed ty
      | none => .inferred none
    let (captures, frame) ←
      closure (params.map fun p => (p.node, p.name)) types pending mode (analyse declared)
    let position ← pushTemplate (.lambda node.id) frame (some body.node.id)
    noteInfo node (.lambda ⟨captures, position⟩)
    return .func (lambdaResult declared frame.ret) types

/-- A task, given how its block is analysed. -/
def task (ctx : Context) (node : Node) (block : Block) (analyse : Check Unit) : Check Unit := do
  match ← wireCaptures ctx node (ctx.capturer [] (.block block)) with
  | none => return
  | some pending =>
    let (captures, frame) ← closure [] [] pending (.fixed .void) analyse
    let position ← pushTemplate (.task node.id) frame (some block.node.id)
    noteInfo node (.task ⟨captures, position⟩)

end Check

end ScriptCheck
