import ScriptCheck.Analysis.Body
import ScriptCheck.Analysis.Declaration
import ScriptCheck.Analysis.Skeleton

/-!
# The analysis of a script

First the declarations are collected, then their records are made, and then the bodies are analysed: the script's own
statements first, and after them the function bodies in the order of declaration. A duplicate declaration or a circle of
bases ends the analysis at once. All other problems are gathered, and a script with a problem has no output.
-/

namespace ScriptCheck

/-- What a script is analysed against. -/
structure Setup where
  /-- The name of the script's own module. -/
  moduleName : String
  /-- The modules that the script refers to, besides the built-in one. -/
  modules : List Module
  /-- What says which outer names a body needs. -/
  capturer : Capturer
  /-- How long bases are followed that may never end. -/
  [patience : Patience]

namespace Setup

/-- The context before the script's declarations are known; the built-in module comes first. -/
def context (setup : Setup) : Context :=
  { moduleName := setup.moduleName
    capturer := setup.capturer
    registry := Builtin.declarations :: setup.modules
    skeleton := .empty
    enclosing := []
    patience := setup.patience }

end Setup

/-- What an analysis without problems gives. -/
structure Output where
  nodes : NodeMap
  /-- The number of variables at the top level of the script's body. -/
  privateGlobals : Nat
  /-- The number of slots in the frame of the script's body. -/
  scriptLocals : Nat
  /-- The bodies, each after the lambdas and tasks in it. -/
  templates : List Template
  /-- The script's own declarations. -/
  module : Module

/-- The position of the template of a function. -/
def Output.funcTemplate? (out : Output) (id : ItemId) : Option Nat :=
  out.templates.findIdx? fun t => t.kind = .func id

namespace Check

/-- Analyses the body of a function that is declared under `outer`. -/
def funcBody (ctx : Context) (outer : ItemId) (decl : FuncDecl) : Check Unit := do
  let id := decl.idUnder outer
  let record ← ctx.registry.funcRecord id
  let frame :=
    if record.isSequence then Frame.enter (.fixed .void) (some record.ret) (!record.isStatic)
    else Frame.enter (.fixed record.ret) none (!record.isStatic)
  let inside := ctx.within ⟨id, record.typeParams, false⟩
  let (_, frame) ← inFrame frame do
    declareParams (decl.params.map fun p => (p.node, p.name)) (record.params.map (·.ty))
    block inside decl.body
  let _ ← pushTemplate (.func id) frame (some decl.body.node.id)

mutual

/-- Analyses the bodies of the functions in a type that is declared under `outer`. -/
def typeBodies (ctx : Context) (outer : ItemId) : TypeDecl → Check Unit
  | .mk _ _ name typeParams _ members =>
    let id := outer.child (.text name) typeParams.length
    memberBodies (ctx.within ⟨id, typeParams.map .text, true⟩) id members

/-- Analyses the bodies of the functions among the members of a type. -/
def memberBodies (ctx : Context) (id : ItemId) : List Member → Check Unit
  | [] => return
  | m :: ms => do
    memberBody ctx id m
    memberBodies ctx id ms

/-- Analyses the bodies of the functions in one member of a type. -/
def memberBody (ctx : Context) (id : ItemId) : Member → Check Unit
  | .type decl => typeBodies ctx id decl
  | .func decl => funcBody ctx id decl
  | .field _ => return
  | .case _ => return

end

/-- Analyses the statements at the top level. -/
def scriptStmts (ctx : Context) : Script → Check Unit
  | [] => return
  | .stmt s :: rest => do
    stmt ctx s
    scriptStmts ctx rest
  | _ :: rest => scriptStmts ctx rest

/-- Analyses the function bodies in the declarations at the top level. -/
def scriptBodies (ctx : Context) : Script → Check Unit
  | [] => return
  | .type decl :: rest => do
    typeBodies ctx ctx.root decl
    scriptBodies ctx rest
  | .func decl :: rest => do
    funcBody ctx ctx.root decl
    scriptBodies ctx rest
  | .stmt _ :: rest => scriptBodies ctx rest

/-- Analyses all bodies of a script. -/
def bodies (ctx : Context) (script : Script) : Check Unit := do
  scriptStmts ctx script
  let _ ← pushTemplate .script (← get).frame none
  modifyFrame fun _ => .script
  scriptBodies ctx script

/-- Makes the script's records and analyses its bodies against them. There is no module where bases go round in circles. -/
def script (ctx : Context) (script : Script) : Check (Option Module) := do
  let m ← declareElements ctx script (.empty ctx.moduleName)
  if ← rejectCycles ctx m then
    bodies { ctx with registry := m :: ctx.registry } script
    return some m
  else
    return none

end Check

/-- Refuses a finished analysis that left something without a definite type. -/
def State.checkResolved (s : State) : Except Fault Unit :=
  if s.templates.any fun t => t.seqElem.any Ty.hasUnresolved then .error .unresolvedTemplate
  else if s.nodes.values.any fun d => d.ty.any Ty.hasUnresolved then .error .unresolvedType
  else .ok ()

/-- What a finished analysis gives. -/
def State.output (s : State) (m : Module) : Output :=
  ⟨s.nodes, s.globals.size, ((s.templates.find? fun t => t.kind = .script).map (·.locals)).getD 0, s.templates, m⟩

/-- Analyses a script: its output, or the problems that were found. -/
def analyze (setup : Setup) (script : Script) : Except Fault (Except (List Diagnostic) Output) := do
  let collected := script.collect (.root setup.moduleName)
  if !collected.diagnostics.isEmpty then
    return .error collected.diagnostics
  else
    let ctx := { setup.context with skeleton := collected.skeleton }
    let (made, s) ← (Check.script ctx script).run .initial
    match made with
    | none => return .error s.diagnostics
    | some m =>
      if !s.diagnostics.isEmpty then
        return .error s.diagnostics
      else
        s.checkResolved
        return .ok (s.output m)

end ScriptCheck
