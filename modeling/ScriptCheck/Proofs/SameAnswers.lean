import ScriptCheck.Proofs.AlikeLookups
import ScriptCheck.Proofs.BodyEffects
import ScriptCheck.Proofs.StepOrder

/-!
# The modules are only ever asked

No rule looks at the modules of a context themselves: each asks what a name means, what a declaration's type is, or what a type
has for a member. So in two contexts that give the same answer to each of these questions (`Context.Same`), every step of the
analysis is the same step: it ends in the same fault, or gives the same answer and leaves the same state behind. There is one
statement for each rule, and from these one for each function of the walk, by induction on the part that it is given.
-/

namespace ScriptCheck

/-- The contexts are of one place in one script and give the same answers. Of the candidates for a name in all modules nothing is
said but what the name means. -/
structure Context.Same (ctx ctx' : Context) : Prop extends ctx.Alike Eq ctx' where
  skeleton : ctx'.skeleton = ctx.skeleton
  memberFuncs : ctx'.registry.memberFuncs = ctx.registry.memberFuncs
  lookup : ctx'.lookup = ctx.lookup

namespace Check

mutual

/-- A written type is looked up through the meanings of plain names and of names after a dot alone. -/
theorem typeExpr_congr {ctx ctx' : Context} (hn : ctx'.namedType = ctx.namedType) (hm : ctx'.memberType = ctx.memberType) :
    ∀ t : TypeExpr, typeExpr ctx' t = typeExpr ctx t
  | .named node name args => by rw [typeExpr, typeExpr, hn, typeExprs_congr hn hm args]
  | .member node parent name args => by
    rw [typeExpr, typeExpr, hm, typeExpr_congr hn hm parent, typeExprs_congr hn hm args]
  | .func node ret params => by rw [typeExpr, typeExpr, typeExpr_congr hn hm ret, typeExprs_congr hn hm params]
  | .void node => by rw [typeExpr, typeExpr]
  | .var node => by rw [typeExpr, typeExpr]

/-- So are several written types. -/
theorem typeExprs_congr {ctx ctx' : Context} (hn : ctx'.namedType = ctx.namedType) (hm : ctx'.memberType = ctx.memberType) :
    ∀ ts : List TypeExpr, typeExprs ctx' ts = typeExprs ctx ts
  | [] => by rw [typeExprs, typeExprs]
  | t :: ts => by rw [typeExprs, typeExprs, typeExpr_congr hn hm t, typeExprs_congr hn hm ts]

end

end Check

namespace Context.Same

variable {ctx ctx' : Context}

section Rules

variable (h : ctx.Same ctx')

include h

/-- Contexts stay the same at another place. -/
theorem inside (around : List DeclScope) : Context.Same { ctx with enclosing := around } { ctx' with enclosing := around } :=
  ⟨h.toAlike.inside around, h.skeleton, h.memberFuncs, h.lookup⟩

/-- Contexts stay the same inside a declaration. -/
theorem within (scope : DeclScope) : (ctx.within scope).Same (ctx'.within scope) :=
  ⟨h.toAlike.within scope, h.skeleton, h.memberFuncs, h.lookup⟩

/-! ### Members -/

/-- Functions of a type are found alike. -/
theorem memberFunc [Patience] : ctx'.registry.memberFunc = ctx.registry.memberFunc := by
  have hown : ctx'.registry.ownFunc = ctx.registry.ownFunc := by
    funext name explicit t
    cases t with
    | nominal id levels => rw [Registry.ownFunc, Registry.ownFunc, h.memberFuncs]
    | _ => rfl
  funext receiver name explicit
  rw [Registry.memberFunc, Registry.memberFunc, hown, h.registry.climb_eq]

/-- Members are found alike. -/
theorem member : ctx'.member = ctx.member := by
  let _ := ctx.patience
  funext receiver name args
  rw [Context.member, Context.member, h.patience]
  unfold Registry.member
  rw [h.registry.memberVar, h.memberFunc]

/-- Methods are found alike. -/
theorem method? : ctx'.method? = ctx.method? := by
  let _ := ctx.patience
  funext receiver name
  rw [Context.method?, Context.method?, h.patience]
  unfold Registry.method?
  rw [h.memberFunc]

/-! ### Types -/

/-- Types are compared alike. -/
theorem checkAssignable : Check.checkAssignable ctx' = Check.checkAssignable ctx := by
  funext expected found node
  unfold Check.checkAssignable
  rw [h.assignable]

/-- Written types mean the same. -/
theorem typeExpr : Check.typeExpr ctx' = Check.typeExpr ctx :=
  funext (Check.typeExpr_congr h.namedType h.memberType)

/-- Lists of written types mean the same. -/
theorem typeExprs : Check.typeExprs ctx' = Check.typeExprs ctx :=
  funext (Check.typeExprs_congr h.namedType h.memberType)

/-! ### Identifiers and members -/

/-- A look-up is the same step. -/
theorem checkLookup : Check.lookup ctx' = Check.lookup ctx := by
  funext name args allowPartial
  unfold Check.lookup
  rw [h.lookup]

/-- A function gives the same value. -/
theorem funcValue : Check.funcValue ctx' = Check.funcValue ctx := by
  funext node f
  unfold Check.funcValue
  rw [h.registry.funcType]

/-- A meaning gives the same value. -/
theorem identifierValue : Check.identifierValue ctx' = Check.identifierValue ctx := by
  funext node name meaning
  cases meaning with
  | func f => rw [Check.identifierValue, Check.identifierValue, h.funcValue]
  | _ => rfl

/-- A name gives the same value. -/
theorem identifier : Check.identifier ctx' = Check.identifier ctx := by
  funext node name typeArgs
  unfold Check.identifier
  rw [h.typeExprs, h.checkLookup, h.identifierValue]

/-- What stands before a dot is the same. -/
theorem receiver : Check.receiver ctx' = Check.receiver ctx := by
  funext object asValue
  cases object with
  | identifier node name typeArgs =>
    rw [Check.receiver, Check.receiver, h.typeExprs, h.checkLookup, h.identifierValue]
  | _ => rfl

/-- A member is used alike. -/
theorem useMember : Check.useMember ctx' = Check.useMember ctx := by
  funext node object ty name found
  unfold Check.useMember
  rw [h.registry.isStatic, h.registry.varType]

/-- A member is found by the same step. -/
theorem memberOf : Check.memberOf ctx' = Check.memberOf ctx := by
  funext node object ty name args
  unfold Check.memberOf
  rw [h.registry.isEnumCase, h.member, h.useMember]

/-- A member after a dot is the same. -/
theorem memberUse : Check.memberUse ctx' = Check.memberUse ctx := by
  funext node object receiver name typeArgs
  unfold Check.memberUse
  rw [h.typeExprs, h.memberOf]

/-- A member gives the same value. -/
theorem memberValue : Check.memberValue ctx' = Check.memberValue ctx := by
  funext node use
  unfold Check.memberValue
  rw [h.funcValue]

/-- An indexer is found alike. -/
theorem indexerOf : Check.indexerOf ctx' = Check.indexerOf ctx := by
  funext node ty
  unfold Check.indexerOf
  rw [h.method?]

/-! ### Operators and calls -/

/-- Operators are judged alike. -/
theorem binary : Check.binary ctx' = Check.binary ctx := by
  funext node op left right
  unfold Check.binary
  rw [h.rule]

/-- Tests are judged alike. -/
theorem isTest : Check.isTest ctx' = Check.isTest ctx := by
  funext node value ty
  unfold Check.isTest
  rw [h.typeExpr]

/-- Arguments are checked alike, one by one. -/
theorem checkEach (params : List Ty) (args : List Argument) :
    Check.checkEach ctx' params args = Check.checkEach ctx params args := by
  induction params generalizing args with
  | nil => rfl
  | cons p ps ih =>
    cases args with
    | nil => rfl
    | cons a as => rw [Check.checkEach, Check.checkEach, h.checkAssignable, ih]

/-- Arguments are checked alike. -/
theorem checkArgs : Check.checkArgs ctx' = Check.checkArgs ctx := by
  funext node params args
  unfold Check.checkArgs
  rw [h.checkEach]

/-- Calls are the same step. -/
theorem call : Check.call ctx' = Check.call ctx := by
  have hfunc : Check.callFunc ctx' = Check.callFunc ctx := by
    funext node callee f object argNodes analyse
    unfold Check.callFunc
    rw [h.registry.funcType, h.checkArgs]
  have hvalue : Check.callValue ctx' = Check.callValue ctx := by
    funext node ty argNodes analyse
    unfold Check.callValue
    rw [h.checkArgs]
  funext node callee callable argNodes analyse
  unfold Check.call
  rw [hfunc, hvalue]

/-- A name is called alike. -/
theorem identifierCallable : Check.identifierCallable ctx' = Check.identifierCallable ctx := by
  funext node name typeArgs
  unfold Check.identifierCallable
  rw [h.typeExprs, h.checkLookup, h.identifierValue]

/-- Elements are read alike. -/
theorem elementValue : Check.elementValue ctx' = Check.elementValue ctx := by
  funext node indexNode object index
  unfold Check.elementValue
  rw [h.indexerOf, h.registry.funcType, h.checkArgs]

/-! ### Assignments and steps -/

/-- A name is assigned to alike. -/
theorem identifierTarget : Check.identifierTarget ctx' = Check.identifierTarget ctx := by
  funext node name typeArgs
  unfold Check.identifierTarget
  rw [h.typeExprs, h.checkLookup, h.identifierValue]

/-- Elements are assigned to alike. -/
theorem elementTarget : Check.elementTarget ctx' = Check.elementTarget ctx := by
  have haccessor : Check.accessorTarget ctx' = Check.accessorTarget ctx := by
    funext node objectNode indexNode objectTy indexTy getter setter
    unfold Check.accessorTarget
    rw [h.registry.funcType, h.checkArgs]
  funext node objectNode indexNode object index
  unfold Check.elementTarget
  rw [h.indexerOf, haccessor]

/-- Assignments are the same step. -/
theorem assign : Check.assign ctx' = Check.assign ctx := by
  funext node valueNode target value
  unfold Check.assign
  rw [h.registry.storedType, h.checkAssignable]

/-- Unary operators are judged alike. -/
theorem unary : Check.unary ctx' = Check.unary ctx := by
  have htarget : Check.stepTarget ctx' = Check.stepTarget ctx := by
    funext node op before target
    unfold Check.stepTarget
    rw [h.method?, h.registry.operatorSignature, h.registry.stepFits]
  funext node op target operand
  cases op with
  | step op before =>
    simp only [Check.unary, Check.step]
    rw [htarget]
  | _ => rfl

/-! ### Closures -/

/-- Parameters get the same types. -/
theorem lambdaParams : ∀ (hints : Option (List Ty)) (params : List LambdaParam),
    Check.lambdaParams ctx' hints params = Check.lambdaParams ctx hints params
  | _, [] => by rw [Check.lambdaParams, Check.lambdaParams]
  | hints, p :: ps => by
    have hparam : Check.lambdaParam ctx' hints p = Check.lambdaParam ctx hints p := by
      unfold Check.lambdaParam
      simp only [h.typeExpr]
    rw [Check.lambdaParams, Check.lambdaParams, hparam, lambdaParams _ ps]

/-- The same captures are wired. -/
theorem wireCaptures (node : Node) : ∀ needs : List CaptureNeed,
    Check.wireCaptures ctx' node needs = Check.wireCaptures ctx node needs
  | [] => by rw [Check.wireCaptures, Check.wireCaptures]
  | need :: needs => by rw [Check.wireCaptures, Check.wireCaptures, h.checkLookup, wireCaptures node needs]

/-- An expression as a body is the same step. -/
theorem exprBody : Check.exprBody ctx' = Check.exprBody ctx := by
  funext declared node analyse
  unfold Check.exprBody
  rw [h.checkAssignable]

/-- Lambdas are the same step. -/
theorem lambda : Check.lambda ctx' = Check.lambda ctx := by
  funext node params ret body expected analyse
  unfold Check.lambda
  rw [h.lambdaParams, h.typeExpr, h.wireCaptures, h.capturer]

/-- Tasks are the same step. -/
theorem task : Check.task ctx' = Check.task ctx := by
  funext node block analyse
  unfold Check.task
  rw [h.wireCaptures, h.capturer]

/-! ### Statements -/

/-- Variables are declared alike. -/
theorem varDecl : Check.varDecl ctx' = Check.varDecl ctx := by
  funext node ty name init
  unfold Check.varDecl Check.declaredType
  simp only [h.typeExpr, h.checkAssignable]

/-- A return without a value is the same step. -/
theorem returnNothing : Check.returnNothing ctx' = Check.returnNothing ctx := by
  funext node
  unfold Check.returnNothing
  rw [h.checkAssignable]

/-- A return of a value is the same step. -/
theorem returnValue : Check.returnValue ctx' = Check.returnValue ctx := by
  funext node analyse
  unfold Check.returnValue
  rw [h.checkAssignable]

/-- Yields are the same step. -/
theorem yields : Check.yields ctx' = Check.yields ctx := by
  funext node valueNode analyse
  unfold Check.yields
  rw [h.checkAssignable]

end Rules

/-! ### The walk -/

mutual

/-- Every expression is the same step. -/
theorem expr (h : ctx.Same ctx') : ∀ e : Expr, Check.expr ctx' e = Check.expr ctx e
  | .identifier node name typeArgs => by
    funext hint
    rw [Check.expr, Check.expr, h.identifier]
  | .intLit node _ => by
    funext hint
    rw [Check.expr, Check.expr]
  | .boolLit node _ => by
    funext hint
    rw [Check.expr, Check.expr]
  | .strLit node _ => by
    funext hint
    rw [Check.expr, Check.expr]
  | .binary node op left right => by
    funext hint
    rw [Check.expr, Check.expr, h.binary, h.expr left, h.expr right]
  | .unary node op operand => by
    funext hint
    rw [Check.expr, Check.expr, h.unary, h.target operand, h.expr operand]
  | .assign node left value => by
    funext hint
    rw [Check.expr, Check.expr, h.assign, h.target left, h.expr left, h.expr value]
  | .call node callee args => by
    funext hint
    rw [Check.expr, Check.expr, h.call, h.callable callee, h.expr callee, h.exprs args]
  | .lambda node params ret body => by
    funext hint
    rw [Check.expr, Check.expr, h.lambda, h.lambdaBody body]
  | .member node object name typeArgs => by
    funext hint
    rw [Check.expr, Check.expr, h.memberValue, h.memberUse, h.receiver, h.expr object]
  | .index node object index => by
    funext hint
    rw [Check.expr, Check.expr, h.elementValue, h.expr object, h.expr index]
  | .isTest node value ty => by
    funext hint
    rw [Check.expr, Check.expr, h.isTest, h.expr value]

/-- So is a list of expressions. -/
theorem exprs (h : ctx.Same ctx') : ∀ es : List Expr, Check.exprs ctx' es = Check.exprs ctx es
  | [] => by
    funext hints
    rw [Check.exprs, Check.exprs]
  | e :: es => by
    funext hints
    rw [Check.exprs, Check.exprs, h.expr e, h.exprs es]

/-- So is a target of an assignment. -/
theorem target (h : ctx.Same ctx') (e : Expr) : Check.target ctx' e = Check.target ctx e := by
  funext asValue
  cases e with
  | identifier node name typeArgs => rw [Check.target, Check.target, h.identifierTarget]
  | member node object name typeArgs => rw [Check.target, Check.target, h.memberUse, h.receiver, h.expr object]
  | index node object index => rw [Check.target, Check.target, h.elementTarget, h.expr object, h.expr index]
  | _ => rw [Check.target_of_not_place rfl, Check.target_of_not_place rfl]

/-- So is what is called. -/
theorem callable (h : ctx.Same ctx') (e : Expr) : Check.callable ctx' e = Check.callable ctx e := by
  funext asValue
  cases e with
  | identifier node name typeArgs => rw [Check.callable, Check.callable, h.identifierCallable]
  | member node object name typeArgs => rw [Check.callable, Check.callable, h.memberUse, h.receiver, h.expr object]
  | _ => rw [Check.callable_of_not_named rfl, Check.callable_of_not_named rfl]

/-- So is the body of a lambda. -/
theorem lambdaBody (h : ctx.Same ctx') : ∀ body : Body, Check.lambdaBody ctx' body = Check.lambdaBody ctx body
  | .expr e => by
    funext declared
    rw [Check.lambdaBody, Check.lambdaBody, h.exprBody, h.expr e]
  | .block b => by
    funext declared
    rw [Check.lambdaBody, Check.lambdaBody, h.block b]

/-- So is a block. -/
theorem block (h : ctx.Same ctx') : ∀ b : Block, Check.block ctx' b = Check.block ctx b
  | .mk node ss => by rw [Check.block, Check.block, h.stmts ss]

/-- So is a list of statements. -/
theorem stmts (h : ctx.Same ctx') : ∀ ss : List Stmt, Check.stmts ctx' ss = Check.stmts ctx ss
  | [] => by rw [Check.stmts, Check.stmts]
  | s :: ss => by rw [Check.stmts, Check.stmts, h.stmt s, h.stmts ss]

/-- Every statement is the same step. -/
theorem stmt (h : ctx.Same ctx') : ∀ s : Stmt, Check.stmt ctx' s = Check.stmt ctx s
  | .varDecl node ty name init => by rw [Check.stmt, Check.stmt, h.varDecl, h.initial init]
  | .ifThen node cond thenBody elseBody => by
    rw [Check.stmt, Check.stmt, h.expr cond, h.stmt thenBody, h.otherwise elseBody]
  | .whileDo node cond body => by rw [Check.stmt, Check.stmt, h.expr cond, h.stmt body]
  | .block node b => by rw [Check.stmt, Check.stmt, h.block b]
  | .expr node e => by rw [Check.stmt, Check.stmt, h.expr e]
  | .ret node value => by rw [Check.stmt, Check.stmt, h.returns node value]
  | .yields node e => by rw [Check.stmt, Check.stmt, h.yields, h.expr e]
  | .breaks node => by rw [Check.stmt, Check.stmt]
  | .continues node => by rw [Check.stmt, Check.stmt]
  | .task node b => by rw [Check.stmt, Check.stmt, h.task, h.block b]
  | .awaits node b => by rw [Check.stmt, Check.stmt, h.block b]

/-- So is an initial value. -/
theorem initial (h : ctx.Same ctx') : ∀ init : Option Expr, Check.initial ctx' init = Check.initial ctx init
  | none => by rw [Check.initial, Check.initial]
  | some e => by rw [Check.initial, Check.initial, h.expr e]

/-- So is what stands after `else`. -/
theorem otherwise (h : ctx.Same ctx') : ∀ s : Option Stmt, Check.otherwise ctx' s = Check.otherwise ctx s
  | none => by rw [Check.otherwise, Check.otherwise]
  | some s => by rw [Check.otherwise, Check.otherwise, h.stmt s]

/-- So is a return. -/
theorem returns (h : ctx.Same ctx') (node : Node) : ∀ value : Option Expr,
    Check.returns ctx' node value = Check.returns ctx node value
  | none => by rw [Check.returns, Check.returns, h.returnNothing]
  | some e => by rw [Check.returns, Check.returns, h.returnValue, h.expr e]

end

/-! ### Declarations -/

/-- A declared base is the same. -/
theorem declaredBase (h : ctx.Same ctx') : Check.declaredBase ctx' = Check.declaredBase ctx := by
  funext base
  cases base with
  | none => rfl
  | some written =>
    simp only [Check.declaredBase, Check.baseType]
    rw [h.typeExpr, h.typeKind?]

/-- Parameters are recorded alike. -/
theorem paramRecords (h : ctx.Same ctx') : ∀ params : List FuncParam,
    Check.paramRecords ctx' params = Check.paramRecords ctx params
  | [] => by rw [Check.paramRecords, Check.paramRecords]
  | p :: ps => by rw [Check.paramRecords, Check.paramRecords, h.typeExpr, h.paramRecords ps]

/-- Functions are declared alike. -/
theorem declareFunc (h : ctx.Same ctx') : Check.declareFunc ctx' = Check.declareFunc ctx := by
  funext outer decl isStatic m
  unfold Check.declareFunc
  simp only [(h.within _).paramRecords, (h.within _).typeExpr]

/-- Fields are declared alike. -/
theorem declareField (h : ctx.Same ctx') : Check.declareField ctx' = Check.declareField ctx := by
  funext outer decl m
  unfold Check.declareField
  rw [h.typeExpr]

mutual

/-- Types are declared alike. -/
theorem declareType {ctx ctx' : Context} (h : ctx.Same ctx') (outer : ItemId) : ∀ (decl : TypeDecl) (m : Module),
    Check.declareType ctx' outer decl m = Check.declareType ctx outer decl m
  | .mk node kind name typeParams base members, m => by
    rw [Check.declareType, Check.declareType]
    simp only [(h.within _).declaredBase, (h.within _).declareMembers _ members]

/-- So are lists of members. -/
theorem declareMembers {ctx ctx' : Context} (h : ctx.Same ctx') (id : ItemId) : ∀ (members : List Member) (m : Module),
    Check.declareMembers ctx' id members m = Check.declareMembers ctx id members m
  | [], m => by rw [Check.declareMembers, Check.declareMembers]
  | member :: members, m => by
    rw [Check.declareMembers, Check.declareMembers, h.declareMember id member]
    simp only [h.declareMembers id members]

/-- So is each member. -/
theorem declareMember {ctx ctx' : Context} (h : ctx.Same ctx') (id : ItemId) : ∀ (member : Member) (m : Module),
    Check.declareMember ctx' id member m = Check.declareMember ctx id member m
  | .type decl, m => by rw [Check.declareMember, Check.declareMember, h.declareType id decl]
  | .func decl, m => by rw [Check.declareMember, Check.declareMember, h.declareFunc]
  | .field decl, m => by rw [Check.declareMember, Check.declareMember, h.declareField]
  | .case decl, m => by rw [Check.declareMember, Check.declareMember]

end

/-- So is a whole script. -/
theorem declareElements (h : ctx.Same ctx') : ∀ (script : Script) (m : Module),
    Check.declareElements ctx' script m = Check.declareElements ctx script m
  | [], m => by rw [Check.declareElements, Check.declareElements]
  | .type decl :: rest, m => by
    rw [Check.declareElements, Check.declareElements, h.root, h.declareType]
    simp only [h.declareElements rest]
  | .func decl :: rest, m => by
    rw [Check.declareElements, Check.declareElements, h.root, h.declareFunc]
    simp only [h.declareElements rest]
  | .stmt s :: rest, m => by rw [Check.declareElements, Check.declareElements, h.declareElements rest]

section Bodies

variable (h : ctx.Same ctx')

include h

/-- The same cycles are rejected. -/
theorem rejectCycles : Check.rejectCycles ctx' = Check.rejectCycles ctx := by
  funext m
  unfold Check.rejectCycles
  rw [h.skeleton]

/-! ### Bodies -/

/-- The body of a function is the same step. -/
theorem funcBody : Check.funcBody ctx' = Check.funcBody ctx := by
  funext outer decl
  unfold Check.funcBody
  rw [h.registry.funcRecord]
  simp only [(h.within _).block]

/-- The body at a site is the same step. -/
theorem siteBody : Check.siteBody ctx' = Check.siteBody ctx := by
  funext f
  exact congrFun (congrFun (h.inside f.around).funcBody f.outer) f.decl

/-- All bodies of functions are the same step. -/
theorem scriptBodies (script : Script) : Check.scriptBodies ctx' script = Check.scriptBodies ctx script := by
  rw [Check.scriptBodies_sites, Check.scriptBodies_sites, h.root, h.enclosing, h.siteBody]

/-- The statements of a script are the same step. -/
theorem scriptStmts (script : Script) : Check.scriptStmts ctx' script = Check.scriptStmts ctx script := by
  rw [Check.scriptStmts_eq, Check.scriptStmts_eq, h.stmts]

/-- All bodies of a script are the same step. -/
theorem bodies (script : Script) : Check.bodies ctx' script = Check.bodies ctx script := by
  unfold Check.bodies
  rw [h.scriptStmts, h.scriptBodies]

/-- The bodies are analysed with the script's own module in front of the others, so the contexts have to give the same answers
with that module as well. -/
theorem script {script : Script}
    (hmade : ∀ m s t, Check.declareElements ctx script (.empty ctx.moduleName) s = .ok (m, t) →
      Context.Same { ctx with registry := m :: ctx.registry } { ctx' with registry := m :: ctx'.registry }) :
    Check.script ctx' script = Check.script ctx script := by
  funext s
  unfold Check.script
  rw [h.moduleName, h.declareElements, h.rejectCycles]
  cases hrun : Check.declareElements ctx script (.empty ctx.moduleName) s with
  | error e => rw [Check.bind_fault hrun, Check.bind_fault hrun]
  | ok r =>
    have hbodies := (hmade r.1 s r.2 hrun).bodies script
    rw [Check.bind_ok (a := r.1) (t := r.2) hrun, Check.bind_ok (a := r.1) (t := r.2) hrun]
    simp only [h.moduleName] at hbodies
    rw [hbodies]

end Bodies

end Context.Same

end ScriptCheck
