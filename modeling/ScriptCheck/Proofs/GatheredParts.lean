import ScriptCheck.Proofs.Gathering

/-!
# What the parts of a body gather

One walk along the tree for all that is gathered in it (`PartsWalk`): an expression or a statement gathers what is listed for its
own node and after that what its parts gather, in order. How a lambda, a task, a loop or a jump gathers what it does is for each
use of the walk to say, and so are the rules that change a frame.
-/

namespace ScriptCheck

/-- Whether an expression has a form that can be assigned to. -/
def Expr.isPlace : Expr → Bool
  | .identifier .. | .member .. | .index .. => true
  | _ => false

/-- Whether an expression has a form that can name a function. -/
def Expr.isNamed : Expr → Bool
  | .identifier .. | .member .. => true
  | _ => false

theorem Within.of_eq {β : Type} {R : List β → State → State → Prop} {bs cs : List β} (h : bs = cs) : Within R bs cs :=
  fun _ _ _ => h ▸ id

/-- What is listed for the parts of a body, given what is around them. -/
structure Parts (V β : Type) where
  expr : V → Expr → List β
  exprs : V → List Expr → List β
  init : V → Option Expr → List β
  body : V → Body → List β
  block : V → Block → List β
  stmt : V → Stmt → List β
  stmts : V → List Stmt → List β
  other : V → Option Stmt → List β

namespace Parts

open Gathers (cost)

variable {V β : Type} (w : Parts V β) (R : V → List β → State → State → Prop) [∀ v, Gathers (R v)] (v : V)

/-- What is listed for an expression that is no lambda: its node first, and then its parts. -/
def exprStep : Expr → List β
  | .identifier node _ typeArgs => Check.nameCost (R v) node typeArgs
  | .intLit node _ | .boolLit node _ | .strLit node _ => own (R v) node
  | .binary node _ left right => own (R v) node ++ (w.expr v left ++ w.expr v right)
  | .unary node _ operand => own (R v) node ++ w.expr v operand
  | .assign node target value => own (R v) node ++ (w.expr v target ++ w.expr v value)
  | .call node callee args => own (R v) node ++ (w.expr v callee ++ w.exprs v args)
  | .member node object _ typeArgs =>
    own (R v) node ++ (w.expr v object ++ cost (R v) ((TypeExpr.idsOfList typeArgs).map .info))
  | .index node object index => own (R v) node ++ (w.expr v object ++ w.expr v index)
  | .isTest node value ty => own (R v) node ++ (w.expr v value ++ cost (R v) (ty.ids.map .info))
  | e => w.expr v e

/-- What is listed for a statement that is no task, no loop and no jump. -/
def stmtStep : Stmt → List β
  | .varDecl node ty _ init => cost (R v) [.info node.id] ++ (cost (R v) (ty.ids.map .info) ++ w.init v init)
  | .ifThen node cond thenBody elseBody =>
    cost (R v) [.info node.id] ++ (w.expr v cond ++ (w.stmt v thenBody ++ w.other v elseBody))
  | .block node b | .awaits node b => cost (R v) [.info node.id] ++ w.block v b
  | .expr node e => cost (R v) [.info node.id] ++ w.expr v e
  | s => w.stmt v s

end Parts

open Check (Keeps)

/-- A walk: `E`, `S` and `B` relate the states before and after a run through an expression, through statements and through the
body of a lambda. -/
structure PartsWalk {V β : Type} (E S B : V → List β → State → State → Prop) [∀ v, Gathers (E v)] extends Parts V β where
  expr_step (v : V) (e : Expr) : Within (E v) (toParts.exprStep E v e) (expr v e)
  exprs_nil (v : V) : Within (E v) [] (exprs v []) := by intros; exact .of_eq rfl
  exprs_cons (v : V) (e : Expr) (es : List Expr) : Within (E v) (expr v e ++ exprs v es) (exprs v (e :: es)) :=
    by intros; exact .of_eq rfl
  init_none (v : V) : Within (E v) [] (init v none) := by intros; exact .of_eq rfl
  init_some (v : V) (e : Expr) : Within (E v) (expr v e) (init v (some e)) := by intros; exact .of_eq rfl
  body_expr (v : V) (e : Expr) : Within (B v) (expr v e) (body v (.expr e)) := by intros; exact .of_eq rfl
  body_block (v : V) (b : Block) : Within (B v) (block v b) (body v (.block b)) := by intros; exact .of_eq rfl
  block_step (v : V) (node : Node) (ss : List Stmt) :
    Within (S v) (Gathers.cost (E v) [.info node.id] ++ stmts v ss) (block v (.mk node ss)) := by intros; exact .of_eq rfl
  stmts_nil (v : V) : Within (S v) [] (stmts v []) := by intros; exact .of_eq rfl
  stmts_cons (v : V) (s : Stmt) (ss : List Stmt) : Within (S v) (stmt v s ++ stmts v ss) (stmts v (s :: ss)) :=
    by intros; exact .of_eq rfl
  stmt_step (v : V) (s : Stmt) : Within (S v) (toParts.stmtStep E v s) (stmt v s)
  other_none (v : V) : Within (S v) [] (other v none) := by intros; exact .of_eq rfl
  other_some (v : V) (s : Stmt) : Within (S v) (stmt v s) (other v (some s)) := by intros; exact .of_eq rfl
  toStmt {v : V} {bs : List β} {s t : State} : E v bs s t → S v bs s t
  toBody {v : V} {bs : List β} {s t : State} : S v bs s t → B v bs s t
  seq {v : V} {bs cs : List β} {s t u : State} : S v bs s t → S v cs t u → S v (bs ++ cs) s u
  swap {v : V} {ws : List NodeWrite} {bs cs : List β} {s t : State} :
    S v (bs ++ (Gathers.cost (E v) ws ++ cs)) s t → S v (Gathers.cost (E v) ws ++ (bs ++ cs)) s t
  exprBody {v : V} {ctx : Context} {bs : List β} {analyse : Option Ty → Check Ty} (declared : Option Ty) (node : Node) :
    (∀ hint, Keeps (E v bs) (analyse hint)) → Keeps (B v bs) (Check.exprBody ctx declared node analyse)
  declareVar (v : V) (name : String) (ty : Ty) : Keeps (S v []) (Check.declareVar name ty)
  inBlock {v : V} {bs : List β} {x : Check Unit} : Keeps (S v bs) x → Keeps (S v bs) (Check.inBlock x)
  ifThen {v : V} {bs cs : List β} (cond : Expr) {value : Check Ty} {branches : Check Unit} :
    Keeps (E v bs) value → Keeps (S v cs) branches → Keeps (S v (bs ++ cs)) (Check.ifThen cond value branches)
  inLambda : V → V
  inTask : V → V
  inLoop : V → V
  lambda {v : V} (ctx : Context) (node : Node) (params : List LambdaParam) (ret : Option TypeExpr) {b : Body} (hint : Option Ty) :
    (∀ declared, Keeps (B (inLambda v) (body (inLambda v) b)) (Check.lambdaBody ctx b declared)) →
      Keeps (E v (expr v (.lambda node params ret b)))
        (Check.typed node (Check.lambda ctx node params ret b hint (Check.lambdaBody ctx b)))
  task {v : V} {ctx : Context} (node : Node) {b : Block} :
    Keeps (S (inTask v) (block (inTask v) b)) (Check.block ctx b) →
      Keeps (S v (stmt v (.task node b))) (Check.task ctx node b (Check.block ctx b))
  whileDo {v : V} (node : Node) {cond : Expr} {loop : Stmt} {value : Check Ty} {body : Check Unit} :
    Keeps (E v (expr v cond)) value → Keeps (S (inLoop v) (stmt (inLoop v) loop)) body →
      Keeps (S v (stmt v (.whileDo node cond loop))) (Check.whileDo cond.node value body)
  returns {v : V} {ctx : Context} (node : Node) {value : Option Expr} :
    (∀ e ∈ value, ∀ hint, Keeps (E v (expr v e)) (Check.expr ctx e hint)) →
      Keeps (S v (stmt v (.ret node value))) (Check.returns ctx node value)
  yields {v : V} {ctx : Context} (node : Node) {e : Expr} {analyse : Option Ty → Check Ty} :
    (∀ hint, Keeps (E v (expr v e)) (analyse hint)) →
      Keeps (S v (stmt v (.yields node e))) (Check.yields ctx node e.node analyse)
  breaks (v : V) (node : Node) : Keeps (S v (stmt v (.breaks node))) (Check.inLoop .invalidBreak node)
  continues (v : V) (node : Node) : Keeps (S v (stmt v (.continues node))) (Check.inLoop .invalidContinue node)

namespace Check

theorem target_of_not_place {ctx : Context} {e : Expr} {asValue : Check Ty} (h : e.isPlace = false) :
    target ctx e asValue = (do let _ ← asValue; notAssignable e.node) := by
  cases e <;> first | rfl | cases h

theorem callable_of_not_named {ctx : Context} {e : Expr} {asValue : Check Ty} (h : e.isNamed = false) :
    callable ctx e asValue = (do return .value (← valued e.node asValue)) := by
  cases e <;> first | rfl | cases h

end Check

namespace PartsWalk

open Check

variable {V β : Type} {E S B : V → List β → State → State → Prop} [∀ v, Gathers (E v)] (w : PartsWalk E S B) (ctx : Context)
variable {v : V}

include w

/-- What is listed for a node of a statement need not be written. -/
theorem idle {bs : List β} {x : Check Unit} (ws : List NodeWrite) (hx : Keeps (S v bs) x) :
    Keeps (S v (Gathers.cost (E v) ws ++ bs)) x := by
  intro s a s' h
  have hfront : E v (Gathers.cost (E v) ws) s s := by simpa using Gathers.spare ws (Std.Refl.refl (r := E v []) s)
  exact w.seq (w.toStmt hfront) (hx h)

theorem varDecl {bs : List β} {init : Option Initial} (node : Node) (ty : TypeExpr) (name : String)
    (hsome : ∀ i ∈ init, ∀ hint, Keeps (E v bs) (i.analyse hint)) (hnone : init = none → Within (E v) [] bs) :
    Keeps (S v (Gathers.cost (E v) [.info node.id] ++ (Gathers.cost (E v) (ty.ids.map .info) ++ bs)))
      (Check.varDecl ctx node ty name init) := by
  intro s a s' h
  obtain ⟨found, t, hfound, h⟩ := bind_eq_ok.1 h
  obtain ⟨storage, u, hdeclare, hnote⟩ := bind_eq_ok.1 h
  have hfirst := w.toStmt (declaredType_gathers node ty name hsome hnone hfound)
  have hlast : S v (Gathers.cost (E v) [.info node.id] ++ []) u s' := by
    simpa using w.toStmt (noteInfo_gathers node (by rfl) hnote)
  have hnoted := w.seq (w.declareVar v _ _ hdeclare) hlast
  simpa using w.swap (w.seq hfirst hnoted)

theorem receiver_keeps {object : Expr} {asValue : Check Ty} (hv : Keeps (E v (w.expr v object)) asValue) :
    Keeps (E v (w.expr v object)) (receiver ctx object asValue) := by
  refine receiver_gathers hv ?_
  rintro node name typeArgs rfl
  exact w.expr_step v (.identifier node name typeArgs)

mutual

/-- What an expression gathers. -/
theorem expr_keeps (v : V) : ∀ (e : Expr) (hint : Option Ty), Keeps (E v (w.expr v e)) (expr ctx e hint)
  | .identifier node name typeArgs, hint => by
    refine Keeps.within ?_ (w.expr_step v _)
    exact identifier_gathers _ _
  | .intLit node _, hint => by
    refine Keeps.within ?_ (w.expr_step v _)
    exact literal_gathers _
  | .boolLit node _, hint => by
    refine Keeps.within ?_ (w.expr_step v _)
    exact literal_gathers _
  | .strLit node _, hint => by
    refine Keeps.within ?_ (w.expr_step v _)
    exact literal_gathers _
  | .binary node op left right, hint => by
    refine Keeps.within ?_ (w.expr_step v _)
    exact typed_gathers ((binary_gathers _ (valued_gathers (expr_keeps v left none))
      (valued_gathers (expr_keeps v right none))).spare _)
  | .unary node op operand, hint => by
    have ho := expr_keeps v operand none
    refine Keeps.within ?_ (w.expr_step v _)
    exact typed_gathers (unary_gathers _ (target_keeps v operand _ ho) (valued_gathers ho))
  | .assign node left value, hint => by
    refine Keeps.within ?_ (w.expr_step v _)
    exact typed_gathers (assign_gathers _ (target_keeps v left _ (expr_keeps v left none))
      fun hint => valued_gathers (expr_keeps v value hint))
  | .call node callee args, hint => by
    refine Keeps.within ?_ (w.expr_step v _)
    exact typed_gathers (call_gathers _ (callable_calls v callee _ (expr_keeps v callee none)) (exprs_keeps v args))
  | .lambda node params ret body, hint => w.lambda ctx node params ret hint (lambdaBody_keeps _ body)
  | .member node object name typeArgs, hint => by
    refine Keeps.within ?_ (w.expr_step v _)
    exact typed_gathers (memberValue_gathers (memberUse_gathers _ _ _ _ (w.receiver_keeps ctx (expr_keeps v object none))))
  | .index node object index, hint => by
    refine Keeps.within ?_ (w.expr_step v _)
    exact typed_gathers (elementValue_gathers _ (valued_gathers (expr_keeps v object none))
      (valued_gathers (expr_keeps v index none)))
  | .isTest node value ty, hint => by
    refine Keeps.within ?_ (w.expr_step v _)
    exact typed_gathers (isTest_gathers ty (valued_gathers (expr_keeps v value none)))

/-- What the arguments of a call gather. -/
theorem exprs_keeps (v : V) : ∀ (es : List Expr) (hints : List (Option Ty)), Keeps (E v (w.exprs v es)) (exprs ctx es hints)
  | [], hints => by
    rw [exprs]
    exact (Keeps.pure _).within (w.exprs_nil v)
  | e :: es, hints => by
    rw [exprs]
    refine Keeps.within ?_ (w.exprs_cons v e es)
    exact (valued_gathers (expr_keeps v e _)).seq fun _ => (exprs_keeps v es _).first fun _ => .pure _

theorem target_keeps (v : V) (e : Expr) (asValue : Check Ty) (h : Keeps (E v (w.expr v e)) asValue) :
    Keeps (E v (w.expr v e)) (target ctx e asValue) := by
  cases e with
  | identifier node name typeArgs =>
    rw [target]
    exact (identifierTarget_gathers _ _).within (w.expr_step v (.identifier node name typeArgs))
  | member node object name typeArgs =>
    rw [target]
    refine Keeps.within ?_ (w.expr_step v (.member node object name typeArgs))
    exact memberTarget_gathers (memberUse_gathers _ _ _ _ (w.receiver_keeps ctx (expr_keeps v object none)))
  | index node object index =>
    rw [target]
    refine Keeps.within ?_ (w.expr_step v (.index node object index))
    exact elementTarget_gathers _ _ (valued_gathers (expr_keeps v object none)) (valued_gathers (expr_keeps v index none))
  | _ =>
    rw [target_of_not_place rfl]
    exact h.first fun _ => notAssignable_gathers _

theorem callable_calls (v : V) (e : Expr) (asValue : Check Ty) (h : Keeps (E v (w.expr v e)) asValue) :
    Calls (E v) e.node (w.expr v e) (callable ctx e asValue) := by
  cases e with
  | identifier node name typeArgs =>
    rw [callable]
    exact (identifierCallable_finds _ _).calls (w.expr_step v (.identifier node name typeArgs))
  | member node object name typeArgs =>
    rw [callable]
    refine Finds.calls (memberCallable_finds ?_) (w.expr_step v (.member node object name typeArgs))
    exact memberUse_gathers _ _ _ _ (w.receiver_keeps ctx (expr_keeps v object none))
  | _ =>
    rw [callable_of_not_named rfl]
    exact value_calls (valued_gathers h)

theorem lambdaBody_keeps (v : V) : ∀ (body : Body) (declared : Option Ty),
    Keeps (B v (w.body v body)) (lambdaBody ctx body declared)
  | .expr e, declared => by
    rw [lambdaBody]
    exact (w.exprBody _ _ (expr_keeps v e)).within (w.body_expr v e)
  | .block b, declared => by
    rw [lambdaBody]
    exact Keeps.within ((block_keeps v b).weaken fun _ _ => w.toBody) (w.body_block v b)

/-- What a block gathers. -/
theorem block_keeps (v : V) : ∀ b : Block, Keeps (S v (w.block v b)) (block ctx b)
  | .mk node ss => by
    rw [block]
    exact (w.idle _ (w.inBlock (stmts_keeps v ss))).within (w.block_step v node ss)

theorem stmts_keeps (v : V) : ∀ ss : List Stmt, Keeps (S v (w.stmts v ss)) (stmts ctx ss)
  | [] => by
    rw [stmts]
    refine Keeps.within ?_ (w.stmts_nil v)
    exact Keeps.weaken (R := E v []) (.pure _) fun _ _ => w.toStmt
  | s :: ss => by
    rw [stmts]
    refine Keeps.within (fun u a u' h => ?_) (w.stmts_cons v s ss)
    obtain ⟨_, t, hs, hss⟩ := bind_eq_ok.1 h
    exact w.seq (stmt_keeps v s hs) (stmts_keeps v ss hss)

/-- What a statement gathers. -/
theorem stmt_keeps (v : V) : ∀ s : Stmt, Keeps (S v (w.stmt v s)) (stmt ctx s)
  | .varDecl node ty name init => by
    rw [stmt]
    refine Keeps.within ?_ (w.stmt_step v _)
    refine w.varDecl ctx node ty name (initial_keeps v init) fun h => ?_
    cases init with
    | none => exact w.init_none v
    | some e => cases h
  | .ifThen node cond thenBody elseBody => by
    rw [stmt]
    refine Keeps.within (w.idle [.info node.id] ?_) (w.stmt_step v (.ifThen node cond thenBody elseBody))
    refine w.ifThen _ (valued_gathers (expr_keeps v cond none)) fun s a s' h => ?_
    obtain ⟨_, t, hthen, helse⟩ := bind_eq_ok.1 h
    exact w.seq (w.inBlock (stmt_keeps v thenBody) hthen) (otherwise_keeps v elseBody helse)
  | .whileDo node cond body => by
    rw [stmt]
    exact w.whileDo node (valued_gathers (expr_keeps v cond none)) (stmt_keeps _ body)
  | .block node b => by
    rw [stmt]
    exact (w.idle _ (block_keeps v b)).within (w.stmt_step v (.block node b))
  | .expr node e => by
    rw [stmt]
    refine Keeps.within (w.idle _ (Keeps.weaken ?_ fun _ _ => w.toStmt)) (w.stmt_step v (.expr node e))
    exact (expr_keeps v e none).first fun _ => .pure _
  | .ret node value => by
    rw [stmt]
    exact w.returns node fun e he hint => returned_keeps v value e he hint
  | .yields node e => by
    rw [stmt]
    exact w.yields node (expr_keeps v e)
  | .breaks node => by
    rw [stmt]
    exact w.breaks v node
  | .continues node => by
    rw [stmt]
    exact w.continues v node
  | .task node b => by
    rw [stmt]
    exact w.task node (block_keeps _ b)
  | .awaits node b => by
    rw [stmt]
    exact (w.idle _ (block_keeps v b)).within (w.stmt_step v (.awaits node b))

theorem returned_keeps (v : V) : ∀ (value : Option Expr), ∀ e ∈ value, ∀ hint, Keeps (E v (w.expr v e)) (expr ctx e hint)
  | none, e, he, hint => by cases he
  | some e, _, he, hint => by
    cases he
    exact expr_keeps v e hint

theorem initial_keeps (v : V) : ∀ (init : Option Expr), ∀ i ∈ initial ctx init, ∀ hint,
    Keeps (E v (w.init v init)) (i.analyse hint)
  | none, i, hi, hint => by
    rw [initial] at hi
    cases hi
  | some e, i, hi, hint => by
    rw [initial, Option.mem_some_iff] at hi
    subst hi
    exact (valued_gathers (expr_keeps v e hint)).within (w.init_some v e)

theorem otherwise_keeps (v : V) : ∀ s : Option Stmt, Keeps (S v (w.other v s)) (otherwise ctx s)
  | none => by
    rw [otherwise]
    refine Keeps.within ?_ (w.other_none v)
    exact Keeps.weaken (R := E v []) (.pure _) fun _ _ => w.toStmt
  | some s => by
    rw [otherwise]
    exact (w.inBlock (stmt_keeps v s)).within (w.other_some v s)

end

/-- What something to call gathers; a function is not noted before its call is. -/
theorem callable_keeps (v : V) (e : Expr) (asValue : Check Ty) (h : Keeps (E v (w.expr v e)) asValue) :
    Keeps (E v (w.expr v e)) (callable ctx e asValue) := by
  intro s c s' hrun
  have hcalls := w.callable_calls ctx v e asValue h hrun
  split at hcalls
  · obtain ⟨bs, hbs, hwithin⟩ := hcalls
    exact hwithin.run (Gathers.spare _ hbs)
  · exact hcalls

end PartsWalk

end ScriptCheck
