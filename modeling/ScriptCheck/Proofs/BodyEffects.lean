import ScriptCheck.Proofs.BodyOrder
import ScriptCheck.Proofs.Effects
import ScriptCheck.Proofs.GatheredParts

/-!
# What the walk leaves as it was

The effects of the rules, tied together along the tree: one statement for each function of the walk, by induction on the
part it is given. The declarations of a script and its function bodies follow.
-/

namespace ScriptCheck

/-- An effect on some nodes is one on more nodes. -/
theorem StmtEffect.within {ids ids' : List Nat} (h : ids ⊆ ids') : Within StmtEffect ids ids' := fun _ _ _ he =>
  he.mono (List.append_subset.2 ⟨List.subset_append_of_subset_left _ h, List.subset_append_right _ _⟩)

namespace Check

/-- The node numbers of the parts, as what a walk gathers. -/
def effectWalk : PartsWalk (fun _ : Unit => ExprEffect) (fun _ => StmtEffect) (fun _ => BodyEffect) where
  expr _ := Expr.ids
  exprs _ := Expr.idsOfList
  init _ := Expr.idsOfOption
  body _ := Body.ids
  block _ := Block.ids
  stmt _ := Stmt.ids
  stmts _ := Stmt.idsOfList
  other _ := Stmt.idsOfOption
  expr_step _ e := .of_subset (by cases e <;> simp [Parts.exprStep, own, nameCost, Gathers.cost, NodeWrite.node, Expr.ids])
  stmt_step _ s := StmtEffect.within (by cases s <;> simp [Parts.stmtStep, Gathers.cost, NodeWrite.node, Stmt.ids])
  toStmt := ExprEffect.toStmt
  toBody := StmtEffect.toBodyEffect
  seq h h' := (h.mono (List.subset_append_left _ _)).trans (h'.mono (List.subset_append_right _ _))
  swap h := h.mono (List.perm_append_comm_assoc _ _ _).subset
  exprBody declared node ha := exprBody_effect declared node ha
  declareVar _ name ty := declareVar_effect name ty
  inBlock := inBlock_effect
  ifThen _ _ _ hv hb := ifThen_effect (hv.mono (List.subset_append_left _ _))
    (hb.weaken fun _ _ h => h.mono (List.subset_append_right _ _))
  inLambda := id
  inTask := id
  inLoop := id
  lambda ctx node params ret b hint ha := by
    have hlambda : Keeps (ExprEffect (Expr.lambda node params ret b).ids)
        (Check.lambda ctx node params ret b hint (Check.lambdaBody ctx b)) :=
      lambda_effect (by simp [Expr.ids]) (by simp [Expr.ids]) (fun n h => by simp [Expr.ids, h]) _
        fun declared => (ha declared).weaken fun _ _ h => h.mono fun n hn => by simp [Expr.ids, hn]
    exact (typed_gathers hlambda).within (.of_subset (by simp [own, Gathers.cost, NodeWrite.node, Expr.ids]))
  task node b hb := (task_effect (by simp [Stmt.ids])
    (hb.weaken fun _ _ h => h.toBodyEffect.mono (by simp [Stmt.ids]))).toStmt
  whileDo node cond loop _ _ hv hb := whileDo_effect _ (hv.mono (by simp [Stmt.ids]))
    (hb.weaken fun _ _ h => h.mono (by simp [Stmt.ids]))
  returns node value hv := by
    cases value with
    | none => exact returnNothing_effect _
    | some e => exact returnValue_effect _ fun hint => (hv e rfl hint).mono (by simp [Stmt.ids, Expr.idsOfOption])
  yields node e _ ha := (yields_effect _ _ fun hint => (ha hint).mono (by simp [Stmt.ids])).toStmt
  breaks _ _ := (inLoop_effect _ _).toStmt
  continues _ _ := (inLoop_effect _ _).toStmt

variable (ctx : Context)

/-- Analysing an expression adds diagnostics and templates, notes something for its own nodes alone, and leaves the frame and
the script's variables as they were. -/
theorem expr_effect (e : Expr) (hint : Option Ty) : Keeps (ExprEffect e.ids) (expr ctx e hint) :=
  effectWalk.expr_keeps ctx () e hint

/-- Expressions, one after the other. -/
theorem exprs_effect (es : List Expr) (hints : List (Option Ty)) : Keeps (ExprEffect (Expr.idsOfList es)) (exprs ctx es hints) :=
  effectWalk.exprs_keeps ctx () es hints

/-- The target of an assignment. -/
theorem target_effect (e : Expr) (asValue : Check Ty) (h : Keeps (ExprEffect e.ids) asValue) :
    Keeps (ExprEffect e.ids) (target ctx e asValue) := effectWalk.target_keeps ctx () e asValue h

/-- What stands before a dot. -/
theorem receiver_effect {object : Expr} {asValue : Check Ty} (h : Keeps (ExprEffect object.ids) asValue) :
    Keeps (ExprEffect object.ids) (receiver ctx object asValue) := effectWalk.receiver_keeps ctx (v := ()) h

/-- What is called. -/
theorem callable_effect (e : Expr) (asValue : Check Ty) (h : Keeps (ExprEffect e.ids) asValue) :
    Keeps (ExprEffect e.ids) (callable ctx e asValue) := effectWalk.callable_keeps ctx () e asValue h

/-- The body of a lambda. -/
theorem lambdaBody_effect (body : Body) (declared : Option Ty) : Keeps (BodyEffect body.ids) (lambdaBody ctx body declared) :=
  effectWalk.lambdaBody_keeps ctx () body declared

/-- A block. -/
theorem block_effect (b : Block) : Keeps (StmtEffect b.ids) (block ctx b) := effectWalk.block_keeps ctx () b

/-- Statements, one after the other. -/
theorem stmts_effect (ss : List Stmt) : Keeps (StmtEffect (Stmt.idsOfList ss)) (stmts ctx ss) := effectWalk.stmts_keeps ctx () ss

/-- Analysing a statement adds diagnostics, templates and slots, notes something for its own nodes alone, and leaves the
frame otherwise as it was, up to names, narrowings and the result type of a lambda. -/
theorem stmt_effect (s : Stmt) : Keeps (StmtEffect s.ids) (stmt ctx s) := effectWalk.stmt_keeps ctx () s

/-- An initial value. -/
theorem initial_effect (init : Option Expr) : ∀ i ∈ initial ctx init, ∀ hint,
    Keeps (ExprEffect (Expr.idsOfOption init)) (i.analyse hint) := effectWalk.initial_keeps ctx () init

theorem declaredType_effect (node : Node) (ty : TypeExpr) (name : String) (init : Option Expr) :
    Keeps (ExprEffect (ty.ids ++ Expr.idsOfOption init)) (declaredType ctx node ty name (initial ctx init)) := by
  have hids : Gathers.cost ExprEffect (ty.ids.map .info) = ty.ids := by simp [Gathers.cost]
  rw [← hids]
  exact declaredType_gathers node ty name (initial_effect ctx init) fun _ => .of_subset (List.nil_subset _)

theorem otherwise_effect (s : Option Stmt) : Keeps (StmtEffect (Stmt.idsOfOption s)) (otherwise ctx s) :=
  effectWalk.otherwise_keeps ctx () s

/-! ### The records of a script -/

theorem paramRecords_effect (ctx : Context) (params : List FuncParam) :
    Keeps (ExprEffect (TypeExpr.idsOfList (params.map (·.ty)))) (paramRecords ctx params) :=
  (paramRecords_typeNodes ctx params).toNotes.effect

theorem declareElements_effect (ctx : Context) (script : Script) (m : Module) :
    Keeps (ExprEffect (TypeExpr.idsOfList script.types)) (declareElements ctx script m) :=
  (declareElements_notes ctx script m).effect

/-! ### The bodies of a script -/

theorem FuncParam.node_mem_idsOfList {params : List FuncParam} {p : FuncParam} (h : p ∈ params) :
    p.node.id ∈ FuncParam.idsOfList params := by
  induction params with
  | nil => simp at h
  | cons q qs ih =>
    rcases List.mem_cons.1 h with rfl | h
    · simp [FuncParam.idsOfList]
    · simp [FuncParam.idsOfList, ih h]

/-- The body of a function touches its own nodes. -/
theorem funcBody_effect (ctx : Context) (outer : ItemId) (decl : FuncDecl) :
    Keeps (ExprEffect decl.ids) (funcBody ctx outer decl) := by
  refine (Keeps.lift _).bind fun record => Keeps.bind (inFrame_effect _ ?_) fun r =>
    (pushTemplate_effect _ _ _).bind fun _ => .pure _
  have hparams : ∀ p ∈ decl.params.map (fun p => (p.node, p.name)), p.1.id ∈ decl.ids := by
    simp only [List.mem_map]
    rintro _ ⟨p, hp, rfl⟩
    simp [FuncDecl.ids, FuncParam.node_mem_idsOfList hp]
  exact ((declareParams_effect _ _ hparams).weaken fun _ _ h => h.toBodyEffect).bind fun _ =>
    (block_effect _ decl.body).weaken fun _ _ h => h.toBodyEffect.mono fun n h => by simp [FuncDecl.ids, h]

/-- So do several. -/
theorem sites_effect (ctx : Context) {fs : List FuncSite} {ids : List Nat} (h : funcSiteIds fs ⊆ ids) :
    Keeps (ExprEffect ids) (fs.forM (siteBody ctx)) :=
  .forM fun f hf => (funcBody_effect _ f.outer f.decl).mono fun _ hn => h (List.mem_flatMap.2 ⟨f, hf, hn⟩)

/-- So do all bodies of a script. -/
theorem scriptBodies_effect (ctx : Context) (script : Script) :
    Keeps (ExprEffect script.declIds) (scriptBodies ctx script) := by
  rw [scriptBodies_sites]
  exact sites_effect ctx (script.funcSites_ids _ _).subset

/-- So do its statements. -/
theorem scriptStmts_effect (ctx : Context) (script : Script) : Keeps (StmtEffect script.stmtIds) (scriptStmts ctx script) := by
  rw [scriptStmts_eq, Script.stmtIds_eq]
  exact stmts_effect ctx script.stmts

end Check

end ScriptCheck
