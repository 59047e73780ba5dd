import ScriptCheck.Proofs.BodyEffects
import ScriptCheck.Proofs.LockstepRules

/-!
# The walk stays in step

The rules tied together along the tree: one statement for each function of the walk, by induction on the part it is given,
where the two runs have to agree on the nodes of that part. Function bodies and the statements of a script follow.
-/

namespace ScriptCheck.Check

variable {E : LookupError → LookupError → Prop} {N : Set Nat}

/-- The nodes of expressions are among those of their parts. -/
theorem node_mem_of_idsOfList : ∀ {es : List Expr}, (∀ n ∈ Expr.idsOfList es, n ∈ N) → ∀ n ∈ es.map Expr.node, n.id ∈ N
  | [], _ => by simp
  | e :: es, h => by
    rw [Expr.idsOfList, List.forall_mem_append] at h
    rw [List.map_cons, List.forall_mem_cons]
    exact ⟨h.1 _ e.node_mem_ids, node_mem_of_idsOfList h.2⟩

mutual

/-- Analysing an expression keeps two runs in step that agree on its nodes. -/
theorem expr_lockstep {ctx ctx' : Context} (h : ctx.Alike E ctx') : ∀ (e : Expr) (hint : Option Ty), (∀ n ∈ e.ids, n ∈ N) →
    Lockstep E N Eq (expr ctx e hint) (expr ctx' e hint)
  | .identifier node name typeArgs, hint, hN => by
    rw [Expr.ids, List.forall_mem_cons] at hN
    rw [expr, expr]
    exact typed_lockstep node (identifier_lockstep h hN.1 name hN.2)
  | .intLit node _, hint, hN => by
    rw [expr, expr]
    exact typed_lockstep node (.pure rfl)
  | .boolLit node _, hint, hN => by
    rw [expr, expr]
    exact typed_lockstep node (.pure rfl)
  | .strLit node _, hint, hN => by
    rw [expr, expr]
    exact typed_lockstep node (.pure rfl)
  | .binary node op left right, hint, hN => by
    rw [Expr.ids, List.forall_mem_cons, List.forall_mem_append] at hN
    rw [expr, expr]
    exact typed_lockstep node (binary_lockstep h hN.1 op
      (valued_lockstep (hN.2.1 _ left.node_mem_ids) (expr_lockstep h left none hN.2.1))
      (valued_lockstep (hN.2.2 _ right.node_mem_ids) (expr_lockstep h right none hN.2.2)))
  | .unary node op operand, hint, hN => by
    rw [Expr.ids, List.forall_mem_cons] at hN
    have ho := expr_lockstep h operand none hN.2
    rw [expr, expr]
    exact typed_lockstep node (unary_lockstep h hN.1 op (target_lockstep h operand ho hN.2)
      (valued_lockstep (hN.2 _ operand.node_mem_ids) ho))
  | .assign node left value, hint, hN => by
    rw [Expr.ids, List.forall_mem_cons, List.forall_mem_append] at hN
    have hv := hN.2.2 _ value.node_mem_ids
    rw [expr, expr]
    exact typed_lockstep node (assign_lockstep h node hv (target_lockstep h left (expr_lockstep h left none hN.2.1) hN.2.1)
      fun hint => valued_lockstep hv (expr_lockstep h value hint hN.2.2))
  | .call node callee args, hint, hN => by
    rw [Expr.ids, List.forall_mem_cons, List.forall_mem_append] at hN
    rw [expr, expr]
    exact typed_lockstep node (call_lockstep h hN.1 callee.node
      (callable_lockstep h callee (expr_lockstep h callee none hN.2.1) hN.2.1) (node_mem_of_idsOfList hN.2.2)
      fun hints => exprs_lockstep h args hints hN.2.2)
  | .lambda node params ret body, hint, hN => by
    rw [Expr.ids, List.forall_mem_cons, List.forall_mem_append, List.forall_mem_append] at hN
    rw [expr, expr]
    exact typed_lockstep node (lambda_lockstep h hN.1 hN.2.1 hN.2.2.1 body hint
      fun declared => lambdaBody_lockstep h body declared hN.2.2.2)
  | .member node object name typeArgs, hint, hN => by
    rw [Expr.ids, List.forall_mem_cons, List.forall_mem_append] at hN
    rw [expr, expr]
    exact typed_lockstep node (memberValue_lockstep h hN.1 (memberUse_lockstep h hN.1 object.node name hN.2.2
      (receiver_lockstep h hN.2.1 (expr_lockstep h object none hN.2.1))))
  | .index node object index, hint, hN => by
    rw [Expr.ids, List.forall_mem_cons, List.forall_mem_append] at hN
    have hi := hN.2.2 _ index.node_mem_ids
    rw [expr, expr]
    exact typed_lockstep node (elementValue_lockstep h hN.1 hi
      (valued_lockstep (hN.2.1 _ object.node_mem_ids) (expr_lockstep h object none hN.2.1))
      (valued_lockstep hi (expr_lockstep h index none hN.2.2)))
  | .isTest node value ty, hint, hN => by
    rw [Expr.ids, List.forall_mem_cons, List.forall_mem_append] at hN
    rw [expr, expr]
    exact typed_lockstep node (isTest_lockstep h node hN.2.2
      (valued_lockstep (hN.2.1 _ value.node_mem_ids) (expr_lockstep h value none hN.2.1)))

/-- So do several expressions. -/
theorem exprs_lockstep {ctx ctx' : Context} (h : ctx.Alike E ctx') : ∀ (es : List Expr) (hints : List (Option Ty)),
    (∀ n ∈ Expr.idsOfList es, n ∈ N) → Lockstep E N Eq (exprs ctx es hints) (exprs ctx' es hints)
  | [], hints, hN => by
    rw [exprs, exprs]
    exact .pure rfl
  | e :: es, hints, hN => by
    rw [Expr.idsOfList, List.forall_mem_append] at hN
    rw [exprs, exprs]
    exact (valued_lockstep (hN.1 _ e.node_mem_ids) (expr_lockstep h e _ hN.1)).next fun _ =>
      (exprs_lockstep h es _ hN.2).next fun _ => .pure rfl

/-- A target is found alike. -/
theorem target_lockstep {ctx ctx' : Context} (h : ctx.Alike E ctx') (e : Expr) {x y : Check Ty} (hx : Lockstep E N Eq x y)
    (hN : ∀ n ∈ e.ids, n ∈ N) : Lockstep E N Eq (target ctx e x) (target ctx' e y) := by
  cases e with
  | identifier node name typeArgs =>
    rw [Expr.ids, List.forall_mem_cons] at hN
    rw [target, target]
    exact identifierTarget_lockstep h hN.1 name hN.2
  | member node object name typeArgs =>
    rw [Expr.ids, List.forall_mem_cons, List.forall_mem_append] at hN
    rw [target, target]
    exact memberTarget_lockstep hN.1 (memberUse_lockstep h hN.1 object.node name hN.2.2
      (receiver_lockstep h hN.2.1 (expr_lockstep h object none hN.2.1)))
  | index node object index =>
    rw [Expr.ids, List.forall_mem_cons, List.forall_mem_append] at hN
    have hi := hN.2.2 _ index.node_mem_ids
    rw [target, target]
    exact elementTarget_lockstep h hN.1 object.node hi
      (valued_lockstep (hN.2.1 _ object.node_mem_ids) (expr_lockstep h object none hN.2.1))
      (valued_lockstep hi (expr_lockstep h index none hN.2.2))
  | _ =>
    rw [target_of_not_place rfl, target_of_not_place rfl]
    exact hx.next fun _ => notAssignable_lockstep (hN _ (Expr.node_mem_ids _))

/-- What is called is found alike. -/
theorem callable_lockstep {ctx ctx' : Context} (h : ctx.Alike E ctx') (e : Expr) {x y : Check Ty} (hx : Lockstep E N Eq x y)
    (hN : ∀ n ∈ e.ids, n ∈ N) : Lockstep E N Eq (callable ctx e x) (callable ctx' e y) := by
  cases e with
  | identifier node name typeArgs =>
    rw [Expr.ids, List.forall_mem_cons] at hN
    rw [callable, callable]
    exact identifierCallable_lockstep h hN.1 name hN.2
  | member node object name typeArgs =>
    rw [Expr.ids, List.forall_mem_cons, List.forall_mem_append] at hN
    rw [callable, callable]
    exact memberCallable_lockstep node (memberUse_lockstep h hN.1 object.node name hN.2.2
      (receiver_lockstep h hN.2.1 (expr_lockstep h object none hN.2.1)))
  | _ =>
    rw [callable_of_not_named rfl, callable_of_not_named rfl]
    exact (valued_lockstep (hN _ (Expr.node_mem_ids _)) hx).next fun _ => .pure rfl

/-- A body keeps two runs in step. -/
theorem lambdaBody_lockstep {ctx ctx' : Context} (h : ctx.Alike E ctx') : ∀ (body : Body) (declared : Option Ty),
    (∀ n ∈ body.ids, n ∈ N) → Lockstep E N Eq (lambdaBody ctx body declared) (lambdaBody ctx' body declared)
  | .expr e, declared, hN => by
    rw [Body.ids] at hN
    rw [lambdaBody, lambdaBody]
    exact exprBody_lockstep h declared (hN _ e.node_mem_ids) fun hint => expr_lockstep h e hint hN
  | .block b, declared, hN => by
    rw [Body.ids] at hN
    rw [lambdaBody, lambdaBody]
    exact block_lockstep h b hN

/-- So does a block. -/
theorem block_lockstep {ctx ctx' : Context} (h : ctx.Alike E ctx') : ∀ b : Block, (∀ n ∈ b.ids, n ∈ N) →
    Lockstep E N Eq (block ctx b) (block ctx' b)
  | .mk node ss, hN => by
    rw [Block.ids, List.forall_mem_cons] at hN
    rw [block, block]
    exact inBlock_lockstep (stmts_lockstep h ss hN.2)

/-- So do several statements. -/
theorem stmts_lockstep {ctx ctx' : Context} (h : ctx.Alike E ctx') : ∀ ss : List Stmt, (∀ n ∈ Stmt.idsOfList ss, n ∈ N) →
    Lockstep E N Eq (stmts ctx ss) (stmts ctx' ss)
  | [], hN => by
    rw [stmts, stmts]
    exact .pure rfl
  | s :: ss, hN => by
    rw [Stmt.idsOfList, List.forall_mem_append] at hN
    rw [stmts, stmts]
    exact (stmt_lockstep h s hN.1).next fun _ => stmts_lockstep h ss hN.2

/-- Analysing a statement keeps two runs in step that agree on its nodes. -/
theorem stmt_lockstep {ctx ctx' : Context} (h : ctx.Alike E ctx') : ∀ s : Stmt, (∀ n ∈ s.ids, n ∈ N) →
    Lockstep E N Eq (stmt ctx s) (stmt ctx' s)
  | .varDecl node ty name init, hN => by
    rw [Stmt.ids, List.forall_mem_cons, List.forall_mem_append] at hN
    rw [stmt, stmt]
    exact varDecl_lockstep h hN.1 hN.2.1 name (initial_lockstep h init hN.2.2)
  | .ifThen node cond thenBody elseBody, hN => by
    rw [Stmt.ids, List.forall_mem_cons, List.forall_mem_append, List.forall_mem_append] at hN
    rw [stmt, stmt]
    refine ifThen_lockstep hN.2.1 (valued_lockstep (hN.2.1 _ cond.node_mem_ids) (expr_lockstep h cond none hN.2.1)) ?_
    exact (inBlock_lockstep (stmt_lockstep h thenBody hN.2.2.1)).next fun _ => otherwise_lockstep h elseBody hN.2.2.2
  | .whileDo node cond body, hN => by
    rw [Stmt.ids, List.forall_mem_cons, List.forall_mem_append] at hN
    have hc := hN.2.1 _ cond.node_mem_ids
    rw [stmt, stmt]
    exact whileDo_lockstep hc (valued_lockstep hc (expr_lockstep h cond none hN.2.1)) (stmt_lockstep h body hN.2.2)
  | .block node b, hN => by
    rw [Stmt.ids, List.forall_mem_cons] at hN
    rw [stmt, stmt]
    exact block_lockstep h b hN.2
  | .expr node e, hN => by
    rw [Stmt.ids, List.forall_mem_cons] at hN
    rw [stmt, stmt]
    exact (expr_lockstep h e none hN.2).next fun _ => .pure rfl
  | .ret node value, hN => by
    rw [Stmt.ids, List.forall_mem_cons] at hN
    rw [stmt, stmt]
    exact returns_lockstep h hN.1 value hN.2
  | .yields node e, hN => by
    rw [Stmt.ids, List.forall_mem_cons] at hN
    rw [stmt, stmt]
    exact yields_lockstep h hN.1 (hN.2 _ e.node_mem_ids) fun hint => expr_lockstep h e hint hN.2
  | .breaks node, hN => by
    rw [stmt, stmt]
    exact inLoop_lockstep _ (hN _ (by simp [Stmt.ids]))
  | .continues node, hN => by
    rw [stmt, stmt]
    exact inLoop_lockstep _ (hN _ (by simp [Stmt.ids]))
  | .task node b, hN => by
    rw [Stmt.ids, List.forall_mem_cons] at hN
    rw [stmt, stmt]
    exact task_lockstep h hN.1 b (block_lockstep h b hN.2)
  | .awaits node b, hN => by
    rw [Stmt.ids, List.forall_mem_cons] at hN
    rw [stmt, stmt]
    exact block_lockstep h b hN.2

theorem initial_lockstep {ctx ctx' : Context} (h : ctx.Alike E ctx') : ∀ init : Option Expr,
    (∀ n ∈ Expr.idsOfOption init, n ∈ N) → InitialInStep E N (initial ctx init) (initial ctx' init)
  | none, hN => by
    rw [initial, initial]
    exact .none
  | some e, hN => by
    rw [Expr.idsOfOption] at hN
    have hn := hN _ e.node_mem_ids
    rw [initial, initial]
    exact .some hn fun hint => valued_lockstep hn (expr_lockstep h e hint hN)

theorem otherwise_lockstep {ctx ctx' : Context} (h : ctx.Alike E ctx') : ∀ s : Option Stmt,
    (∀ n ∈ Stmt.idsOfOption s, n ∈ N) → Lockstep E N Eq (otherwise ctx s) (otherwise ctx' s)
  | none, hN => by
    rw [otherwise, otherwise]
    exact .pure rfl
  | some s, hN => by
    rw [Stmt.idsOfOption] at hN
    rw [otherwise, otherwise]
    exact inBlock_lockstep (stmt_lockstep h s hN)

theorem returns_lockstep {ctx ctx' : Context} (h : ctx.Alike E ctx') {node : Node} (hn : node.id ∈ N) : ∀ value : Option Expr,
    (∀ n ∈ Expr.idsOfOption value, n ∈ N) → Lockstep E N Eq (returns ctx node value) (returns ctx' node value)
  | none, hN => by
    rw [returns, returns]
    exact returnNothing_lockstep h hn
  | some e, hN => by
    rw [Expr.idsOfOption] at hN
    rw [returns, returns]
    exact returnValue_lockstep h (hN _ e.node_mem_ids) fun hint => expr_lockstep h e hint hN

end

/-! ### Bodies -/

/-- The body of a function, in two contexts. -/
theorem funcBody_lockstep {ctx ctx' : Context} (h : ctx.Alike E ctx') (outer : ItemId) {decl : FuncDecl}
    (hN : ∀ n ∈ decl.ids, n ∈ N) : Lockstep E N Eq (funcBody ctx outer decl) (funcBody ctx' outer decl) := by
  have hbody : ∀ n ∈ decl.body.ids, n ∈ N := fun n hn => hN n (by simp [FuncDecl.ids, hn])
  unfold funcBody
  rw [h.registry.funcRecord]
  refine (Lockstep.same _).next fun record => ?_
  refine (inFrame_lockstep _ ((declareParams_lockstep _ _).next fun _ => block_lockstep (h.within _) decl.body hbody)).next
    fun closed => ?_
  exact (pushTemplate_lockstep _ _ _).bind fun _ _ _ => .pure rfl

/-- All bodies, in order. -/
theorem sites_lockstep {ctx ctx' : Context} (h : ctx.Alike E ctx') : ∀ fs : List FuncSite, (∀ n ∈ funcSiteIds fs, n ∈ N) →
    Lockstep E N Eq (fs.forM (siteBody ctx)) (fs.forM (siteBody ctx'))
  | [], _ => .pure rfl
  | f :: fs, hN => by
    rw [funcSiteIds, List.flatMap_cons, List.forall_mem_append] at hN
    exact (funcBody_lockstep (h.inside f.around) f.outer hN.1).next fun _ => sites_lockstep h fs hN.2

end ScriptCheck.Check
