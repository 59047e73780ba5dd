import ScriptCheck.Proofs.FuncBodies

/-!
# How often a node is noted

Every part of a body is analysed once, whatever place it has in an expression and whether or not anything is reported. So a run
through a part adds for each node at most as many notes as the node has places in the part (`Counts`): one, where the node
numbers of the part differ. A script whose node numbers differ is therefore analysed without any note being replaced.
-/

namespace ScriptCheck

/-- For each node at most as many notes were added as it has places in the list. -/
def Counts (ids : List Nat) (s s' : State) : Prop := ∀ n, s'.nodes.noted n ≤ s.nodes.noted n + ids.count n

namespace Counts

variable {ids ids' : List Nat} {s t u : State}

/-- The same notes count as none. -/
theorem of_nodes (h : t.nodes = s.nodes) : Counts [] s t := fun n => by simp [h]

/-- One part after the other. -/
theorem seq (h : Counts ids s t) (h' : Counts ids' t u) : Counts (ids ++ ids') s u := fun n => by
  have hfirst := h n
  have hsecond := h' n
  rw [List.count_append]
  omega

/-- More may be counted than was noted, and in another order. -/
theorem mono (h : Counts ids s t) (hids : ∀ n, ids.count n ≤ ids'.count n) : Counts ids' s t :=
  fun n => Nat.le_trans (h n) (Nat.add_le_add_left (hids n) _)

/-- A note counts once. -/
theorem setInfo (s : State) (n : Nat) (info : NodeInfo) : Counts [n] s { s with nodes := s.nodes.setInfo n info } := fun k => by
  by_cases h : n = k <;> simp [h]

/-- Of nodes that differ, each is noted at most once. -/
theorem once (h : Counts ids s t) (hids : ids.Nodup) (n : Nat) : (t.nodes.history n).length ≤ (s.nodes.history n).length + 1 :=
  Nat.le_trans (h n) (Nat.add_le_add_left (List.nodup_iff_count_le_one.1 hids n) _)

end Counts

/-- The node that is noted, if more than a type is written. -/
def NodeWrite.noted : NodeWrite → List Nat
  | type _ => []
  | info n => [n]

@[simp] theorem NodeWrite.noted_type (n : Nat) : (NodeWrite.type n).noted = [] := rfl

@[simp] theorem NodeWrite.noted_info (n : Nat) : (NodeWrite.info n).noted = [n] := rfl

theorem NodeWrite.flatMap_noted_info (ids : List Nat) : (ids.map NodeWrite.info).flatMap noted = ids := by simp [List.flatMap_map]

instance : GathersBlindly Counts where
  cost ws := ws.flatMap NodeWrite.noted
  cost_append _ _ := List.flatMap_append
  seq := Counts.seq
  swap h := h.mono fun n => Nat.le_of_eq ((List.perm_append_comm_assoc _ _ _).count_eq n)
  spare _ _ _ _ h := h.mono fun n => (List.sublist_append_right _ _).count_le n
  typedInstead h := h.mono fun n => (List.sublist_cons_self _ _).count_le n
  looks h n := by simp [h.noted fun _ => id]
  typed _ _ _ n := by simp
  noted node _ _ s := .setInfo s node.id _
  types h n := by simpa [NodeWrite.flatMap_noted_info] using h.once n
  widens _ := .of_nodes rfl
  still h _ _ := .of_nodes h.nodes
  framed h := .of_nodes h.nodes
  reported _ _ := .of_nodes rfl

namespace Check

variable {bs : List Nat} {ctx : Context} {node : Node}

/-- A template is no note. -/
theorem pushTemplate_counts (kind : TemplateKind) (frame : Frame) (body : Option Nat) :
    Keeps (Counts []) (pushTemplate kind frame body) := by
  intro s a s' h
  rw [pushTemplate_apply] at h
  cases h
  exact .of_nodes rfl

/-- A meaning is noted once. -/
theorem noteInfo_counts (node : Node) (info : NodeInfo) : Keeps (Counts [node.id]) (noteInfo node info) := by
  intro s a s' h
  cases h
  exact .setInfo s node.id info

/-- The parameters of a lambda are noted once each, and its body as it is by itself. -/
theorem closure_counts {body : Check Unit} (params : List (Node × String)) (types : List Ty) (pending : List PendingCapture)
    (mode : ReturnMode) (hb : Keeps (Counts bs) body) :
    Keeps (Counts (params.map (·.1.id) ++ bs)) (closure params types pending mode body) := by
  rw [← NodeWrite.flatMap_noted_info (params.map (·.1.id)), List.map_map]
  exact inFrame_gathers _ ((declareParams_gathers (R := Counts) _ _).seq fun _ => (declareCaptures_gathers _).last fun _ =>
    hb.first fun _ => .pure _)

/-- A lambda notes its own node and what its parts note. -/
theorem lambda_counts {params : List LambdaParam} {ret : Option TypeExpr} {body : Body} {analyse : Option Ty → Check Unit}
    (expected : Option Ty) (ha : ∀ declared, Keeps (Counts bs) (analyse declared)) :
    Keeps (Counts (node.id :: (LambdaParam.idsOfList params ++ (TypeExpr.idsOfOption ret ++ bs))))
      (lambda ctx node params ret body expected analyse) := by
  have hinOrder : Keeps (Counts (LambdaParam.typeIds params ++ (TypeExpr.idsOfOption ret ++
      ((params.map (·.node.id) ++ bs) ++ [node.id])))) (lambda ctx node params ret body expected analyse) := by
    rw [← NodeWrite.flatMap_noted_info (LambdaParam.typeIds params), ← NodeWrite.flatMap_noted_info (TypeExpr.idsOfOption ret)]
    refine (lambdaParams_gathers (R := Counts) _ _).seq fun types => (declaredResult_gathers (R := Counts) _).seq fun declared =>
      (wireCaptures_notes _ _).looks.last fun r => ?_
    split
    · exact Keeps.weaken (R := Counts []) (.pure _) fun _ _ h => h.mono (by simp)
    · have hnodes : params.map (·.node.id) = (params.map fun p => (p.node, p.name)).map (·.1.id) := by simp
      rw [hnodes]
      exact (closure_counts _ _ _ _ (ha declared)).seq fun _ => (pushTemplate_counts _ _ _).last fun _ =>
        (noteInfo_counts node _).first fun _ => .pure _
  refine hinOrder.weaken fun _ _ h => h.mono fun n => ?_
  simp only [List.count_append, List.count_cons, (LambdaParam.idsOfList_perm params).count_eq n, List.count_nil]
  omega

/-- So does a task. -/
theorem task_counts {block : Block} {analyse : Check Unit} (ha : Keeps (Counts bs) analyse) :
    Keeps (Counts (node.id :: bs)) (task ctx node block analyse) := by
  refine (wireCaptures_notes _ _).looks.last fun r => ?_
  split
  · exact Keeps.weaken (R := Counts []) (.pure _) fun _ _ h => h.mono (by simp)
  · refine Keeps.weaken ((closure_counts [] [] _ _ ha).seq fun _ => (pushTemplate_counts _ _ _).last fun _ =>
      noteInfo_counts node _) fun _ _ h => h.mono fun n => ?_
    exact Nat.le_of_eq (List.perm_append_comm.count_eq n)

/-- The node numbers of the parts, as what a walk gathers. -/
def countsWalk : PartsWalk (fun _ : Unit => Counts) (fun _ => Counts) (fun _ => Counts) where
  expr _ := Expr.ids
  exprs _ := Expr.idsOfList
  init _ := Expr.idsOfOption
  body _ := Body.ids
  block _ := Block.ids
  stmt _ := Stmt.ids
  stmts _ := Stmt.idsOfList
  other _ := Stmt.idsOfOption
  expr_step _ e := .of_eq (by
    cases e <;> simp [Parts.exprStep, own, nameCost, Gathers.cost, NodeWrite.flatMap_noted_info, Expr.ids])
  stmt_step _ s := .of_eq (by cases s <;> simp [Parts.stmtStep, Gathers.cost, NodeWrite.flatMap_noted_info, Stmt.ids])
  toStmt := id
  toBody := id
  seq := Gathers.seq
  swap := Gathers.swap
  exprBody declared _ ha := exprBody_gathers declared ha
  declareVar _ := declareVar_gathers
  inBlock := inBlock_gathers
  ifThen _ _ _ := ifThen_gathers
  inLambda := id
  inTask := id
  inLoop := id
  lambda _ _ _ _ _ _ ha := typed_gathers (R := Counts) (lambda_counts _ ha)
  task _ _ := task_counts
  whileDo node _ _ _ _ hv hb := (whileDo_gathers hv hb).weaken fun _ _ => Gathers.spare [.info node.id]
  returns node value hv := by
    refine Keeps.spare (R := Counts) [.info node.id] ?_
    cases value with
    | none => exact returnNothing_gathers _
    | some e => exact returnValue_gathers _ (hv e rfl)
  yields node _ _ ha := (yields_gathers node _ ha).weaken fun _ _ => Gathers.spare [.info node.id]
  breaks _ node := Keeps.spare (R := Counts) [.info node.id] (inLoop_gathers _ node)
  continues _ node := Keeps.spare (R := Counts) [.info node.id] (inLoop_gathers _ node)

/-! ### The bodies of a script -/

/-- So does the body of a function. -/
theorem funcBody_counts (ctx : Context) (outer : ItemId) (decl : FuncDecl) :
    Keeps (Counts decl.bodyIds) (funcBody ctx outer decl) := by
  have hparams : decl.params.map (·.node.id) = (decl.params.map fun p => (p.node, p.name)).map (·.1.id) := by simp
  rw [FuncDecl.bodyIds, hparams, ← NodeWrite.flatMap_noted_info (List.map _ _), List.map_map]
  refine (Keeps.lift _).last fun record => Keeps.first (inFrame_gathers _ ?_) fun r =>
    (pushTemplate_counts _ _ _).last fun _ => .pure _
  exact (declareParams_gathers (R := Counts) _ _).seq fun _ => countsWalk.block_keeps _ () decl.body

/-- So do all bodies of a script. -/
theorem bodies_counts (ctx : Context) (script : Script) :
    Keeps (Counts (script.stmtIds ++ funcBodyIds (script.funcs ctx.root))) (bodies ctx script) := by
  refine Keeps.seq ?_ fun _ => Keeps.get.last fun s => (pushTemplate_counts _ _ _).last fun _ =>
    (anyFrame_gathers _).last fun _ => ?_
  · rw [scriptStmts_eq, Script.stmtIds_eq]
    exact countsWalk.stmts_keeps ctx () script.stmts
  · intro s a s' h
    exact (scriptBodies_runs script h).gathers fun d _ _ => funcBody_counts _ d.1 d.2

/-- The types of the declarations are noted first, and after that what stands in the bodies. -/
theorem script_counts (ctx : Context) (script : Script) :
    Keeps (Counts (TypeExpr.idsOfList script.types ++ (script.stmtIds ++ funcBodyIds (script.funcs ctx.root))))
      (Check.script ctx script) := by
  rw [← NodeWrite.flatMap_noted_info (TypeExpr.idsOfList script.types)]
  refine ((declareElements_typeNodes ctx script _).writesTypes (R := Counts)).seq fun m =>
    (rejectCycles_gathers m).last fun fine => ?_
  split
  · exact (bodies_counts _ script).first fun _ => .pure _
  · exact Keeps.weaken (R := Counts []) (.pure _) fun _ _ h => h.mono (by simp)

end Check

/-- No note is replaced in a script whose node numbers differ, whether or not anything is reported. -/
theorem Script.noted_once {ctx : Context} {script : Script} (hids : script.ids.Nodup) {made : Option Module} {s : State}
    (h : Check.script ctx script .initial = .ok (made, s)) (n : Nat) : (s.nodes.history n).length ≤ 1 := by
  refine (Check.script_counts ctx script h).once ?_ n
  have hsplit := List.nodup_append.1 (Script.split_nodup ctx.root hids)
  have hstmts := hids.sublist script.stmtIds_sublist
  have htypes := script.typeIds_subset
  have hfuncs := script.funcBodyIds_subset ctx.root
  have hapart := Script.stmtIds_disjoint hids
  grind [List.nodup_append]

end ScriptCheck
