import ScriptCheck.Proofs.Gathering

/-!
# What a run leaves as it was

The walk through a body hands one state from rule to rule, so what each part does to what it does not mean to change has to
be said once and for all, also for runs that report something. Diagnostics and templates are only ever added, and notes are
made only for nodes of the part at hand (`Touches`). An expression moreover leaves the frame as it was except for dropped
narrowings (`ExprEffect`). A statement may make slots, and its frame is otherwise the same up to names, narrowings and the
result type of a lambda, which is settled once (`StmtEffect`). Inside a body nothing but that is promised about the frame
(`BodyEffect`), because the frame is left with the body.
-/

namespace ScriptCheck

/-! ### The relations -/

/-- What the `return`s of a body are checked against stays, or is found out where it was open. -/
inductive ReturnMode.Leads : ReturnMode → ReturnMode → Prop where
  | refl (mode : ReturnMode) : Leads mode mode
  | settle (ty : Ty) : Leads (.inferred none) (.inferred (some ty))

/-- What is found out once stays. -/
theorem ReturnMode.Leads.trans {a b c : ReturnMode} (h : a.Leads b) (h' : b.Leads c) : a.Leads c := by
  cases h with
  | refl => exact h'
  | settle ty =>
    cases h'
    exact .settle ty

/-- Diagnostics and templates were added, and notes were made for the nodes `ids` alone. -/
structure Touches (ids : List Nat) (s s' : State) : Prop where
  diagnostics : s.diagnostics <+: s'.diagnostics
  templates : s.templates <+: s'.templates
  nodes : ∀ n, n ∉ ids → s'.nodes.find? n = s.nodes.find? n
  globalScope : s'.globalScope = s.globalScope

/-- What an expression does to the state. -/
structure ExprEffect (ids : List Nat) (s s' : State) : Prop extends Touches ids s s' where
  frame : s.frame.Widens s'.frame
  globals : s'.globals = s.globals

/-- What a part of a body does to the state. -/
structure BodyEffect (ids : List Nat) (s s' : State) : Prop extends Touches ids s s' where
  locals : s.frame.locals <+: s'.frame.locals
  seqElem : s'.frame.seqElem = s.frame.seqElem
  isThisCall : s'.frame.isThisCall = s.frame.isThisCall
  globals : s.globalScope = false → s'.globals = s.globals

/-- What statements do to the state. -/
structure StmtEffect (ids : List Nat) (s s' : State) : Prop extends BodyEffect ids s s' where
  ret : s.frame.ret.Leads s'.frame.ret
  loopDepth : s'.frame.loopDepth = s.frame.loopDepth

namespace Touches

variable {ids : List Nat} {s t u : State}

/-- Nothing need be touched. -/
theorem refl (ids : List Nat) (s : State) : Touches ids s s :=
  ⟨List.prefix_refl _, List.prefix_refl _, fun _ _ => rfl, rfl⟩

/-- Steps that touch these nodes compose. -/
theorem trans (a : Touches ids s t) (b : Touches ids t u) : Touches ids s u :=
  ⟨a.diagnostics.trans b.diagnostics, a.templates.trans b.templates,
    fun n hn => (b.nodes n hn).trans (a.nodes n hn), b.globalScope.trans a.globalScope⟩

/-- More nodes may be touched. -/
theorem mono {ids' : List Nat} (h : Touches ids s t) (hs : ids ⊆ ids') : Touches ids' s t :=
  ⟨h.diagnostics, h.templates, fun n hn => h.nodes n fun hm => hn (hs hm), h.globalScope⟩

/-- Where there is no diagnostic at the end there was none before. -/
theorem silent (h : Touches ids s t) (ht : t.diagnostics = []) : s.diagnostics = [] :=
  Check.Adds.silent h.diagnostics ht

end Touches

namespace ExprEffect

variable {ids : List Nat} {s t u : State}

/-- Effects of expressions compose. -/
theorem trans (a : ExprEffect ids s t) (b : ExprEffect ids t u) : ExprEffect ids s u :=
  ⟨a.toTouches.trans b.toTouches, a.frame.trans b.frame, b.globals.trans a.globals⟩

instance : Std.Refl (ExprEffect ids) := ⟨fun s => ⟨.refl ids s, .refl _, rfl⟩⟩

instance : IsTrans State (ExprEffect ids) := ⟨fun _ _ _ => trans⟩

/-- They hold for more nodes. -/
theorem mono {ids' : List Nat} (h : ExprEffect ids s t) (hs : ids ⊆ ids') : ExprEffect ids' s t :=
  ⟨h.toTouches.mono hs, h.frame, h.globals⟩

/-- An expression does to the state what a statement may do. -/
theorem toStmt (h : ExprEffect ids s t) : StmtEffect ids s t :=
  ⟨⟨h.toTouches, by simp [h.frame.locals], h.frame.seqElem, h.frame.isThisCall, fun _ => h.globals⟩,
    by rw [h.frame.ret]; exact .refl _, h.frame.loopDepth⟩

end ExprEffect

namespace BodyEffect

variable {ids : List Nat} {s t u : State}

/-- Effects of bodies compose. -/
theorem trans (a : BodyEffect ids s t) (b : BodyEffect ids t u) : BodyEffect ids s u :=
  ⟨a.toTouches.trans b.toTouches, a.locals.trans b.locals, b.seqElem.trans a.seqElem,
    b.isThisCall.trans a.isThisCall,
    fun h => (b.globals (a.globalScope.trans h)).trans (a.globals h)⟩

instance : Std.Refl (BodyEffect ids) := ⟨fun s => ⟨.refl ids s, List.prefix_refl _, rfl, rfl, fun _ => rfl⟩⟩

instance : IsTrans State (BodyEffect ids) := ⟨fun _ _ _ => trans⟩

/-- They hold for more nodes. -/
theorem mono {ids' : List Nat} (h : BodyEffect ids s t) (hs : ids ⊆ ids') : BodyEffect ids' s t :=
  ⟨h.toTouches.mono hs, h.locals, h.seqElem, h.isThisCall, h.globals⟩

end BodyEffect

namespace StmtEffect

variable {ids : List Nat} {s t u : State}

/-- Effects of statements compose. -/
theorem trans (a : StmtEffect ids s t) (b : StmtEffect ids t u) : StmtEffect ids s u :=
  ⟨a.toBodyEffect.trans b.toBodyEffect, a.ret.trans b.ret, b.loopDepth.trans a.loopDepth⟩

instance : Std.Refl (StmtEffect ids) := ⟨fun s => ⟨Std.Refl.refl s, .refl _, rfl⟩⟩

instance : IsTrans State (StmtEffect ids) := ⟨fun _ _ _ => trans⟩

/-- They hold for more nodes. -/
theorem mono {ids' : List Nat} (h : StmtEffect ids s t) (hs : ids ⊆ ids') : StmtEffect ids' s t :=
  ⟨h.toBodyEffect.mono hs, h.ret, h.loopDepth⟩

end StmtEffect

namespace Notes

variable {P : NodeInfo → Prop} {ids : List Nat} {s t : State}

/-- Notes touch their own nodes. -/
theorem touches (h : Notes P ids s t) : Touches ids s t :=
  ⟨h.diagnostics, h.templates ▸ List.prefix_refl _, h.nodes, h.globalScope⟩

/-- Noting something is what an expression may do. -/
theorem exprEffect (h : Notes P ids s t) : ExprEffect ids s t :=
  { h.touches with
    frame := h.frame ▸ .refl _
    globals := h.globals }

end Notes

/-- The node that something is written at. -/
def NodeWrite.node : NodeWrite → Nat
  | type n => n
  | info n => n

/-- A note is written for the node it is about. -/
@[simp] theorem NodeWrite.node_comp_info : NodeWrite.node ∘ NodeWrite.info = id := rfl

/-- An expression gathers the nodes that it writes at. -/
instance : Gathers ExprEffect where
  cost ws := ws.map NodeWrite.node
  cost_append _ _ := List.map_append
  seq h h' := (h.mono (List.subset_append_left _ _)).trans (h'.mono (List.subset_append_right _ _))
  swap h := h.mono (List.perm_append_comm_assoc _ _ _).subset
  spare ws _ _ _ h := h.mono (List.subset_append_right _ _)
  typedInstead h := h
  looks h := h.exprEffect
  typed node ty s := (Check.noteType_notes (P := fun _ => False) (List.mem_singleton_self _) ty rfl).exprEffect
  noted node _ _ s := (Check.noteInfo_notes (P := fun _ => True) (List.mem_singleton_self _) trivial rfl).exprEffect
  types h := by
    simpa using h.exprEffect
  widens h := ⟨⟨List.prefix_refl _, List.prefix_refl _, fun _ _ => rfl, rfl⟩, h, rfl⟩

/-- More nodes make room for an effect. -/
theorem Within.of_subset {ids ids' : List Nat} (h : ids ⊆ ids') : Within ExprEffect ids ids' :=
  fun _ _ _ he => he.mono (List.append_subset.2 ⟨List.subset_append_of_subset_left _ h, List.subset_append_right _ _⟩)

namespace Check

variable {α : Type} {ids : List Nat} {ctx : Context}
variable {x : Check α} {node : Node} {analyse : Option Ty → Check Ty}

/-- A step that only notes something does to the state what an expression may do. -/
theorem Keeps.effect {P : NodeInfo → Prop} (h : Keeps (Notes P ids) x) : Keeps (ExprEffect ids) x :=
  h.weaken fun _ _ hn => hn.exprEffect

/-- The same for a step. -/
theorem Keeps.mono {ids' : List Nat} (h : Keeps (ExprEffect ids) x) (hs : ids ⊆ ids') :
    Keeps (ExprEffect ids') x := h.weaken fun _ _ he => he.mono hs

/-- What a step touches. -/
theorem Keeps.touches {a : α} {s s' : State} (h : Keeps (ExprEffect ids) x) (hr : x s = .ok (a, s')) :
    Touches ids s s' := (h hr).toTouches

/-- An expression does what a statement may do. -/
theorem Keeps.toStmt (h : Keeps (ExprEffect ids) x) : Keeps (StmtEffect ids) x :=
  h.weaken fun _ _ he => he.toStmt

/-! ### Primitive steps -/

/-- A report touches no node. -/
theorem report_effect (problem : Problem) (node : Node) : Keeps (ExprEffect ids) (report problem node) := by
  intro s a s' h
  cases h
  exact ⟨⟨List.prefix_append _ _, List.prefix_refl _, fun _ _ => rfl, rfl⟩, .refl _, rfl⟩

/-- A note touches its node. -/
theorem noteInfo_effect (hn : node.id ∈ ids) (info : NodeInfo) :
    Keeps (ExprEffect ids) (noteInfo node info) := (noteInfo_notes (P := fun _ => True) hn trivial).effect

/-- A new template touches no node. -/
theorem pushTemplate_effect (kind : TemplateKind) (frame : Frame) (body : Option Nat) :
    Keeps (ExprEffect ids) (pushTemplate kind frame body) := by
  intro s a s' h
  rw [pushTemplate_apply] at h
  cases h
  exact ⟨⟨List.prefix_refl _, List.prefix_append _ _, fun _ _ => rfl, rfl⟩, .refl _, rfl⟩

/-- A written type touches its own nodes. -/
theorem typeExpr_effect (ctx : Context) (t : TypeExpr) : Keeps (ExprEffect t.ids) (typeExpr ctx t) :=
  (typeExpr_notes ctx t).effect

/-- So do several. -/
theorem typeExprs_effect (ctx : Context) (ts : List TypeExpr) :
    Keeps (ExprEffect (TypeExpr.idsOfList ts)) (typeExprs ctx ts) := (typeExprs_notes ctx ts).effect

/-! ### Lambdas and tasks -/

/-- So do the types of parameters. -/
theorem lambdaParams_effect (hints : Option (List Ty)) (params : List LambdaParam) :
    Keeps (ExprEffect (LambdaParam.idsOfList params)) (lambdaParams ctx hints params) :=
  ((lambdaParams_notes hints params).notesIn (LambdaParam.typeIds_subset params)).effect

/-- So does a declared result. -/
theorem declaredResult_effect (ret : Option TypeExpr) :
    Keeps (ExprEffect (TypeExpr.idsOfOption ret)) (ret.mapM (typeExpr ctx)) := (declaredResult_notes ret).effect

/-- Wiring captures touches no node. -/
theorem wireCaptures_effect (node : Node) (needs : List CaptureNeed) :
    Keeps (ExprEffect ids) (wireCaptures ctx node needs) := (wireCaptures_notes (P := fun _ => False) node needs).effect

/-- A local variable takes a slot of the frame. -/
theorem declareLocal_effect (name : String) (ty : Ty) : Keeps (StmtEffect ids) (declareLocal name ty) := by
  intro s a s' h
  rw [declareLocal_apply] at h
  cases h
  exact ⟨⟨⟨List.prefix_refl _, List.prefix_refl _, fun _ _ => rfl, rfl⟩, List.prefix_append _ _, rfl, rfl,
    fun _ => rfl⟩, .refl _, rfl⟩

/-- So does each parameter. -/
theorem declareParams_effect : ∀ (params : List (Node × String)) (types : List Ty),
    (∀ p ∈ params, p.1.id ∈ ids) → Keeps (StmtEffect ids) (declareParams params types)
  | [], types, _ => by
    rw [declareParams.eq_def]
    exact .pure _
  | p :: ps, [], _ => by
    rw [declareParams.eq_def]
    exact .pure _
  | (node, name) :: ps, ty :: tys, h => by
    rw [declareParams, declareParam]
    refine Keeps.bind ((declareLocal_effect _ _).bind fun _ => (noteInfo_effect (h (node, name) (by simp)) _).toStmt)
      fun _ => ?_
    exact declareParams_effect ps tys fun p hp => h p (by simp [hp])

/-- So does each capture. -/
theorem declareCaptures_effect : ∀ pending : List PendingCapture,
    Keeps (StmtEffect ids) (declareCaptures pending)
  | [] => by
    rw [declareCaptures]
    exact .pure _
  | c :: cs => by
    rw [declareCaptures]
    exact (declareLocal_effect _ _).bind fun _ => (declareCaptures_effect cs).bind fun _ => .pure _

/-- An expression as a body may settle the result. -/
theorem exprBody_effect (declared : Option Ty) (node : Node) (ha : ∀ hint, Keeps (ExprEffect ids) (analyse hint)) :
    Keeps (BodyEffect ids) (exprBody ctx declared node analyse) := by
  have hb : ∀ {α : Type} {x : Check α}, Keeps (ExprEffect ids) x → Keeps (BodyEffect ids) x :=
    fun h => h.weaken fun _ _ he => he.toStmt.toBodyEffect
  unfold exprBody
  split
  · exact (hb (ha _)).bind fun _ => .pure _
  · exact hb (compared_gathers (valued_gathers (ha _)))
  · refine (hb (ha _)).bind fun found => ?_
    intro s a s' h
    cases h
    exact ⟨⟨List.prefix_refl _, List.prefix_refl _, fun _ _ => rfl, rfl⟩, List.prefix_refl _, rfl, rfl, fun _ => rfl⟩

/-- A body in a frame of its own does to the state around it what an expression does. -/
theorem inFrame_effect (frame : Frame) (hx : Keeps (BodyEffect ids) x) : Keeps (ExprEffect ids) (inFrame frame x) := by
  intro s r s' h
  obtain ⟨t, hr, -, rfl⟩ := inFrame_eq_ok.1 h
  have he := hx hr
  exact ⟨⟨he.diagnostics, he.templates, he.nodes, rfl⟩, .refl _, he.globals rfl⟩

/-- A body in a frame of its own leaves the frame around it. -/
theorem closure_effect {params : List (Node × String)} {types : List Ty} {pending : List PendingCapture}
    {mode : ReturnMode} {body : Check Unit} (hp : ∀ p ∈ params, p.1.id ∈ ids) (hb : Keeps (BodyEffect ids) body) :
    Keeps (ExprEffect ids) (closure params types pending mode body) :=
  inFrame_effect _ <| ((declareParams_effect _ _ hp).weaken fun _ _ h => h.toBodyEffect).bind fun _ =>
    ((declareCaptures_effect _).weaken fun _ _ h => h.toBodyEffect).bind fun _ => hb.bind fun _ => .pure _

/-- Parameters are parts of their list. -/
theorem LambdaParam.node_mem_idsOfList {params : List LambdaParam} {p : LambdaParam} (h : p ∈ params) :
    p.node.id ∈ LambdaParam.idsOfList params := by
  induction params with
  | nil => simp at h
  | cons q qs ih =>
    rcases List.mem_cons.1 h with rfl | h
    · simp [LambdaParam.idsOfList, LambdaParam.ids]
    · simp [LambdaParam.idsOfList, ih h]

/-- A lambda leaves the frame alone. -/
theorem lambda_effect {params : List LambdaParam} {ret : Option TypeExpr} {body : Body}
    {analyse : Option Ty → Check Unit} (hn : node.id ∈ ids) (hp : LambdaParam.idsOfList params ⊆ ids)
    (hr : TypeExpr.idsOfOption ret ⊆ ids) (expected : Option Ty) (ha : ∀ declared, Keeps (BodyEffect ids) (analyse declared)) :
    Keeps (ExprEffect ids) (lambda ctx node params ret body expected analyse) := by
  refine ((lambdaParams_effect _ _).mono hp).bind fun types => ((declaredResult_effect _).mono hr).bind fun declared =>
    (wireCaptures_effect _ _).bind fun pending => ?_
  split
  · exact .pure _
  · refine (closure_effect ?_ (ha _)).bind fun r => (pushTemplate_effect _ _ _).bind fun _ =>
      (noteInfo_effect hn _).bind fun _ => .pure _
    simp only [List.mem_map]
    rintro _ ⟨p, hm, rfl⟩
    exact hp (LambdaParam.node_mem_idsOfList hm)

/-- So does a task. -/
theorem task_effect {block : Block} {analyse : Check Unit} (hn : node.id ∈ ids)
    (ha : Keeps (BodyEffect ids) analyse) : Keeps (ExprEffect ids) (task ctx node block analyse) := by
  refine (wireCaptures_effect _ _).bind fun pending => ?_
  split
  · exact .pure _
  · exact (closure_effect (by simp) ha).bind fun r => (pushTemplate_effect _ _ _).bind fun _ => noteInfo_effect hn _

/-! ### Statements -/

/-- A scope ends with its variables. -/
theorem inScope_effect (hx : Keeps (StmtEffect ids) x) : Keeps (StmtEffect ids) (inScope x) := by
  intro s a s' h
  obtain ⟨t, hr, rfl⟩ := inScope_eq_ok.1 h
  have he := hx hr
  exact ⟨⟨⟨he.diagnostics, he.templates, he.nodes, rfl⟩, he.locals, he.seqElem, he.isThisCall, he.globals⟩, he.ret,
    he.loopDepth⟩

/-- So does a block. -/
theorem inBlock_effect (hx : Keeps (StmtEffect ids) x) : Keeps (StmtEffect ids) (inBlock x) := by
  intro s a s' h
  obtain ⟨t, hr, rfl⟩ := inBlock_eq_ok.1 h
  have he := hx hr
  exact ⟨⟨⟨he.diagnostics, he.templates, he.nodes, rfl⟩, he.locals, he.seqElem, he.isThisCall,
    fun _ => he.globals rfl⟩, he.ret, he.loopDepth⟩

/-- Narrowing changes no slot. -/
theorem narrow_effect (storage : Storage) (ty : Ty) : Keeps (StmtEffect ids) (modifyFrame (·.narrow storage ty)) := by
  intro s a s' h
  cases h
  exact ⟨⟨⟨List.prefix_refl _, List.prefix_refl _, fun _ _ => rfl, rfl⟩, List.prefix_refl _, rfl, rfl, fun _ => rfl⟩,
    .refl _, rfl⟩

/-- What a test shows ends with the `if`. -/
theorem ifThen_effect {cond : Expr} {value : Check Ty} {branches : Check Unit} (hv : Keeps (ExprEffect ids) value)
    (hb : Keeps (StmtEffect ids) branches) : Keeps (StmtEffect ids) (ifThen cond value branches) := by
  refine (condition_gathers hv).toStmt.bind fun _ => Keeps.get.bind fun s => inScope_effect ?_
  split
  · exact (narrow_effect _ _).bind fun _ => hb
  · exact hb

/-- A loop ends at the depth where it started. -/
theorem whileDo_effect {value : Check Ty} {body : Check Unit} (cond : Node) (hv : Keeps (ExprEffect ids) value)
    (hb : Keeps (StmtEffect ids) body) : Keeps (StmtEffect ids) (whileDo cond value body) := by
  refine (condition_gathers hv).toStmt.bind fun _ => ?_
  intro s a s' h
  simp only [bind_eq_ok, modifyFrame_apply, ok_inj] at h
  obtain ⟨_, _, ⟨-, rfl⟩, _, t, h, -, rfl⟩ := h
  have he := inBlock_effect hb h
  refine ⟨⟨⟨he.diagnostics, he.templates, he.nodes, he.globalScope⟩, he.locals, he.seqElem, he.isThisCall,
    he.globals⟩, he.ret, ?_⟩
  have hd := he.loopDepth
  simp only at hd ⊢
  omega

/-- A declared variable takes one slot. -/
theorem declareVar_effect (name : String) (ty : Ty) : Keeps (StmtEffect ids) (declareVar name ty) := by
  intro s a s' h
  simp only [declareVar, bind_eq_ok, get_apply, ok_inj] at h
  obtain ⟨_, _, ⟨rfl, rfl⟩, h⟩ := h
  split at h
  · rename_i hg
    simp only [bind_eq_ok, get_apply, modify_apply, pure_eq_ok, ok_inj] at h
    obtain ⟨_, _, ⟨rfl, rfl⟩, _, _, ⟨-, rfl⟩, -, rfl⟩ := h
    refine ⟨⟨⟨List.prefix_refl _, List.prefix_refl _, fun _ _ => rfl, rfl⟩, List.prefix_refl _, rfl, rfl, ?_⟩,
      .refl _, rfl⟩
    intro hf
    rw [hf] at hg
    cases hg
  · obtain ⟨slot, t, h, -, rfl⟩ := bind_eq_ok.1 h
    exact declareLocal_effect _ _ h

/-- A result that is open may be settled. -/
theorem settleResult_effect (f : Frame → ReturnMode) :
    ∀ ⦃s a s'⦄, s.frame.ret = .inferred none → (∃ ty, f s.frame = .inferred (some ty)) →
      modifyFrame (fun g => { g with ret := f g }) s = .ok (a, s') → StmtEffect ids s s' := by
  rintro s a s' hr ⟨ty, hty⟩ h
  cases h
  refine ⟨⟨⟨List.prefix_refl _, List.prefix_refl _, fun _ _ => rfl, rfl⟩, List.prefix_refl _, rfl, rfl, fun _ => rfl⟩,
    ?_, rfl⟩
  simp only [hr, hty]
  exact .settle ty

/-- A return may settle the result. -/
theorem returnNothing_effect (node : Node) : Keeps (StmtEffect ids) (returnNothing ctx node) := by
  intro s a s' h
  simp only [returnNothing, bind_eq_ok, get_apply, ok_inj] at h
  obtain ⟨_, _, ⟨rfl, rfl⟩, h⟩ := h
  cases hq : s.frame.seqElem with
  | some elem =>
    simp only [hq] at h
    exact Keeps.pure _ h
  | none =>
    cases hr : s.frame.ret with
    | fixed expected =>
      simp only [hq, hr] at h
      split at h
      · exact (report_effect _ _).toStmt h
      · exact Keeps.pure _ h
    | inferred known =>
      cases known with
      | none =>
        simp only [hq, hr] at h
        exact settleResult_effect (fun _ => .inferred (some .void)) hr ⟨_, rfl⟩ h
      | some expected =>
        simp only [hq, hr] at h
        exact (Keeps.mono ((checkAssignable_gathers _ _ _).last fun _ => .pure _) (List.nil_subset _)).toStmt h

/-- So may one with a value. -/
theorem returnValue_effect (node : Node)
    (ha : ∀ hint, Keeps (ExprEffect ids) (analyse hint)) : Keeps (StmtEffect ids) (returnValue ctx node analyse) := by
  intro s a s' h
  simp only [returnValue] at h
  rw [bind_eq_ok] at h
  obtain ⟨_, _, ⟨⟩, h⟩ := h
  cases hq : s.frame.seqElem with
  | some elem =>
    simp only [hq] at h
    exact ((valued_gathers (ha _)).bind fun _ => report_effect _ _).toStmt h
  | none =>
    cases hr : s.frame.ret with
    | fixed expected =>
      simp only [hq, hr] at h
      split at h
      · refine Keeps.toStmt ((ha _).bind fun found => ?_) h
        split
        · exact report_effect _ _
        · exact .pure _
      · exact (compared_gathers (valued_gathers (ha _))).toStmt h
    | inferred known =>
      cases known with
      | none =>
        simp only [hq, hr] at h
        obtain ⟨found, t, h₁, h₂⟩ := bind_eq_ok.1 h
        have he := ha _ h₁
        exact he.toStmt.trans (settleResult_effect (fun _ => .inferred (some found)) (he.frame.ret.trans hr) ⟨_, rfl⟩ h₂)
      | some expected =>
        simp only [hq, hr] at h
        exact (compared_gathers (ha _)).toStmt h

/-- A yield does what its value does. -/
theorem yields_effect (node valueNode : Node) (ha : ∀ hint, Keeps (ExprEffect ids) (analyse hint)) :
    Keeps (ExprEffect ids) (yields ctx node valueNode analyse) := by
  refine Keeps.get.bind fun s => ?_
  split
  · exact (valued_gathers (ha _)).bind fun _ => report_effect _ _
  · exact compared_gathers (valued_gathers (ha _))

/-- A jump changes nothing. -/
theorem inLoop_effect (problem : Problem) (node : Node) : Keeps (ExprEffect ids) (inLoop problem node) := by
  refine Keeps.get.bind fun s => ?_
  split
  · exact report_effect _ _
  · exact .pure _

end Check

end ScriptCheck
