import ScriptCheck.Proofs.SafeRules

/-!
# Bodies without faults

The rules for lambdas, tasks and statements are safe, and the rules are tied together along the tree: the analysis of every
body is safe where the context is well formed, whatever the body says.
-/

namespace ScriptCheck.Check

variable {ctx : Context} {node : Node}

/-! ### Lambdas and tasks -/

/-- Where types are expected there is one for each parameter, so the search for them never runs out. -/
theorem lambdaParams_safe (hctx : ctx.WellFormed) : ∀ (hints : Option (List Ty)) (params : List LambdaParam),
    (∀ ts ∈ hints, ts.length = params.length ∧ ∀ t ∈ ts, t.WellFormed) →
      Safe (fun ts => ∀ t ∈ ts, t.WellFormed) (lambdaParams ctx hints params)
  | hints, [], _ => by
    rw [lambdaParams]
    exact .pure (by simp)
  | hints, p :: ps, hh => by
    rw [lambdaParams]
    have hparam : Safe Ty.WellFormed (lambdaParam ctx hints p) := by
      unfold lambdaParam
      split
      · exact typeExpr_safe hctx _
      · rename_i types hty
        obtain ⟨hlen, htypes⟩ := hh types rfl
        cases types with
        | nil => simp at hlen
        | cons t ts => exact .lift (.require rfl (htypes t List.mem_cons_self))
      · exact reject_safe _ _
    have htail : ∀ ts ∈ hints.map List.tail, ts.length = ps.length ∧ ∀ t ∈ ts, t.WellFormed := by
      intro ts hts
      obtain ⟨types, htypes, rfl⟩ := Option.map_eq_some_iff.1 hts
      obtain ⟨hlen, hwf⟩ := hh types htypes
      refine ⟨?_, fun t ht => hwf t (List.mem_of_mem_tail ht)⟩
      rw [List.length_tail, hlen, List.length_cons, Nat.add_sub_cancel]
    exact hparam.bind fun t ht => (lambdaParams_safe hctx _ ps htail).bind fun ts hts =>
      .pure (List.forall_mem_cons.2 ⟨ht, hts⟩)

/-- There is a hint for each parameter. -/
theorem paramHints_length {expected : Option Ty} {count : Nat} {ts : List Ty} (h : ts ∈ paramHints expected count) :
    ts.length = count := by
  unfold paramHints at h
  split at h
  · split at h
    · rename_i hlen
      rw [Option.mem_some_iff] at h
      exact h ▸ hlen
    · cases h
  · cases h

/-- Parameters are declared safely. -/
theorem declareParams_safe : ∀ (params : List (Node × String)) (types : List Ty), (∀ t ∈ types, t.WellFormed) →
    Runs (declareParams params types)
  | [], _, _ => by
    rw [declareParams.eq_def]
    exact .pure trivial
  | _ :: _, [], _ => by
    rw [declareParams.eq_def]
    exact .pure trivial
  | (node, name) :: ps, ty :: tys, ht => by
    obtain ⟨hty, htys⟩ := List.forall_mem_cons.1 ht
    have hparam : Runs (declareParam node name ty) :=
      (declareLocal_safe name hty).bind fun slot _ =>
        noteInfo_safe ⟨by simp [NodeInfo.types, Storage.types], by simp [NodeInfo.refs, Storage.refs]⟩
    rw [declareParams]
    exact hparam.bind fun _ _ => declareParams_safe ps tys htys

/-- Types and places of what a body needs are in order. -/
def PendingWellFormed (cs : List PendingCapture) : Prop := ∀ c ∈ cs, c.ty.WellFormed ∧ c.storage.WellFormed

/-- Types and places of what a body carries in are in order. -/
def CapturesWellFormed (cs : List CaptureInfo) : Prop := ∀ c ∈ cs, c.ty.WellFormed ∧ c.storage.WellFormed

/-- What is wired can be carried in. -/
theorem wireCaptures_safe (hctx : ctx.WellFormed) (node : Node) : ∀ needs : List CaptureNeed,
    Safe (fun r => ∀ cs ∈ r, PendingWellFormed cs) (wireCaptures ctx node needs)
  | [] => by
    rw [wireCaptures]
    exact .pure (by simp [PendingWellFormed])
  | need :: needs => by
    have hrest := wireCaptures_safe hctx node needs
    rw [wireCaptures]
    refine (lookup_safe hctx need.name (by simp) true).bind fun meaning hm => ?_
    split
    · obtain ⟨-, hd, hs⟩ := hm
      refine hrest.bind fun r hr => .pure fun cs hcs => ?_
      obtain ⟨ds, hds, rfl⟩ := Option.map_eq_some_iff.1 hcs
      exact List.forall_mem_cons.2 ⟨⟨hd, hs⟩, hr ds hds⟩
    · exact hrest
    · exact hrest
    · exact hrest
    · exact (report_safe _ _).bind fun _ _ => hrest.bind fun _ _ => .pure (by simp)
    · exact (report_safe _ _).bind fun _ _ => hrest.bind fun _ _ => .pure (by simp)

/-- Captures are declared safely. -/
theorem declareCaptures_safe : ∀ {cs : List PendingCapture}, PendingWellFormed cs →
    Safe CapturesWellFormed (declareCaptures cs)
  | [], _ => by
    rw [declareCaptures]
    exact .pure (by simp [CapturesWellFormed])
  | c :: cs, h => by
    obtain ⟨hc, hcs⟩ := List.forall_mem_cons.1 h
    rw [declareCaptures]
    exact (declareLocal_safe c.name hc.1).bind fun slot _ => (declareCaptures_safe hcs).bind fun rest hrest =>
      .pure (List.forall_mem_cons.2 ⟨hc, hrest⟩)

/-- What a lambda or a task carries in can be noted. -/
theorem CapturesWellFormed.types {cs : List CaptureInfo} (h : CapturesWellFormed cs) :
    ∀ t ∈ cs.flatMap CaptureInfo.types, t.WellFormed := by
  intro t ht
  obtain ⟨c, hc, ht⟩ := List.mem_flatMap.1 ht
  exact List.forall_mem_cons.2 ⟨(h c hc).1, (h c hc).2.types⟩ t ht

theorem CapturesWellFormed.refs {cs : List CaptureInfo} (h : CapturesWellFormed cs) :
    ∀ r ∈ cs.flatMap (fun c => c.storage.refs), r.2.fits r.1 = true := by
  intro r hr
  obtain ⟨c, hc, hr⟩ := List.mem_flatMap.1 hr
  exact (h c hc).2.refs r hr

/-- A `return` settles what a lambda gives. -/
theorem settleResult_safe {ty : Ty} (ht : ty.WellFormed) : Runs (modifyFrame fun f => { f with ret := .inferred (some ty) }) :=
  .modifyFrame fun _ hf hb =>
    ⟨⟨hf.locals, hf.overrides, by simpa [ReturnMode.types] using ht, hf.seqElem⟩, hb, Nat.le_refl _⟩

theorem exprBody_safe {declared : Option Ty} {analyse : Option Ty → Check Ty} (hd : ∀ t ∈ declared, t.WellFormed)
    (ha : ∀ hint, (∀ t ∈ hint, t.WellFormed) → Safe Ty.WellFormed (analyse hint)) :
    Runs (exprBody ctx declared node analyse) := by
  have hnone := ha none (by simp)
  unfold exprBody
  split
  · exact hnone.bind fun _ _ => .pure trivial
  · exact (valued_safe (ha _ hd)).bind fun _ _ => (checkAssignable_safe _ _ _).bind fun _ _ => .pure trivial
  · exact hnone.bind fun _ ht => settleResult_safe ht

/-- A body is safe in its own frame. -/
theorem closure_safe {params : List (Node × String)} {types : List Ty} {pending : List PendingCapture} {mode : ReturnMode}
    {body : Check Unit} (ht : ∀ t ∈ types, t.WellFormed) (hp : PendingWellFormed pending)
    (hm : ∀ t ∈ mode.types, t.WellFormed) (hb : Runs body) :
    Safe (fun r => CapturesWellFormed r.1 ∧ r.2.AllTypes Ty.WellFormed) (closure params types pending mode body) :=
  inFrame_safe (.enter hm (by simp)) (.enter _ _ _) <|
    (declareParams_safe params types ht).bind fun _ _ => (declareCaptures_safe hp).bind fun _ hcs =>
      hb.bind fun _ _ => .pure hcs

theorem declaredResult_safe (hctx : ctx.WellFormed) (ret : Option TypeExpr) :
    Safe (fun declared => ∀ t ∈ declared, t.WellFormed) (ret.mapM (typeExpr ctx)) := by
  cases ret with
  | none => exact .pure (by simp)
  | some e =>
    rw [Option.mapM_some, map_eq_pure_bind]
    exact (typeExpr_safe hctx e).bind fun t ht => .pure (by simpa using ht)

/-- A lambda has a well-formed type. -/
theorem lambda_safe (hctx : ctx.WellFormed) {params : List LambdaParam} {ret : Option TypeExpr} {body : Body}
    {expected : Option Ty} {analyse : Option Ty → Check Unit} (he : ∀ t ∈ expected, t.WellFormed)
    (hb : ∀ declared, (∀ t ∈ declared, t.WellFormed) → Runs (analyse declared)) :
    Safe Ty.WellFormed (lambda ctx node params ret body expected analyse) := by
  have hhints : ∀ ts ∈ paramHints expected params.length, ts.length = params.length ∧ ∀ t ∈ ts, t.WellFormed :=
    fun ts hts => ⟨paramHints_length hts, paramHints_types he _ ts hts⟩
  refine (lambdaParams_safe hctx _ params hhints).bind fun types ht => (declaredResult_safe hctx ret).bind fun declared hd =>
    (wireCaptures_safe hctx node _).bind fun r hr => ?_
  cases r with
  | none => exact .pure Ty.wellFormed_unresolved
  | some pending =>
    have hmode : ∀ t ∈ (ReturnMode.ofDeclared declared).types, t.WellFormed := by
      cases declared with
      | none => simp [ReturnMode.ofDeclared, ReturnMode.types]
      | some ty => simpa [ReturnMode.ofDeclared, ReturnMode.types] using hd
    refine (closure_safe ht (hr pending rfl) hmode (hb declared hd)).bind fun r hr => ?_
    obtain ⟨captures, frame⟩ := r
    obtain ⟨hcs, hf⟩ := hr
    have hret := lambdaResult_types hd hf.ret
    refine (pushTemplate_safe _ hf _).bind fun position _ => (noteInfo_safe ?_).bind fun _ _ =>
      .pure (Ty.wellFormed_func.2 ⟨hret, ht⟩)
    exact ⟨hcs.types, hcs.refs⟩

/-- A task is safe. -/
theorem task_safe (hctx : ctx.WellFormed) {block : Block} {analyse : Check Unit} (hb : Runs analyse) :
    Runs (task ctx node block analyse) := by
  refine (wireCaptures_safe hctx node _).bind fun r hr => ?_
  cases r with
  | none => exact .pure trivial
  | some pending =>
    refine (closure_safe (by simp) (hr pending rfl) (by simp [ReturnMode.types]) hb).bind fun r hr => ?_
    obtain ⟨captures, frame⟩ := r
    obtain ⟨hcs, hf⟩ := hr
    exact (pushTemplate_safe _ hf _).bind fun position _ => noteInfo_safe ⟨hcs.types, hcs.refs⟩

/-! ### Statements -/

theorem condition_safe {value : Check Ty} (hv : Safe Ty.WellFormed value) : Runs (condition node value) := by
  refine hv.bind fun ty _ => ?_
  split
  · exact report_safe _ _
  · exact .pure trivial

/-- An `if` is safe. -/
theorem ifThen_safe {cond : Expr} {value : Check Ty} {branches : Check Unit} (hv : Safe Ty.WellFormed value)
    (hb : Runs branches) : Runs (ifThen cond value branches) := by
  refine (condition_safe hv).bind fun _ _ => .get_bind fun s hs => inScope_safe ?_
  dsimp only
  split
  · rename_i storage ty hn
    -- The type was noted at the test, so it is in order.
    have hty : ty.WellFormed := narrowingOf_types (Ledger.holds_all.2 hs.types.nodes) hn
    have hnarrow : Runs (modifyFrame (·.narrow storage ty)) :=
      .modifyFrame fun _ hf hb => ⟨hf.narrow storage hty, hb, Nat.le_refl _⟩
    exact hnarrow.bind fun _ _ => hb
  · exact hb

/-- How deep in loops a place stands has nothing to do with types and slots. -/
theorem loopDepth_safe (depth : Nat → Nat) : Runs (modifyFrame fun f => { f with loopDepth := depth f.loopDepth }) :=
  .modifyFrame fun _ hf hb => ⟨⟨hf.locals, hf.overrides, hf.ret, hf.seqElem⟩, hb, Nat.le_refl _⟩

/-- So is a loop. -/
theorem whileDo_safe {cond : Node} {value : Check Ty} {body : Check Unit} (hv : Safe Ty.WellFormed value) (hb : Runs body) :
    Runs (whileDo cond value body) :=
  (condition_safe hv).bind fun _ _ => (loopDepth_safe (· + 1)).bind fun _ _ => (inBlock_safe hb).bind fun _ _ =>
    loopDepth_safe (· - 1)

theorem declaredType_safe (hctx : ctx.WellFormed) {ty : TypeExpr} {name : String} {init : Option Initial}
    (hi : ∀ i ∈ init, ∀ hint, (∀ t ∈ hint, t.WellFormed) → Safe Ty.WellFormed (i.analyse hint)) :
    Safe Ty.WellFormed (declaredType ctx node ty name init) := by
  unfold declaredType
  split
  · exact resolved_safe (hi _ rfl none (by simp))
  · exact resolved_safe (reject_safe _ _)
  · exact (typeExpr_safe hctx ty).bind fun declared hd => (hi _ rfl (some declared) (by simpa using hd)).bind fun _ _ =>
      (checkAssignable_safe _ _ _).bind fun _ _ => .pure hd
  · exact typeExpr_safe hctx ty

/-- A variable is given a slot of the script or of the frame. -/
theorem declareVar_safe (name : String) {ty : Ty} (ht : ty.WellFormed) :
    Safe (fun storage => storage.types = [] ∧ storage.refs = []) (declareVar name ty) := by
  refine .get_bind fun s _ => ?_
  split
  · have hdeclare : Runs (modify fun s : State => { s with globals := s.globals.declare name ty }) :=
      .modify fun s hs => ⟨⟨⟨hs.types.frame, List.forall_mem_append.2 ⟨hs.types.globals, by simpa using ht⟩, hs.types.nodes,
        hs.types.templates⟩, hs.bounded, hs.globals.declare name ty, hs.refs⟩, Nat.le_refl _⟩
    exact .get_bind fun _ _ => hdeclare.bind fun _ _ => .pure ⟨rfl, rfl⟩
  · exact (declareLocal_safe name ht).bind fun _ _ => .pure ⟨rfl, rfl⟩

/-- A variable is declared safely. -/
theorem varDecl_safe (hctx : ctx.WellFormed) {ty : TypeExpr} {name : String} {init : Option Initial}
    (hi : ∀ i ∈ init, ∀ hint, (∀ t ∈ hint, t.WellFormed) → Safe Ty.WellFormed (i.analyse hint)) :
    Runs (varDecl ctx node ty name init) :=
  (declaredType_safe hctx hi).bind fun _ ht => (declareVar_safe name ht).bind fun _ hs =>
    noteInfo_safe ⟨by simp [NodeInfo.types, hs.1], by simp [NodeInfo.refs, hs.2]⟩

theorem returnNothing_safe : Runs (returnNothing ctx node) := by
  refine .get_bind fun s _ => ?_
  dsimp only
  split
  · exact .pure trivial
  · split
    · exact report_safe _ _
    · exact .pure trivial
  · exact settleResult_safe Ty.wellFormed_void
  · exact (checkAssignable_safe _ _ _).bind fun _ _ => .pure trivial

/-- A return of a safe value is safe. -/
theorem returnValue_safe {analyse : Option Ty → Check Ty}
    (ha : ∀ hint, (∀ t ∈ hint, t.WellFormed) → Safe Ty.WellFormed (analyse hint)) : Runs (returnValue ctx node analyse) := by
  have hnone := ha none (by simp)
  refine .get_bind fun s hs => ?_
  have hret := hs.types.frame.ret
  dsimp only
  split
  · exact (valued_safe hnone).bind fun _ _ => report_safe _ _
  · rename_i expected _ hfixed
    rw [hfixed] at hret
    have he : ∀ t ∈ some expected, t.WellFormed := by simpa [ReturnMode.types] using hret
    split
    · refine hnone.bind fun found _ => ?_
      split
      · exact report_safe _ _
      · exact .pure trivial
    · exact (valued_safe (ha _ he)).bind fun _ _ => (checkAssignable_safe _ _ _).bind fun _ _ => .pure trivial
  · exact hnone.bind fun _ ht => settleResult_safe ht
  · rename_i expected _ hinferred
    rw [hinferred] at hret
    have he : ∀ t ∈ some expected, t.WellFormed := by simpa [ReturnMode.types] using hret
    exact (ha _ he).bind fun _ _ => (checkAssignable_safe _ _ _).bind fun _ _ => .pure trivial

/-- So is a yield. -/
theorem yields_safe {valueNode : Node} {analyse : Option Ty → Check Ty}
    (ha : ∀ hint, (∀ t ∈ hint, t.WellFormed) → Safe Ty.WellFormed (analyse hint)) :
    Runs (yields ctx node valueNode analyse) := by
  refine .get_bind fun s hs => ?_
  have helem := hs.types.frame.seqElem
  split
  · exact (valued_safe (ha none (by simp))).bind fun _ _ => report_safe _ _
  · rename_i elem hseq
    rw [hseq] at helem
    exact (valued_safe (ha _ helem)).bind fun _ _ => (checkAssignable_safe _ _ _).bind fun _ _ => .pure trivial

theorem inLoop_safe (problem : Problem) : Runs (inLoop problem node) := by
  refine .get_bind fun s _ => ?_
  split
  · exact report_safe _ _
  · exact .pure trivial

/-! ### The walk through a body -/

mutual

/-- The analysis of an expression gives a type that is in order. -/
theorem expr_safe (hctx : ctx.WellFormed) : ∀ (e : Expr) (hint : Option Ty), (∀ t ∈ hint, t.WellFormed) →
    Safe Ty.WellFormed (expr ctx e hint)
  | .identifier node name typeArgs, hint, _ => by
    rw [expr]
    exact typed_safe (identifier_safe hctx name typeArgs)
  | .intLit node _, hint, _ => by
    rw [expr]
    exact typed_safe (.pure Builtin.int_wellFormed)
  | .boolLit node _, hint, _ => by
    rw [expr]
    exact typed_safe (.pure Builtin.bool_wellFormed)
  | .strLit node _, hint, _ => by
    rw [expr]
    exact typed_safe (.pure Builtin.string_wellFormed)
  | .binary node op left right, hint, _ => by
    rw [expr]
    exact typed_safe (binary_safe (valued_safe (expr_safe hctx left none (by simp)))
      (valued_safe (expr_safe hctx right none (by simp))))
  | .unary node op operand, hint, _ => by
    have ho := expr_safe hctx operand none (by simp)
    rw [expr]
    exact typed_safe (unary_safe hctx (target_safe hctx operand _ ho) (valued_safe ho))
  | .assign node left value, hint, _ => by
    have hl := expr_safe hctx left none (by simp)
    rw [expr]
    exact typed_safe (assign_safe hctx (target_safe hctx left _ hl) fun hint hh => valued_safe (expr_safe hctx value hint hh))
  | .call node callee args, hint, _ => by
    have hc := expr_safe hctx callee none (by simp)
    rw [expr]
    exact typed_safe (call_safe hctx (callable_safe hctx callee _ hc) fun hints hh => exprs_safe hctx args hints hh)
  | .lambda node params ret body, hint, hh => by
    rw [expr]
    exact typed_safe (lambda_safe hctx hh fun declared hd => lambdaBody_safe hctx body declared hd)
  | .member node object name typeArgs, hint, _ => by
    have ho := expr_safe hctx object none (by simp)
    rw [expr]
    exact typed_safe (memberValue_safe hctx (memberUse_safe hctx (receiver_safe hctx ho)))
  | .index node object index, hint, _ => by
    rw [expr]
    exact typed_safe (elementValue_safe hctx (valued_safe (expr_safe hctx object none (by simp)))
      (valued_safe (expr_safe hctx index none (by simp))))
  | .isTest node value ty, hint, _ => by
    rw [expr]
    exact typed_safe (isTest_safe hctx (valued_safe (expr_safe hctx value none (by simp))))

/-- Several expressions give such types. -/
theorem exprs_safe (hctx : ctx.WellFormed) : ∀ (es : List Expr) (hints : List (Option Ty)),
    (∀ hint ∈ hints, ∀ t ∈ hint, t.WellFormed) → Safe (fun ts => ∀ t ∈ ts, t.WellFormed) (exprs ctx es hints)
  | [], hints, _ => by
    rw [exprs]
    exact .pure (by simp)
  | e :: es, hints, hh => by
    have hhead : ∀ t ∈ hints.headD none, t.WellFormed := by
      cases hints with
      | nil => simp
      | cons hint rest => exact hh hint List.mem_cons_self
    have htail : ∀ hint ∈ hints.tail, ∀ t ∈ hint, t.WellFormed := fun hint hm => hh hint (List.mem_of_mem_tail hm)
    rw [exprs]
    exact (valued_safe (expr_safe hctx e _ hhead)).bind fun t ht => (exprs_safe hctx es _ htail).bind fun ts hts =>
      .pure (List.forall_mem_cons.2 ⟨ht, hts⟩)

/-- A target that is found can be used. -/
theorem target_safe (hctx : ctx.WellFormed) (e : Expr) (asValue : Check Ty) (hv : Safe Ty.WellFormed asValue) :
    Safe (FoundUsable ctx.registry) (target ctx e asValue) := by
  cases e with
  | identifier node name typeArgs =>
    rw [target]
    exact identifierTarget_safe hctx name typeArgs
  | member node object name typeArgs =>
    have ho := expr_safe hctx object none (by simp)
    rw [target]
    exact memberTarget_safe (memberUse_safe hctx (receiver_safe hctx ho))
  | index node object index =>
    have ho := expr_safe hctx object none (by simp)
    have hi := expr_safe hctx index none (by simp)
    rw [target]
    exact elementTarget_safe hctx (valued_safe ho) (valued_safe hi)
  | _ =>
    rw [target_of_not_place rfl]
    exact hv.bind fun _ _ => notAssignable_safe _ _

/-- So can what is called. -/
theorem callable_safe (hctx : ctx.WellFormed) (e : Expr) (asValue : Check Ty) (hv : Safe Ty.WellFormed asValue) :
    Safe (Callable.Usable ctx.registry) (callable ctx e asValue) := by
  cases e with
  | identifier node name typeArgs =>
    rw [callable]
    exact identifierCallable_safe hctx name typeArgs
  | member node object name typeArgs =>
    have ho := expr_safe hctx object none (by simp)
    rw [callable]
    exact memberCallable_safe (memberUse_safe hctx (receiver_safe hctx ho))
  | _ =>
    rw [callable_of_not_named rfl]
    exact (valued_safe hv).bind fun t ht => .pure ht

/-- The body of a lambda is safe. -/
theorem lambdaBody_safe (hctx : ctx.WellFormed) : ∀ (body : Body) (declared : Option Ty),
    (∀ t ∈ declared, t.WellFormed) → Runs (lambdaBody ctx body declared)
  | .expr e, declared, hd => by
    rw [lambdaBody]
    exact exprBody_safe hd fun hint hh => expr_safe hctx e hint hh
  | .block b, declared, _ => by
    rw [lambdaBody]
    exact block_safe hctx b

/-- So is a block. -/
theorem block_safe (hctx : ctx.WellFormed) : ∀ b : Block, Runs (block ctx b)
  | .mk node ss => by
    rw [block]
    exact inBlock_safe (stmts_safe hctx ss)

theorem stmts_safe (hctx : ctx.WellFormed) : ∀ ss : List Stmt, Runs (stmts ctx ss)
  | [] => by
    rw [stmts]
    exact .pure trivial
  | st :: ss => by
    rw [stmts]
    exact (stmt_safe hctx st).bind fun _ _ => stmts_safe hctx ss

/-- The analysis of a statement ends without a fault. -/
theorem stmt_safe (hctx : ctx.WellFormed) : ∀ st : Stmt, Runs (stmt ctx st)
  | .varDecl node ty name init => by
    rw [stmt]
    exact varDecl_safe hctx fun i hi hint hh => initial_safe hctx init i hi hint hh
  | .ifThen node cond thenBody elseBody => by
    rw [stmt]
    exact ifThen_safe (valued_safe (expr_safe hctx cond none (by simp)))
      ((inBlock_safe (stmt_safe hctx thenBody)).bind fun _ _ => otherwise_safe hctx elseBody)
  | .whileDo node cond body => by
    rw [stmt]
    exact whileDo_safe (valued_safe (expr_safe hctx cond none (by simp))) (stmt_safe hctx body)
  | .block node b => by
    rw [stmt]
    exact block_safe hctx b
  | .expr node e => by
    rw [stmt]
    exact (expr_safe hctx e none (by simp)).bind fun _ _ => .pure trivial
  | .ret node value => by
    rw [stmt]
    exact returns_safe hctx node value
  | .yields node e => by
    rw [stmt]
    exact yields_safe fun hint hh => expr_safe hctx e hint hh
  | .breaks node => by
    rw [stmt]
    exact inLoop_safe _
  | .continues node => by
    rw [stmt]
    exact inLoop_safe _
  | .task node b => by
    rw [stmt]
    exact task_safe hctx (block_safe hctx b)
  | .awaits node b => by
    rw [stmt]
    exact block_safe hctx b

theorem initial_safe (hctx : ctx.WellFormed) : ∀ (init : Option Expr), ∀ i ∈ initial ctx init,
    ∀ hint, (∀ t ∈ hint, t.WellFormed) → Safe Ty.WellFormed (i.analyse hint)
  | none, i, hi, hint, _ => by
    rw [initial] at hi
    cases hi
  | some e, i, hi, hint, hh => by
    rw [initial, Option.mem_some_iff] at hi
    subst hi
    exact valued_safe (expr_safe hctx e hint hh)

theorem otherwise_safe (hctx : ctx.WellFormed) : ∀ st : Option Stmt, Runs (otherwise ctx st)
  | none => by
    rw [otherwise]
    exact .pure trivial
  | some st => by
    rw [otherwise]
    exact inBlock_safe (stmt_safe hctx st)

theorem returns_safe (hctx : ctx.WellFormed) (node : Node) : ∀ value : Option Expr, Runs (returns ctx node value)
  | none => by
    rw [returns]
    exact returnNothing_safe
  | some e => by
    rw [returns]
    exact returnValue_safe fun hint hh => expr_safe hctx e hint hh

end

end ScriptCheck.Check
