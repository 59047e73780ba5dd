import ScriptCheck.Proofs.Inherited
import ScriptCheck.Proofs.QuietExprs

/-!
# What a quiet run of a statement says

The same for the rules about bodies and statements. What a body carries in from the frame around it is a function of that
frame and of the names the body needs (`Frame.carried`), and its captures get their slots one after the other, behind those of
the parameters (`PendingCapture.numbered`).
-/

namespace ScriptCheck

/-! ### Variables of a frame -/

namespace Context

variable {ctx : Context} {frame : Frame} {globals : PrivateGlobals} {name : String} {args : List Ty} {allowPartial : Bool}

/-- A plain name that is visible in the frame means the variable of the frame. -/
theorem lookup_of_visible {slot : Nat} {declared : Ty} (h : frame.lookup? name = some (slot, declared)) :
    ctx.lookup frame globals name [] allowPartial = .ok (frame.read (.localSlot slot) declared) := by
  simp [lookup, Frame.lookup_of_lookup? h, bind, Except.bind, pure, Except.pure]

/-- A variable that modules know under a name is read as the frame says. -/
theorem globalMeaning_var {key : Name} {st : Storage} {ty declared : Ty}
    (h : ctx.globalMeaning frame key args allowPartial = .ok (.var st ty declared)) :
    ty = frame.readType st declared ∧ ∃ record ∈ ctx.registry.globalVars key, st = .moduleGlobal record.id ∧
      declared = record.ty := by
  rcases globalMeaning_cases h with ⟨ms, hms, hm⟩ | ⟨r, -, rest, f, -, -, hm⟩ | hm | ⟨count, hm⟩
  · simp only [globalMeanings, Except.bind_eq_ok, Except.pure_eq_ok] at hms
    obtain ⟨funcs, -, types, -, rfl⟩ := hms
    simp only [List.mem_append, List.mem_map, Frame.read, Meaning.var.injEq, reduceCtorEq, and_false, exists_false,
      or_false] at hm
    obtain ⟨record, hrecord, rfl, rfl, rfl⟩ := hm
    refine ⟨rfl, record, ?_, rfl, rfl⟩
    split at hrecord
    · exact hrecord
    · simp at hrecord
  · cases hm
  · cases hm
  · cases hm

/-- Only a plain name that is visible in the frame means a variable of the frame. -/
theorem visible_of_lookup {slot : Nat} {ty declared : Ty}
    (h : ctx.lookup frame globals name args allowPartial = .ok (.var (.localSlot slot) ty declared)) :
    args = [] ∧ frame.lookup? name = some (slot, declared) := by
  rcases lookup_cases h with ⟨slot', declared', ha, hl, hm⟩ | ⟨slot', declared', -, -, -, hm⟩ | ⟨-, hm⟩
  · cases hm
    exact ⟨ha, hl⟩
  · cases hm
  · obtain ⟨-, record, -, hst, -⟩ := globalMeaning_var hm
    cases hst

end Context

namespace Frame

/-- What a body that needs these names carries in from a frame: the variables among them. -/
def carried (f : Frame) (needs : List CaptureNeed) : List PendingCapture :=
  needs.filterMap fun need => (f.lookup? need.name).map fun v => ⟨need.name, need.kind, .localSlot v.1, v.2⟩

/-- Makes slots for several names, one after the other. -/
def declareAll (f : Frame) : List (String × Ty) → Frame
  | [] => f
  | v :: vs => (f.declare v.1 v.2).declareAll vs

/-- A variable takes one slot. -/
@[simp] theorem size_declare (f : Frame) (name : String) (ty : Ty) : (f.declare name ty).size = f.size + 1 := by
  simp [size, declare]

/-- Several take as many. -/
@[simp] theorem size_declareAll : ∀ (f : Frame) (vs : List (String × Ty)), (f.declareAll vs).size = f.size + vs.length
  | f, [] => rfl
  | f, v :: vs => by
    rw [declareAll, size_declareAll, size_declare, List.length_cons]
    omega

end Frame

/-- The captures of a body, with their slots from `slot` on. -/
def PendingCapture.numbered (slot : Nat) : List PendingCapture → List CaptureInfo
  | [] => []
  | c :: cs => ⟨c.name, c.kind, c.storage, c.ty, slot⟩ :: numbered (slot + 1) cs

/-- What the `return`s of a lambda are checked against, given what the lambda says it returns. -/
def ReturnMode.ofDeclared : Option Ty → ReturnMode
  | some ty => .fixed ty
  | none => .inferred none

/-- The state with one more finished body. -/
def State.push (s : State) (kind : TemplateKind) (frame : Frame) (body : Option Nat) : State :=
  { s with templates := s.templates ++ [⟨kind, frame.size, frame.seqElem, frame.isThisCall, body⟩] }

/-- The state in which a body with a frame of its own starts. -/
def State.enter (s : State) (frame : Frame) : State := { s with frame := frame, globalScope := false }

/-- The state `s` after a body that ended in `t`. -/
def State.resume (s t : State) : State := { t with frame := s.frame, globalScope := s.globalScope }

/-- The state `s` after a scope that ended in `t`. -/
def State.leave (s t : State) : State := { t with frame := t.frame.leaveBlock s.frame, globalScope := s.globalScope }

namespace State

/-- The place that the next variable gets. -/
def nextPlace (s : State) : Storage :=
  if s.globalScope then .privateGlobal s.globals.size else .localSlot s.frame.size

/-- The state with one more variable. -/
def declareVar (s : State) (name : String) (ty : Ty) : State :=
  if s.globalScope then { s with globals := s.globals.declare name ty } else { s with frame := s.frame.declare name ty }

/-- The state in which the function bodies start, after the script's own statements have ended in `s`. -/
def afterStmts (s : State) : State := { s.push .script s.frame none with frame := .script }

/-- The state in which a `return` has settled what a lambda gives. -/
def settleResult (s : State) (ty : Ty) : State := { s with frame := { s.frame with ret := .inferred (some ty) } }

/-- A declaration reports nothing. -/
@[simp] theorem declareVar_diagnostics (s : State) (name : String) (ty : Ty) :
    (s.declareVar name ty).diagnostics = s.diagnostics := by
  unfold declareVar
  split <;> rfl

end State

/-- The frame in which the body of a function starts. -/
def FuncRecord.frame (r : FuncRecord) : Frame :=
  if r.isSequence then .enter (.fixed .void) (some r.ret) (!r.isStatic) else .enter (.fixed r.ret) none (!r.isStatic)

namespace Check

variable {α : Type} {ctx : Context} {ids : List Nat} {s s' : State} {node : Node} {t : Ty}
variable {analyse : Option Ty → Check Ty} {a : Unit} {value : Check Ty}

/-! ### Scopes and frames -/

/-- A block is analysed outside the script's own scope. -/
theorem quiet_inBlock {x : Check α} {a : α} :
    Quiet (inBlock x) s a s' ↔ ∃ u, Quiet x { s with globalScope := false } a u ∧ s' = s.leave u := by
  constructor
  · rintro ⟨hr, hs⟩
    obtain ⟨u, hu, rfl⟩ := inBlock_eq_ok.1 hr
    exact ⟨u, ⟨hu, hs⟩, rfl⟩
  · rintro ⟨u, ⟨hu, hs⟩, rfl⟩
    exact ⟨inBlock_eq_ok.2 ⟨u, hu, rfl⟩, hs⟩

/-- A body is analysed in its own frame. -/
theorem quiet_inFrame {x : Check α} {frame : Frame} {r : α × Frame} :
    Quiet (inFrame frame x) s r s' ↔ ∃ u, Quiet x (s.enter frame) r.1 u ∧ r.2 = u.frame ∧ s' = s.resume u := by
  constructor
  · rintro ⟨hr, hs⟩
    obtain ⟨u, hu, hf, rfl⟩ := inFrame_eq_ok.1 hr
    exact ⟨u, ⟨hu, hs⟩, hf, rfl⟩
  · rintro ⟨u, ⟨hu, hs⟩, hf, rfl⟩
    exact ⟨inFrame_eq_ok.2 ⟨u, hu, hf, rfl⟩, hs⟩

/-! ### Lambdas and tasks -/

/-- A body carries in exactly the variables of the frame among the names it needs. -/
theorem Quiet.wireCaptures : ∀ {needs : List CaptureNeed} {s s' : State} {r : Option (List PendingCapture)},
    Quiet (wireCaptures ctx node needs) s r s' → s' = s ∧ r = some (s.frame.carried needs)
  | [], s, s', r, h => by
    obtain ⟨rfl, rfl, -⟩ := quiet_pure.1 h
    exact ⟨rfl, rfl⟩
  | need :: needs, s, s', r, h => by
    obtain ⟨hr, hs⟩ := h
    simp only [Check.wireCaptures] at hr
    obtain ⟨meaning, u, h₁, h₂⟩ := bind_eq_ok.1 hr
    have hm : u = s ∧ ctx.lookup s.frame s.globals need.name [] true = .ok meaning := by
      obtain ⟨_, _, h₃, h₄⟩ := bind_eq_ok.1 h₁
      cases h₃
      exact ⟨(lift_eq_ok.1 h₄).2, (lift_eq_ok.1 h₄).1⟩
    obtain ⟨rfl, hm⟩ := hm
    cases hl : u.frame.lookup? need.name with
    | some v =>
      obtain ⟨slot, declared⟩ := v
      rw [Context.lookup_of_visible hl] at hm
      cases hm
      obtain ⟨r', w, h₃, h₄⟩ := bind_eq_ok.1 h₂
      obtain ⟨rfl, rfl⟩ := pure_eq_ok.1 h₄
      obtain ⟨rfl, rfl⟩ := Quiet.wireCaptures ⟨h₃, hs⟩
      exact ⟨rfl, by simp [Frame.carried, hl]⟩
    | none =>
      have hskip : Quiet (Check.wireCaptures ctx node needs) u r s' → s' = u ∧ r = some (u.frame.carried (need :: needs)) := by
        intro hq
        obtain ⟨rfl, rfl⟩ := Quiet.wireCaptures hq
        exact ⟨rfl, by simp [Frame.carried, hl]⟩
      have wires : Keeps (ExprEffect []) (Check.wireCaptures ctx node needs) := wireCaptures_effect node needs
      have hfail : ∀ problem, ¬Quiet (do report problem node; let _ ← Check.wireCaptures ctx node needs; return none) u r s' :=
        fun problem => not_quiet_report_bind fun _ => wires.adds.bind fun _ => .pure _
      cases meaning with
      | var storage ty declared =>
        cases storage with
        | localSlot slot =>
          rw [(Context.visible_of_lookup hm).2] at hl
          cases hl
        | _ => exact hskip ⟨h₂, hs⟩
      | func f => exact hskip ⟨h₂, hs⟩
      | type ty => exact hskip ⟨h₂, hs⟩
      | notFound => exact (hfail _ ⟨h₂, hs⟩).elim
      | ambiguous count => exact (hfail _ ⟨h₂, hs⟩).elim

/-- Captures get their slots one after the other. -/
theorem declareCaptures_apply : ∀ (cs : List PendingCapture) (s : State),
    declareCaptures cs s = .ok (PendingCapture.numbered s.frame.size cs,
      { s with frame := s.frame.declareAll (cs.map fun c => (c.name, c.ty)) })
  | [], s => rfl
  | c :: cs, s => by
    have ih := declareCaptures_apply cs { s with frame := s.frame.declare c.name c.ty }
    refine bind_eq_ok.2 ⟨s.frame.size, _, declareLocal_apply _ _ _, bind_eq_ok.2 ⟨_, _, ih, ?_⟩⟩
    simp [PendingCapture.numbered, Frame.declareAll, Frame.size, Frame.declare]

/-- The expression that is a lambda's body: it gives nothing, or what the lambda says, or what the lambda is found to give. -/
theorem Quiet.exprBody {declared : Option Ty}
    (h : Quiet (exprBody ctx declared node analyse) s a s') :
    (declared = some .void ∧ ∃ found, Quiet (analyse none) s found s') ∨
      (∃ ret found, declared = some ret ∧ ret ≠ .void ∧ Quiet (analyse (some ret)) s found s' ∧ found ≠ .void ∧
        ctx.Admits ret found) ∨
      (declared = none ∧ ∃ found u, Quiet (analyse none) s found u ∧
        s' = u.settleResult found) := by
  obtain ⟨hr, hs⟩ := h
  cases declared with
  | none =>
    simp only [Check.exprBody, bind_eq_ok, modifyFrame_apply, ok_inj] at hr
    obtain ⟨found, u, h₁, -, rfl⟩ := hr
    exact .inr (.inr ⟨rfl, found, u, ⟨h₁, hs⟩, rfl⟩)
  | some ret =>
    have hcheck : ret ≠ .void → (do let found ← valued node (analyse (some ret))
                                    let _ ← Check.checkAssignable ctx ret found node) s = .ok (a, s') →
        ∃ found, Quiet (analyse (some ret)) s found s' ∧ found ≠ .void ∧ ctx.Admits ret found := by
      intro _ hr
      simp only [bind_eq_ok, pure_eq_ok] at hr
      obtain ⟨found, u, h₁, b, v, h₂, -, rfl⟩ := hr
      obtain ⟨rfl, -, ha⟩ := Quiet.checkAssignable ⟨h₂, hs⟩
      obtain ⟨hq, hv⟩ := quiet_valued.1 ⟨h₁, hs⟩
      exact ⟨found, hq, hv, ha⟩
    cases ret with
    | void =>
      simp only [Check.exprBody, bind_eq_ok, pure_eq_ok] at hr
      obtain ⟨found, u, h₁, -, rfl⟩ := hr
      exact .inl ⟨rfl, found, h₁, hs⟩
    | _ =>
      obtain ⟨found, hq, hv, ha⟩ := hcheck (by simp) hr
      exact .inr (.inl ⟨_, found, rfl, by simp, hq, hv, ha⟩)

/-- A body runs in a frame where its parameters come first, then its captures. -/
theorem Quiet.closure {params : List (Node × String)} {types : List Ty} {pending : List PendingCapture}
    {mode : ReturnMode} {body : Check Unit} {r : List CaptureInfo × Frame}
    (h : Quiet (closure params types pending mode body) s r s') :
    ∃ u w, declareParams params types (s.enter (.enter mode none false)) = .ok ((), u) ∧
      Quiet body { u with frame := u.frame.declareAll (pending.map fun c => (c.name, c.ty)) } () w ∧
      r = (PendingCapture.numbered u.frame.size pending, w.frame) ∧ s' = s.resume w := by
  obtain ⟨w, ⟨hr, hw⟩, hf, rfl⟩ := quiet_inFrame.1 h
  simp only [bind_eq_ok, declareCaptures_apply, pure_eq_ok, ok_inj] at hr
  obtain ⟨_, u, h₁, _, _, ⟨rfl, rfl⟩, _, _, h₂, hc, rfl⟩ := hr
  exact ⟨u, _, h₁, ⟨h₂, hw⟩, Prod.ext hc.symm hf, rfl⟩

/-- A lambda's parameters are found, then its result, then its body. -/
theorem Quiet.lambda {params : List LambdaParam} {ret : Option TypeExpr} {body : Body} {expected : Option Ty}
    {analyse : Option Ty → Check Unit} (hb : ∀ declared, Keeps (BodyEffect ids) (analyse declared))
    (h : Quiet (lambda ctx node params ret body expected analyse) s t s') :
    ∃ types u declared v captures frame w,
      Quiet (lambdaParams ctx (paramHints expected params.length) params) s types u ∧
      Quiet (ret.mapM (typeExpr ctx)) u declared v ∧
      Quiet (Check.closure (params.map fun p => (p.node, p.name)) types
        (v.frame.carried (ctx.capturer (params.map (·.name)) body)) (.ofDeclared declared) (analyse declared))
        v (captures, frame) w ∧
      t = .func (lambdaResult declared frame.ret) types ∧
      s' = (w.push (.lambda node.id) frame (some body.node.id)).setInfo node (.lambda ⟨captures, w.templates.length⟩) := by
  obtain ⟨hr, hs⟩ := h
  simp only [Check.lambda, bind_eq_ok] at hr
  obtain ⟨types, u, h₁, declared, v, h₂, r, x, h₃, h₄⟩ := hr
  have hwire : x.diagnostics = [] → x = v ∧ r = some (v.frame.carried (ctx.capturer (params.map (·.name)) body)) :=
    fun hx => Quiet.wireCaptures ⟨h₃, hx⟩
  cases r with
  | none =>
    obtain ⟨-, rfl⟩ := pure_eq_ok.1 h₄
    obtain ⟨-, hn⟩ := hwire hs
    cases hn
  | some pending =>
    simp only [bind_eq_ok, pushTemplate_apply, noteInfo_apply, pure_eq_ok, ok_inj] at h₄
    obtain ⟨⟨captures, frame⟩, w, h₄, _, _, ⟨rfl, rfl⟩, _, _, ⟨-, rfl⟩, rfl, rfl⟩ := h₄
    have hparams : ∀ p ∈ params.map (fun p => (p.node, p.name)),
        p.1.id ∈ LambdaParam.idsOfList params ++ ids := by
      simp only [List.mem_map]
      rintro _ ⟨p, hp, rfl⟩
      exact List.mem_append_left _ (LambdaParam.node_mem_idsOfList hp)
    have hbody : Keeps (BodyEffect (LambdaParam.idsOfList params ++ ids)) (analyse declared) :=
      (hb declared).weaken fun _ _ he => he.mono (List.subset_append_right _ _)
    have hx : x.diagnostics = [] := (closure_effect hparams hbody h₄).silent hs
    obtain ⟨rfl, hp⟩ := hwire hx
    cases hp
    have hu : u.diagnostics = [] := (declaredResult_effect ret h₂).silent hx
    refine ⟨types, u, declared, x, captures, frame, w, ⟨h₁, hu⟩, ⟨h₂, hx⟩, ⟨?_, hs⟩, rfl, rfl⟩
    cases declared <;> exact h₄

/-- A task is a body without parameters. -/
theorem Quiet.task {block : Block} {analyse : Check Unit} (hb : Keeps (BodyEffect ids) analyse)
    (h : Quiet (task ctx node block analyse) s a s') :
    ∃ captures frame w,
      Quiet (Check.closure [] [] (s.frame.carried (ctx.capturer [] (.block block))) (.fixed .void) analyse)
        s (captures, frame) w ∧
      s' = (w.push (.task node.id) frame (some block.node.id)).setInfo node (.task ⟨captures, w.templates.length⟩) := by
  obtain ⟨hr, hs⟩ := h
  obtain ⟨r, x, h₁, h₂⟩ := bind_eq_ok.1 hr
  have hwire : x.diagnostics = [] → x = s ∧ r = some (s.frame.carried (ctx.capturer [] (.block block))) :=
    fun hx => Quiet.wireCaptures ⟨h₁, hx⟩
  cases r with
  | none =>
    obtain ⟨-, rfl⟩ := pure_eq_ok.1 h₂
    obtain ⟨-, hn⟩ := hwire hs
    cases hn
  | some pending =>
    simp only [bind_eq_ok, pushTemplate_apply, noteInfo_apply, ok_inj] at h₂
    obtain ⟨⟨captures, frame⟩, w, h₂, _, _, ⟨rfl, rfl⟩, -, rfl⟩ := h₂
    obtain ⟨rfl, hp⟩ := hwire ((closure_effect (by simp) hb h₂).silent hs)
    cases hp
    exact ⟨captures, frame, w, ⟨h₂, hs⟩, rfl⟩

/-! ### Statements -/

/-- A condition is a truth value. -/
theorem Quiet.condition (h : Quiet (condition node value) s a s') :
    ∃ ty, Quiet value s ty s' ∧ (ty = .unresolved ∨ ty = Builtin.bool) := by
  obtain ⟨hr, hs⟩ := h
  obtain ⟨ty, u, h₁, h₂⟩ := bind_eq_ok.1 hr
  split at h₂
  · exact (not_quiet_report ⟨h₂, hs⟩).elim
  · rename_i hc
    obtain ⟨-, rfl⟩ := pure_eq_ok.1 h₂
    refine ⟨ty, ⟨h₁, hs⟩, ?_⟩
    rw [← Ty.isUnresolved_eq_true_iff]
    by_cases hb : ty = Builtin.bool
    · exact .inr hb
    · left
      simpa [hb] using hc

/-- The frame in which the branches of an `if` start. -/
def narrowedBy (nodes : NodeMap) (cond : Expr) (f : Frame) : Frame :=
  match narrowingOf nodes cond with
  | some (storage, ty) => f.narrow storage ty
  | none => f

/-- A run of an `if`: the condition, and then the branches in a scope that knows what the condition has shown. -/
theorem ifThen_run {cond : Expr} {branches : Check Unit}
    (h : ifThen cond value branches s = .ok (a, s')) :
    ∃ u v, Check.condition cond.node value s = .ok ((), u) ∧
      branches { u with frame := narrowedBy u.nodes cond u.frame } = .ok ((), v) ∧ s' = u.leave v := by
  simp only [Check.ifThen, bind_eq_ok, get_apply, ok_inj] at h
  obtain ⟨_, u, h₁, _, _, ⟨rfl, rfl⟩, h₂⟩ := h
  obtain ⟨v, h₃, rfl⟩ := inScope_eq_ok.1 h₂
  refine ⟨u, v, h₁, ?_, rfl⟩
  unfold narrowedBy
  cases hn : narrowingOf u.nodes cond with
  | none =>
    simp only [hn] at h₃
    exact h₃
  | some p =>
    simp only [hn, bind_eq_ok, modifyFrame_apply, ok_inj] at h₃
    obtain ⟨_, _, ⟨-, rfl⟩, h₃⟩ := h₃
    exact h₃

/-- The branches see what the condition narrows. -/
theorem Quiet.ifThen {cond : Expr} {branches : Check Unit}
    (hb : Keeps (StmtEffect ids) branches) (h : Quiet (ifThen cond value branches) s a s') :
    ∃ u v, Quiet (Check.condition cond.node value) s () u ∧
      Quiet branches { u with frame := narrowedBy u.nodes cond u.frame } () v ∧ s' = u.leave v := by
  obtain ⟨hr, hs⟩ := h
  obtain ⟨u, v, hcond, hrun, rfl⟩ := ifThen_run hr
  exact ⟨u, v, ⟨hcond, (hb hrun).silent hs⟩, ⟨hrun, hs⟩, rfl⟩

/-- The body of a loop is one loop deeper. -/
theorem Quiet.whileDo {cond : Node} {body : Check Unit}
    (hb : Keeps (StmtEffect ids) body) (h : Quiet (whileDo cond value body) s a s') :
    ∃ u v, Quiet (Check.condition cond value) s () u ∧
      Quiet (inBlock body) { u with frame := { u.frame with loopDepth := u.frame.loopDepth + 1 } } () v ∧
      s' = { v with frame := { v.frame with loopDepth := v.frame.loopDepth - 1 } } := by
  obtain ⟨hr, hs⟩ := h
  simp only [Check.whileDo, bind_eq_ok, modifyFrame_apply, ok_inj] at hr
  obtain ⟨_, u, h₁, _, _, ⟨-, rfl⟩, _, v, h₂, -, rfl⟩ := hr
  exact ⟨u, v, ⟨h₁, (inBlock_effect hb h₂).silent hs⟩, ⟨h₂, hs⟩, rfl⟩

/-- The type of a variable is written, or that of its first value. -/
theorem Quiet.declaredType {ty : TypeExpr} {name : String} {init : Option Initial}
    (hi : ∀ i ∈ init, ∀ hint, Keeps Adds (i.analyse hint)) (h : Quiet (declaredType ctx node ty name init) s t s') :
    (∃ tyNode i u, ty = .var tyNode ∧ init = some i ∧ Quiet (i.analyse none) s t u ∧ s' = u.setInfo tyNode (.type t)) ∨
      ((∀ n, ty ≠ .var n) ∧ ∃ u, Quiet (typeExpr ctx ty) s t u ∧ match init with
        | some i => ∃ found, Quiet (i.analyse (some t)) u found s' ∧ ctx.Admits t found
        | none => s' = u) := by
  cases ty with
  | var tyNode =>
    cases init with
    | none =>
      obtain ⟨u, hu, rfl⟩ := quiet_resolved.1 h
      exact (not_quiet_reject hu).elim
    | some i =>
      obtain ⟨u, hu, rfl⟩ := quiet_resolved.1 h
      exact .inl ⟨tyNode, i, u, rfl, rfl, hu, rfl⟩
  | _ =>
    refine .inr ⟨by simp, ?_⟩
    cases init with
    | none => exact ⟨s', h, rfl⟩
    | some i =>
      obtain ⟨hr, hs⟩ := h
      simp only [Check.declaredType, bind_eq_ok, pure_eq_ok] at hr
      obtain ⟨_, u, h₁, found, v, h₂, b, w, h₃, rfl, rfl⟩ := hr
      obtain ⟨rfl, -, ha⟩ := Quiet.checkAssignable ⟨h₃, hs⟩
      exact ⟨u, ⟨h₁, (hi i rfl _ h₂).silent hs⟩, found, ⟨h₂, hs⟩, ha⟩

/-- What a declaration does to the state. -/
theorem declareVar_apply (name : String) (ty : Ty) (s : State) :
    declareVar name ty s = .ok (s.nextPlace, s.declareVar name ty) := by
  unfold State.nextPlace State.declareVar
  refine bind_eq_ok.2 ⟨s, s, rfl, ?_⟩
  by_cases hg : s.globalScope = true
  · rw [if_pos hg, if_pos hg, if_pos hg]
    rfl
  · rw [if_neg hg, if_neg hg, if_neg hg]
    rfl

/-- A variable is declared after its first value. -/
theorem Quiet.varDecl {ty : TypeExpr} {name : String} {init : Option Initial}
    (h : Quiet (varDecl ctx node ty name init) s a s') :
    ∃ t u, Quiet (Check.declaredType ctx node ty name init) s t u ∧
      s' = (u.declareVar name t).setInfo node (.varDecl u.nextPlace) := by
  obtain ⟨hr, hs⟩ := h
  simp only [Check.varDecl, bind_eq_ok, declareVar_apply, noteInfo_apply, ok_inj] at hr
  obtain ⟨t, u, h₁, _, _, ⟨rfl, rfl⟩, -, rfl⟩ := hr
  exact ⟨t, u, ⟨h₁, by simpa using hs⟩, rfl⟩

/-- A return without a value. -/
theorem Quiet.returnNothing (h : Quiet (returnNothing ctx node) s a s') :
    ((∃ elem, s.frame.seqElem = some elem) ∧ s' = s) ∨
      (s.frame.seqElem = none ∧ s.frame.ret = .fixed .void ∧ s' = s) ∨
      (s.frame.seqElem = none ∧ s.frame.ret = .inferred none ∧ s' = s.settleResult .void) ∨
      ∃ expected, s.frame.seqElem = none ∧ s.frame.ret = .inferred (some expected) ∧
        ctx.Admits expected .void ∧ s' = s := by
  obtain ⟨hr, hs⟩ := h
  simp only [Check.returnNothing, bind_eq_ok, get_apply, ok_inj] at hr
  obtain ⟨_, _, ⟨rfl, rfl⟩, hr⟩ := hr
  cases hq : s.frame.seqElem with
  | some elem =>
    simp only [hq, pure_eq_ok] at hr
    exact .inl ⟨⟨elem, rfl⟩, hr.2.symm⟩
  | none =>
    cases hm : s.frame.ret with
    | fixed expected =>
      simp only [hq, hm] at hr
      split at hr
      · exact (not_quiet_report ⟨hr, hs⟩).elim
      · rename_i hv
        obtain ⟨-, rfl⟩ := pure_eq_ok.1 hr
        have hvoid : expected = .void := (Ty.isVoid_eq_true_iff _).1 (by simpa using hv)
        exact .inr (.inl ⟨rfl, by rw [hvoid], rfl⟩)
    | inferred known =>
      cases known with
      | none =>
        simp only [hq, hm] at hr
        cases hr
        exact .inr (.inr (.inl ⟨rfl, rfl, rfl⟩))
      | some expected =>
        simp only [hq, hm, bind_eq_ok, pure_eq_ok] at hr
        obtain ⟨b, _, h₁, -, rfl⟩ := hr
        obtain ⟨rfl, -, ha⟩ := Quiet.checkAssignable ⟨h₁, hs⟩
        exact .inr (.inr (.inr ⟨expected, rfl, rfl, ha, rfl⟩))

/-- A return with a value. -/
theorem Quiet.returnValue (h : Quiet (returnValue ctx node analyse) s a s') :
    s.frame.seqElem = none ∧
      ((s.frame.ret = .fixed .void ∧ ∃ found, Quiet (analyse none) s found s' ∧ (found = .void ∨ found = .unresolved)) ∨
        (∃ expected found, s.frame.ret = .fixed expected ∧ expected ≠ .void ∧ Quiet (analyse (some expected)) s found s' ∧
          found ≠ .void ∧ ctx.Admits expected found) ∨
        (s.frame.ret = .inferred none ∧ ∃ found u, Quiet (analyse none) s found u ∧ s' = u.settleResult found) ∨
        ∃ expected found, s.frame.ret = .inferred (some expected) ∧ Quiet (analyse (some expected)) s found s' ∧
          ctx.Admits expected found) := by
  obtain ⟨hr, hs⟩ := h
  simp only [Check.returnValue] at hr
  rw [bind_eq_ok] at hr
  obtain ⟨_, _, ⟨⟩, hr⟩ := hr
  cases hq : s.frame.seqElem with
  | some elem =>
    simp only [hq] at hr
    obtain ⟨_, u, -, h₂⟩ := bind_eq_ok.1 hr
    exact (not_quiet_report ⟨h₂, hs⟩).elim
  | none =>
    refine ⟨rfl, ?_⟩
    cases hm : s.frame.ret with
    | fixed expected =>
      simp only [hq, hm] at hr
      split at hr
      · rename_i hv
        obtain ⟨found, u, h₁, h₂⟩ := bind_eq_ok.1 hr
        split at h₂
        · exact (not_quiet_report ⟨h₂, hs⟩).elim
        · rename_i hf
          obtain ⟨-, rfl⟩ := pure_eq_ok.1 h₂
          rw [(Ty.isVoid_eq_true_iff _).1 hv]
          refine .inl ⟨rfl, found, ⟨h₁, hs⟩, ?_⟩
          rw [← Ty.isVoid_eq_true_iff, ← Ty.isUnresolved_eq_true_iff]
          cases hvoid : found.isVoid with
          | true => exact .inl rfl
          | false => exact .inr (by simpa [hvoid] using hf)
      · rename_i hv
        simp only [bind_eq_ok, pure_eq_ok] at hr
        obtain ⟨found, u, h₁, b, w, h₂, -, rfl⟩ := hr
        obtain ⟨rfl, -, ha⟩ := Quiet.checkAssignable ⟨h₂, hs⟩
        obtain ⟨hx, hne⟩ := quiet_valued.1 ⟨h₁, hs⟩
        exact .inr (.inl ⟨expected, found, rfl, fun he => hv ((Ty.isVoid_eq_true_iff _).2 he), hx, hne, ha⟩)
    | inferred known =>
      cases known with
      | none =>
        simp only [hq, hm, bind_eq_ok, modifyFrame_apply, ok_inj] at hr
        obtain ⟨found, u, h₁, -, rfl⟩ := hr
        exact .inr (.inr (.inl ⟨rfl, found, u, ⟨h₁, hs⟩, rfl⟩))
      | some expected =>
        simp only [hq, hm, bind_eq_ok, pure_eq_ok] at hr
        obtain ⟨found, u, h₁, b, w, h₂, -, rfl⟩ := hr
        obtain ⟨rfl, -, ha⟩ := Quiet.checkAssignable ⟨h₂, hs⟩
        exact .inr (.inr (.inr ⟨expected, found, rfl, ⟨h₁, hs⟩, ha⟩))

/-- A yielded value fits the elements. -/
theorem Quiet.yields {valueNode : Node}
    (h : Quiet (yields ctx node valueNode analyse) s a s') :
    ∃ elem found, s.frame.seqElem = some elem ∧ Quiet (analyse (some elem)) s found s' ∧ found ≠ .void ∧
      ctx.Admits elem found := by
  obtain ⟨hr, hs⟩ := h
  simp only [Check.yields] at hr
  rw [bind_eq_ok] at hr
  obtain ⟨_, _, ⟨⟩, hr⟩ := hr
  cases hq : s.frame.seqElem with
  | none =>
    simp only [hq] at hr
    obtain ⟨_, u, -, h₂⟩ := bind_eq_ok.1 hr
    exact (not_quiet_report ⟨h₂, hs⟩).elim
  | some elem =>
    simp only [hq, bind_eq_ok, pure_eq_ok] at hr
    obtain ⟨found, u, h₁, b, w, h₂, -, rfl⟩ := hr
    obtain ⟨rfl, -, ha⟩ := Quiet.checkAssignable ⟨h₂, hs⟩
    obtain ⟨hx, hne⟩ := quiet_valued.1 ⟨h₁, hs⟩
    exact ⟨elem, found, rfl, hx, hne, ha⟩

/-- A jump in a loop changes nothing. -/
theorem Quiet.inLoop {problem : Problem} (h : Quiet (inLoop problem node) s a s') : s' = s := by
  obtain ⟨hr, hs⟩ := h
  obtain ⟨_, _, ⟨⟩, hr⟩ := bind_eq_ok.1 hr
  split at hr
  · exact (not_quiet_report ⟨hr, hs⟩).elim
  · exact (pure_eq_ok.1 hr).2.symm

/-- The body of a function is run in a frame made from the function's record, and its template is added. -/
theorem funcBody_run {outer : ItemId} {decl : FuncDecl} (h : funcBody ctx outer decl s = .ok (a, s')) :
    ∃ record u w, ctx.registry.func? (decl.idUnder outer) = some record ∧
      declareParams (decl.params.map fun p => (p.node, p.name)) (record.params.map (·.ty)) (s.enter record.frame) =
        .ok ((), u) ∧
      block (ctx.within ⟨decl.idUnder outer, record.typeParams, false⟩) decl.body u = .ok ((), w) ∧
      s' = (s.resume w).push (.func (decl.idUnder outer)) w.frame (some decl.body.node.id) := by
  simp only [Check.funcBody, bind_eq_ok, lift_eq_ok, pushTemplate_apply, pure_eq_ok, ok_inj] at h
  obtain ⟨record, _, ⟨hf, rfl⟩, ⟨_, frame⟩, v, h₁, _, _, ⟨-, rfl⟩, -, rfl⟩ := h
  obtain ⟨w, hw, hframe, rfl⟩ := inFrame_eq_ok.1 h₁
  obtain ⟨_, u, h₂, h₃⟩ := bind_eq_ok.1 hw
  cases hframe
  exact ⟨record, u, w, Registry.funcRecord_eq_ok.1 hf, h₂, h₃, rfl⟩

/-- A function's parameters are declared in a new frame, and its body is analysed there. -/
theorem Quiet.funcBody {outer : ItemId} {decl : FuncDecl} (h : Quiet (funcBody ctx outer decl) s a s') :
    ∃ record u w, ctx.registry.func? (decl.idUnder outer) = some record ∧
      declareParams (decl.params.map fun p => (p.node, p.name)) (record.params.map (·.ty)) (s.enter record.frame) =
        .ok ((), u) ∧
      Quiet (block (ctx.within ⟨decl.idUnder outer, record.typeParams, false⟩) decl.body) u () w ∧
      s' = (s.resume w).push (.func (decl.idUnder outer)) w.frame (some decl.body.node.id) := by
  obtain ⟨record, u, w, hrecord, hp, hb, rfl⟩ := funcBody_run h.run
  exact ⟨record, u, w, hrecord, hp, ⟨hb, h.silent⟩, rfl⟩

/-! ### One after the other -/

/-- Expressions, the first of them first. -/
theorem Quiet.exprs_cons {e : Expr} {es : List Expr} {hints : List (Option Ty)} {ts : List Ty}
    (h : Quiet (exprs ctx (e :: es) hints) s ts s') :
    ∃ t us u, Quiet (valued e.node (expr ctx e (hints.headD none))) s t u ∧ Quiet (exprs ctx es hints.tail) u us s' ∧
      ts = t :: us := by
  obtain ⟨hr, hs⟩ := h
  simp only [exprs, bind_eq_ok, pure_eq_ok] at hr
  obtain ⟨t, u, h₁, us, v, h₂, rfl, rfl⟩ := hr
  exact ⟨t, us, u, ⟨h₁, (exprs_effect ctx es _ h₂).silent hs⟩, ⟨h₂, hs⟩, rfl⟩

/-- Statements, the first of them first. -/
theorem Quiet.stmts_cons {st : Stmt} {ss : List Stmt} (h : Quiet (stmts ctx (st :: ss)) s a s') :
    ∃ u, Quiet (stmt ctx st) s () u ∧ Quiet (stmts ctx ss) u () s' := by
  obtain ⟨hr, hs⟩ := h
  simp only [stmts, bind_eq_ok] at hr
  obtain ⟨_, u, h₁, h₂⟩ := hr
  exact ⟨u, ⟨h₁, (stmts_effect ctx ss h₂).silent hs⟩, ⟨h₂, hs⟩⟩

/-! ### The whole script -/

/-- No type is derived from itself. -/
theorem Quiet.rejectCycles {m : Module} {b : Bool} (h : Quiet (rejectCycles ctx m) s b s') : s' = s := by
  obtain ⟨hr, hs⟩ := h
  obtain ⟨a, u, h₁, h₂⟩ := bind_eq_ok.1 hr
  obtain ⟨-, rfl⟩ := pure_eq_ok.1 h₂
  generalize ctx.skeleton.inOrder m.cyclicTypes = entries at h₁
  cases entries with
  | nil => exact (pure_eq_ok.1 h₁).2.symm
  | cons e rest =>
    have hrest : Keeps (ExprEffect []) (rest.forM fun e => report (.cyclicBaseType e.1) e.2) := reportCycles_gathers rest
    exact (not_quiet_report_bind (fun _ => hrest.adds) ⟨h₁, hs⟩).elim

/-- Statements come before functions. -/
theorem Quiet.bodies {script : Script} (h : Quiet (bodies ctx script) s a s') :
    ∃ u, Quiet (scriptStmts ctx script) s () u ∧ Quiet (scriptBodies ctx script) u.afterStmts () s' := by
  obtain ⟨hr, hs⟩ := h
  simp only [Check.bodies, bind_eq_ok, get_apply, pushTemplate_apply, modifyFrame_apply, ok_inj] at hr
  obtain ⟨_, u, h₁, _, _, ⟨rfl, rfl⟩, _, _, ⟨-, rfl⟩, _, _, ⟨-, rfl⟩, h₂⟩ := hr
  exact ⟨u, ⟨h₁, (scriptBodies_effect ctx script h₂).silent hs⟩, ⟨h₂, hs⟩⟩

/-- Declarations come before bodies. -/
theorem Quiet.script {script : Script} {m : Module} (h : Quiet (Check.script ctx script) s (some m) s') :
    ∃ u, Quiet (declareElements ctx script (.empty ctx.moduleName)) s m u ∧
      Quiet (Check.bodies { ctx with registry := m :: ctx.registry } script) u () s' := by
  obtain ⟨hr, hs⟩ := h
  simp only [Check.script, bind_eq_ok] at hr
  obtain ⟨m', u, h₁, b, v, h₂, h₃⟩ := hr
  cases b with
  | false =>
    obtain ⟨hm, -⟩ := pure_eq_ok.1 h₃
    cases hm
  | true =>
    simp only [if_true, bind_eq_ok, pure_eq_ok, Option.some.injEq] at h₃
    obtain ⟨_, w, h₃, rfl, rfl⟩ := h₃
    obtain ⟨x, hx, hy⟩ := Quiet.bodies ⟨h₃, hs⟩
    have hv : v.diagnostics = [] := (scriptStmts_effect _ _ hx.run).silent hx.silent
    obtain rfl := Quiet.rejectCycles ⟨h₂, hv⟩
    exact ⟨_, ⟨h₁, hv⟩, ⟨h₃, hs⟩⟩

end Check

/-- The context in which the declarations of a script are analysed. -/
def Setup.contextFor (setup : Setup) (script : Script) : Context :=
  { setup.context with skeleton := (script.collect (.root setup.moduleName)).skeleton }

/-- The declarations of the script are in order, and its bodies have been analysed against the module `m` that the
declarations make; the analysis of the bodies ended in `s`. -/
structure Analysed (setup : Setup) (script : Script) (m : Module) (s : State) : Prop where
  collected : (script.collect (.root setup.moduleName)).diagnostics = []
  run : Check.script (setup.contextFor script) script .initial = .ok (some m, s)

/-- Once the bodies are analysed without a problem, only the check at the end stands before the output. -/
theorem analyze_of_analysed {setup : Setup} {script : Script} {m : Module} {s : State}
    (h : Analysed setup script m s) (hs : s.diagnostics = []) :
    analyze setup script = s.checkResolved.map fun _ => .ok (s.output m) := by
  have hrun : (Check.script { setup.context with skeleton := (script.collect (.root setup.moduleName)).skeleton }
      script).run .initial = .ok (some m, s) := h.run
  simp only [analyze, h.collected, List.isEmpty_nil, Bool.not_true, Bool.false_eq_true, if_false, hrun, hs,
    bind, Except.bind]
  cases s.checkResolved <;> rfl

/-- An analysis has an output only when its bodies were analysed without a problem and the check at the end passed. -/
theorem analyze_eq_ok {setup : Setup} {script : Script} {out : Output} (h : analyze setup script = .ok (.ok out)) :
    ∃ m s, Analysed setup script m s ∧ s.diagnostics = [] ∧ s.checkResolved = .ok () ∧ out = s.output m := by
  unfold analyze at h
  dsimp only at h
  split at h
  · cases h
  · rename_i hc
    obtain ⟨⟨made, s⟩, hrun, h⟩ := Except.bind_eq_ok.1 h
    cases made with
    | none => cases h
    | some m =>
      dsimp only at h
      split at h
      · cases h
      · rename_i hd
        obtain ⟨u, hres, h⟩ := Except.bind_eq_ok.1 h
        cases h
        refine ⟨m, s, ⟨by simpa using hc, hrun⟩, by simpa using hd, hres, rfl⟩

end ScriptCheck
