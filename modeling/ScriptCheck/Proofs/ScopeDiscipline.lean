import ScriptCheck.Proofs.Scoping

/-!
# The discipline of scopes

Scopes are put back on the way out of every part of a body, also where problems were reported inside. An expression leaves
all tables of names and slots as they were. A statement may make slots in its frame and settle an open result type, and only
a declaration binds a name, its own. What an identifier refers to is therefore the same before and after any other
statement, up to the type it is read with there.

The declarations around a place, the ids of the script and the modules are no part of the state: they stand in the `Context`,
which a step reads and cannot change.
-/

namespace ScriptCheck

/-! ### What is kept and what is bound -/

/-- Everything that scopes consist of is as it was. -/
structure SameScope (s s' : State) : Prop where
  frame : s.frame.Widens s'.frame
  globalScope : s'.globalScope = s.globalScope
  globals : s'.globals = s.globals

/-- What is visible is bound as it was. -/
structure SameNames (s s' : State) : Prop where
  names : s'.frame.names = s.frame.names
  globals : s'.globals = s.globals

/-- The name that a statement declares is bound to the next slot, of the script where the statement stands directly in the
script's body and of the frame elsewhere; nothing else is bound. -/
inductive Binds (s s' : State) : Option String → Prop where
  | nothing (same : SameNames s s') : Binds s s' none
  | global {name : String} {ty : Ty} (scope : s.globalScope = true) (globals : s'.globals = s.globals.declare name ty)
      (locals : s'.frame.locals = s.frame.locals) (names : s'.frame.names = s.frame.names) : Binds s s' (some name)
  | slot {name : String} {ty : Ty} (scope : s.globalScope = false) (globals : s'.globals = s.globals)
      (locals : s'.frame.locals = s.frame.locals ++ [⟨name, ty⟩])
      (names : s'.frame.names = s.frame.names.insert name s.frame.size) : Binds s s' (some name)

/-- What a statement may do to scopes. -/
structure StmtScope (st : Stmt) (s s' : State) : Prop where
  locals : s.frame.locals <+: s'.frame.locals
  ret : s.frame.ret.Leads s'.frame.ret
  seqElem : s'.frame.seqElem = s.frame.seqElem
  loopDepth : s'.frame.loopDepth = s.frame.loopDepth
  isThisCall : s'.frame.isThisCall = s.frame.isThisCall
  globalScope : s'.globalScope = s.globalScope
  binds : Binds s s' st.declared?

namespace SameNames

variable {s t u : State}

theorem trans (a : SameNames s t) (b : SameNames t u) : SameNames s u :=
  ⟨b.names.trans a.names, b.globals.trans a.globals⟩

instance : Std.Refl SameNames := ⟨fun _ => ⟨rfl, rfl⟩⟩

instance : IsTrans State SameNames := ⟨fun _ _ _ => trans⟩

end SameNames

theorem ExprEffect.sameNames {ids : List Nat} {s s' : State} (h : ExprEffect ids s s') : SameNames s s' :=
  ⟨h.frame.names, h.globals⟩

theorem StmtEffect.scope {ids : List Nat} {st : Stmt} {s s' : State} (h : StmtEffect ids s s')
    (hb : Binds s s' st.declared?) : StmtScope st s s' :=
  ⟨h.locals, h.ret, h.seqElem, h.loopDepth, h.isThisCall, h.globalScope, hb⟩

/-! ### Frames whose names refer to slots -/

namespace Frame.Bounded

variable {f g : Frame}

/-- A name finds the slot it found before: new slots come after those that names refer to. -/
theorem lookup_eq (h : f.Bounded) (hl : f.locals <+: g.locals) (hn : g.names = f.names) (x : String) :
    g.lookup x = f.lookup x := by
  unfold Frame.lookup
  rw [hn]
  cases hx : f.names.find? x with
  | none => rfl
  | some slot =>
    obtain ⟨new, hnew⟩ := hl
    have hlt : slot < f.locals.length := h x slot hx
    simp [← hnew, List.getElem?_append_left hlt]

end Frame.Bounded

/-- Statements keep the names of a frame referring to its slots. -/
theorem StmtScope.bounded {st : Stmt} {s s' : State} (h : StmtScope st s s') (hb : s.frame.Bounded) : s'.frame.Bounded := by
  have hbinds := h.binds
  generalize st.declared? = declared at hbinds
  cases hbinds with
  | nothing same => exact hb.grow h.locals.length_le same.names
  | global scope globals locals names => exact hb.grow h.locals.length_le names
  | @slot name ty scope globals locals names =>
    have hd := hb.declare name ty
    intro x k hx
    rw [names] at hx
    have hlt := hd x k hx
    rwa [Frame.size, locals]

/-! ### What an identifier refers to -/

/-- What an identifier refers to, whatever narrower type it is read with: a variable is its place and its declared type. -/
def Meaning.declared : Meaning → Meaning
  | .var storage _ declared => .var storage declared declared
  | m => m

namespace Context

variable {ctx : Context} {f g : Frame} {globals : PrivateGlobals} {name : String} {args : List Ty}

@[simp] theorem declared_read (storage : Storage) (ty : Ty) :
    (f.read storage ty).declared = .var storage ty ty := rfl

/-- The frame only decides with which types the variables of the modules are read. -/
theorem globalMeanings_declared (ctx : Context) (f g : Frame) (key : Name) (args : List Ty) :
    (ctx.globalMeanings f key args).map (List.map Meaning.declared) =
      (ctx.globalMeanings g key args).map (List.map Meaning.declared) := by
  simp only [globalMeanings, bind, Except.bind, pure, Except.pure]
  cases ((ctx.registry.globalFuncs key).filter fun r => r.typeParams.length = args.length).mapM
      fun r => FuncRef.make r.id [args] with
  | error fault => rfl
  | ok funcs =>
    cases (ctx.globalTypeIds key args.length).mapM fun id => Ty.make id [args] with
    | error fault => rfl
    | ok types => simp [Except.map, List.map_append, Function.comp_def]

theorem globalMeaning_declared (key : Name) (allowPartial : Bool) :
    (ctx.globalMeaning f key args allowPartial).map Meaning.declared =
      (ctx.globalMeaning g key args allowPartial).map Meaning.declared := by
  have h := ctx.globalMeanings_declared f g key args
  simp only [globalMeaning, bind, Except.bind, pure, Except.pure]
  generalize ctx.globalMeanings f key args = found at h
  generalize ctx.globalMeanings g key args = found' at h
  match found, found', h with
  | .error _, .error _, rfl => rfl
  | .ok ms, .ok ms', h =>
    simp only [Except.map, Except.ok.injEq] at h
    have hlen := congrArg List.length h
    simp only [List.length_map] at hlen
    -- The lists are as long as each other: both are empty, both have one element, or both have several.
    rcases ms with _ | ⟨m, _ | ⟨n, ms⟩⟩ <;> rcases ms' with _ | ⟨m', _ | ⟨n', ms'⟩⟩ <;>
      simp only [List.length_cons, List.length_nil] at hlen <;> try omega
    · rfl
    · simpa [Except.map] using h
    · simp only [Except.map, List.length_cons, hlen]

/-- A look-up gives the same place and declared type in frames that have the same slots for the same names. -/
theorem lookup_declared (hlookup : g.lookup name = f.lookup name) (allowPartial : Bool) :
    (ctx.lookup g globals name args allowPartial).map Meaning.declared =
      (ctx.lookup f globals name args allowPartial).map Meaning.declared := by
  have hglobal : (ctx.globalMeaning g (.text name) args allowPartial).map Meaning.declared =
      (ctx.globalMeaning f (.text name) args allowPartial).map Meaning.declared := globalMeaning_declared _ _
  unfold lookup
  cases args with
  | cons t ts => exact hglobal
  | nil =>
    simp only [List.isEmpty_nil, if_true, hlookup]
    cases f.lookup name with
    | error fault => rfl
    | ok found =>
      cases found with
      | some v => rfl
      | none =>
        cases globals.lookup name with
        | error fault => rfl
        | ok found =>
          cases found with
          | some v => rfl
          | none => exact hglobal

end Context

namespace Check

variable {α : Type} {ids : List Nat} {ctx : Context} {s s' : State}

/-! ### Statements that declare nothing -/

theorem inScope_sameNames {x : Check α} (hx : Keeps (fun s s' => s'.globals = s.globals) x) : Keeps SameNames (inScope x) := by
  intro s a s' h
  obtain ⟨t, hr, rfl⟩ := inScope_eq_ok.1 h
  have hg : t.globals = s.globals := hx hr
  exact ⟨rfl, hg⟩

/-- A block puts the names back, and what it declares is none of the script's own variables. -/
theorem inBlock_sameNames {x : Check α} (hx : Keeps (StmtEffect ids) x) : Keeps SameNames (inBlock x) := by
  intro s a s' h
  obtain ⟨t, hr, rfl⟩ := inBlock_eq_ok.1 h
  exact ⟨rfl, (hx hr).globals rfl⟩

theorem block_sameNames (b : Block) : Keeps SameNames (block ctx b) := by
  obtain ⟨node, ss⟩ := b
  rw [block]
  exact inBlock_sameNames (stmts_effect ctx ss)

theorem otherwise_sameNames (st : Option Stmt) : Keeps SameNames (otherwise ctx st) := by
  cases st with
  | none =>
    rw [otherwise]
    exact .pure _
  | some st =>
    rw [otherwise]
    exact inBlock_sameNames (stmt_effect ctx st)

theorem condition_sameNames (cond : Expr) : Keeps SameNames (condition cond.node (valued cond.node (expr ctx cond none))) :=
  (condition_gathers (valued_gathers (expr_effect ctx cond none))).weaken fun _ _ h => h.sameNames

theorem ifThen_sameNames (cond : Expr) (thenBody : Stmt) (elseBody : Option Stmt) :
    Keeps SameNames (ifThen cond (valued cond.node (expr ctx cond none)) do
      inBlock (stmt ctx thenBody)
      otherwise ctx elseBody) := by
  refine (condition_sameNames cond).bind fun _ => Keeps.get.bind fun s => inScope_sameNames ?_
  have hbranches : Keeps SameNames (do inBlock (stmt ctx thenBody); otherwise ctx elseBody) :=
    (inBlock_sameNames (stmt_effect ctx thenBody)).bind fun _ => otherwise_sameNames elseBody
  split
  · intro s a s' h
    rw [bind_eq_ok] at h
    obtain ⟨_, t, ht, h⟩ := h
    cases ht
    exact (hbranches h).globals
  · exact hbranches.weaken fun _ _ h => h.globals

theorem whileDo_sameNames (cond : Expr) (body : Stmt) :
    Keeps SameNames (whileDo cond.node (valued cond.node (expr ctx cond none)) (stmt ctx body)) := by
  refine (condition_sameNames cond).bind fun _ => ?_
  intro s a s' h
  simp only [bind_eq_ok, modifyFrame_apply, ok_inj] at h
  obtain ⟨_, _, ⟨-, rfl⟩, _, t, h, -, rfl⟩ := h
  have hb := inBlock_sameNames (stmt_effect ctx body) h
  exact ⟨hb.names, hb.globals⟩

theorem returnNothing_sameNames (node : Node) : Keeps SameNames (returnNothing ctx node) := by
  refine Keeps.get.bind fun s => ?_
  dsimp only
  split
  · exact .pure _
  · split
    · exact Keeps.weaken (R := ExprEffect []) (report_effect _ _) fun _ _ h => h.sameNames
    · exact .pure _
  · intro s a s' h
    cases h
    exact ⟨rfl, rfl⟩
  · exact Keeps.weaken (R := ExprEffect []) ((checkAssignable_gathers _ _ _).last fun _ => .pure _) fun _ _ h => h.sameNames

theorem returnValue_sameNames {analyse : Option Ty → Check Ty} (node : Node)
    (ha : ∀ hint, Keeps (ExprEffect ids) (analyse hint)) : Keeps SameNames (returnValue ctx node analyse) := by
  refine Keeps.get.bind fun s => ?_
  dsimp only
  split
  · exact ((valued_gathers (ha _)).bind fun _ => report_effect _ _).weaken fun _ _ h => h.sameNames
  · split
    · refine Keeps.weaken ((ha _).bind fun found => ?_) fun _ _ h => h.sameNames
      split
      · exact report_effect _ _
      · exact .pure _
    · exact (compared_gathers (valued_gathers (ha _))).weaken
        fun _ _ h => h.sameNames
  · refine ((ha _).weaken fun _ _ h => h.sameNames).bind fun found => ?_
    intro s a s' h
    cases h
    exact ⟨rfl, rfl⟩
  · exact (compared_gathers (ha _)).weaken fun _ _ h => h.sameNames

/-! ### Declarations -/

theorem declareVar_binds {name : String} {ty : Ty} {storage : Storage}
    (h : declareVar name ty s = .ok (storage, s')) : Binds s s' (some name) := by
  rw [declareVar_apply] at h
  cases hg : s.globalScope with
  | true =>
    simp only [hg, State.declareVar, if_true] at h
    cases h
    exact .global hg rfl rfl rfl
  | false =>
    simp only [hg, State.declareVar, Bool.false_eq_true, if_false] at h
    cases h
    exact .slot hg rfl rfl rfl

theorem varDecl_binds {node : Node} {ty : TypeExpr} {name : String} {init : Option Initial}
    (hd : Keeps (ExprEffect ids) (declaredType ctx node ty name init)) (h : varDecl ctx node ty name init s = .ok ((), s')) :
    Binds s s' (some name) := by
  simp only [varDecl, bind_eq_ok] at h
  obtain ⟨found, t, h₁, storage, u, h₂, h₃⟩ := h
  have he := hd h₁
  have hb := declareVar_binds h₂
  cases h₃
  -- What the initial value left alone is what the binding starts from.
  cases hb with
  | global scope globals locals names =>
    exact .global (he.globalScope ▸ scope) (he.globals ▸ globals) (locals.trans he.frame.locals) (names.trans he.frame.names)
  | slot scope globals locals names =>
    refine .slot (he.globalScope ▸ scope) (globals.trans he.globals) (he.frame.locals ▸ locals) ?_
    rw [names, he.frame.names, Frame.size, Frame.size, he.frame.locals]

/-- What an expression does to scopes: nothing. -/
theorem expr_sameScope {e : Expr} {hint : Option Ty} {ty : Ty} (h : expr ctx e hint s = .ok (ty, s')) : SameScope s s' :=
  have he := expr_effect ctx e hint h
  ⟨he.frame, he.globalScope, he.globals⟩

/-- What a statement does to scopes, one case for each form. -/
theorem stmt_scope (st : Stmt) (h : stmt ctx st s = .ok ((), s')) : StmtScope st s s' := by
  have he := stmt_effect ctx st h
  have hexpr : ∀ {x : Check Unit}, Keeps (ExprEffect st.ids) x → x s = .ok ((), s') → SameNames s s' :=
    fun hx hr => (hx hr).sameNames
  refine he.scope ?_
  cases st with
  | varDecl node ty name init =>
    rw [stmt] at h
    exact varDecl_binds (declaredType_effect ctx node ty name init) h
  | ifThen node cond thenBody elseBody =>
    rw [stmt] at h
    exact .nothing (ifThen_sameNames cond thenBody elseBody h)
  | whileDo node cond body =>
    rw [stmt] at h
    exact .nothing (whileDo_sameNames cond body h)
  | block node b =>
    rw [stmt] at h
    exact .nothing (block_sameNames b h)
  | expr node e =>
    rw [stmt] at h
    exact .nothing (((expr_effect ctx e none).bind fun _ => .pure _) h).sameNames
  | ret node value =>
    rw [stmt] at h
    cases value with
    | none =>
      rw [returns] at h
      exact .nothing (returnNothing_sameNames node h)
    | some e =>
      rw [returns] at h
      exact .nothing (returnValue_sameNames e.node (fun hint => expr_effect ctx e hint) h)
  | yields node e =>
    rw [stmt] at h
    exact .nothing (yields_effect node e.node (fun hint => expr_effect ctx e hint) h).sameNames
  | breaks node =>
    rw [stmt] at h
    exact .nothing (hexpr (inLoop_effect _ _) h)
  | continues node =>
    rw [stmt] at h
    exact .nothing (hexpr (inLoop_effect _ _) h)
  | task node b =>
    rw [stmt] at h
    refine .nothing (hexpr (task_effect (by simp [Stmt.ids]) ?_) h)
    exact (block_effect ctx b).weaken fun _ _ h => h.toBodyEffect.mono (by simp [Stmt.ids])
  | awaits node b =>
    rw [stmt] at h
    exact .nothing (block_sameNames b h)

end Check

/-! ### The main statement -/

/-- Whether or not problems are reported on the way, an expression leaves every table of scopes as it was, and a statement
does so up to new slots at the end of the frame, a result type that was open and is settled, and the name that it declares
itself. So a statement that is no declaration does not change to which place any identifier refers, or the type that the
place is declared with. Frames are made without names, and names come with slots, so the names of every frame refer to slots
that were made (`Frame.Bounded`); expressions and statements keep that. -/
theorem scopes_are_put_back (ctx : Context) (s : State) :
    (∀ e hint ty s', Check.expr ctx e hint s = .ok (ty, s') → SameScope s s') ∧
    (∀ st s', Check.stmt ctx st s = .ok ((), s') →
      StmtScope st s s' ∧
      (s.frame.Bounded → s'.frame.Bounded ∧ (st.declared? = none → ∀ name args allowPartial,
        (ctx.lookup s'.frame s'.globals name args allowPartial).map Meaning.declared =
          (ctx.lookup s.frame s.globals name args allowPartial).map Meaning.declared))) := by
  refine ⟨fun e hint ty s' h => Check.expr_sameScope h, ?_⟩
  intro st s' h
  have hscope := Check.stmt_scope st h
  refine ⟨hscope, fun hb => ⟨hscope.bounded hb, ?_⟩⟩
  intro hnone name args allowPartial
  have hbinds := hscope.binds
  rw [hnone] at hbinds
  cases hbinds with
  | nothing same =>
    rw [same.globals]
    exact Context.lookup_declared (hb.lookup_eq hscope.locals same.names _) allowPartial

/-- The block of the sample script, analysed before the script's functions are known: problems are reported, two slots are
made, and no identifier refers to anything else afterwards. -/
theorem sample_block_puts_scopes_back : ∃ s', Check.stmt (Sample.setup.contextFor Sample.script) Sample.block .initial =
      .ok ((), s') ∧ s'.diagnostics ≠ [] ∧ s'.frame.size = 2 ∧ StmtScope Sample.block .initial s' ∧ s'.frame.Bounded ∧
      ∀ name args allowPartial,
        ((Sample.setup.contextFor Sample.script).lookup s'.frame s'.globals name args allowPartial).map Meaning.declared =
          ((Sample.setup.contextFor Sample.script).lookup .script .empty name args allowPartial).map Meaning.declared := by
  have hrun : (Check.stmt (Sample.setup.contextFor Sample.script) Sample.block .initial).toOption.any
      (fun r => !r.2.diagnostics.isEmpty && r.2.frame.size = 2) = true := by decide +kernel
  cases h : Check.stmt (Sample.setup.contextFor Sample.script) Sample.block .initial with
  | error fault =>
    rw [h] at hrun
    cases hrun
  | ok r =>
    obtain ⟨_, s'⟩ := r
    rw [h] at hrun
    obtain ⟨hd, hsize⟩ := Bool.and_eq_true_iff.1 hrun
    obtain ⟨hscope, hbounded⟩ := (scopes_are_put_back (Sample.setup.contextFor Sample.script) .initial).2 _ _ h
    obtain ⟨hb, hlookup⟩ := hbounded (Frame.Bounded.enter _ _ _)
    refine ⟨s', rfl, ?_, of_decide_eq_true hsize, hscope, hb, hlookup rfl⟩
    intro hnil
    have hnil : s'.diagnostics.isEmpty = true := List.isEmpty_iff.2 hnil
    simp only at hd
    rw [hnil] at hd
    cases hd

end ScriptCheck
