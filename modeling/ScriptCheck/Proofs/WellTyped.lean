import ScriptCheck.Proofs.Walk

/-!
# The notes of an analysis are a typing derivation

`Site.WellTyped` says of a site what a type system asks of it, in terms of the finished notes alone: of a call that its
arguments fit the parameters of what is called, of an assignment that the value fits the target, of a declaration with a
written type that the initial value fits it, of a condition that it is a `bool`, of a `return` and a `yield` that they fit
what their body gives. The rules know nothing of unknown types, which the checks of the analysis let pass. The main statement
is that after an analysis with an output every site of the script is well typed.
-/

namespace ScriptCheck

/-! ### The rules -/

namespace Owner

/-- Whether what the body gives is found out from the body. -/
def infers : Owner → Bool
  | .lambda _ _ none _ => true
  | _ => false

/-- What a `return` in the body gives: nothing in a script, a task or a sequence function. A lambda gives what its type
says. -/
def result? (reg : Registry) (notes : NodeMap) : Owner → Option Ty
  | .script => some .void
  | .func id => (reg.func? id).map fun r => if r.isSequence then .void else r.ret
  | .lambda node _ _ _ =>
    match notes.ty? node.id with
    | some (.func ret _) => some ret
    | _ => none
  | .task _ _ => some .void

/-- What a `yield` in the body gives. -/
def elem? (reg : Registry) : Owner → Option Ty
  | .func id => (reg.func? id).bind fun r => if r.isSequence then some r.ret else none
  | _ => none

end Owner

section Rules

variable [Patience] (reg : Registry) (notes : NodeMap)

/-- An expression gives a value that may stand where `expected` is expected. -/
def Fits (expected : Ty) (e : Expr) : Prop :=
  ∃ ty, notes.ty? e.node.id = some ty ∧ ty ≠ .void ∧ reg.assignable expected ty = true

/-- What is stored in a target: a value of the place's type, or the last argument of the setter. -/
def Target.Stores (ty : Ty) : Target → Prop
  | .direct _ declared => declared = ty
  | .callBased _ _ _ setter _ _ => ∃ sig, reg.funcType setter = .ok sig ∧ sig.params.getLast? = some ty

/-- A `return` in a body of `owner`. -/
def ReturnFits (owner : Owner) : Option Expr → Prop
  | none => owner.result? reg notes = some .void
  | some e => ∃ ret ty, owner.result? reg notes = some ret ∧ owner.elem? reg = none ∧ notes.ty? e.node.id = some ty ∧
      reg.assignable ret ty = true ∧ (ty = .void → ret = .void) ∧ (ret = .void → owner.infers = false → ty = .void)

/-- The expression that is the body of a lambda. -/
def ResultFits (owner : Owner) (e : Expr) : Prop :=
  ∃ ret, owner.result? reg notes = some ret ∧
    if owner.infers then notes.ty? e.node.id = some ret else ret = .void ∨ Fits reg notes ret e

/-- What is asked of the part at a site. -/
def Site.WellTyped : Site → Prop
  | ⟨_, .expr (.call node callee args)⟩ => ∃ params ret, notes.ty? node.id = some ret ∧
      List.Forall₂ (Fits reg notes) params args ∧
      ((∃ f object, notes.info? node.id = some (.call f object) ∧ reg.funcType f = .ok ⟨ret, params⟩) ∨
        (notes.info? node.id = some .callValue ∧ notes.ty? callee.node.id = some (.func ret params)))
  | ⟨_, .expr (.assign node _ value)⟩ => ∃ target ty, notes.info? node.id = some (.assign target) ∧
      target.Stores reg ty ∧ Fits reg notes ty value
  | ⟨_, .expr (.lambda node _ (some written) _)⟩ => ∃ ret params, notes.info? written.node.id = some (.type ret) ∧
      notes.ty? node.id = some (.func ret params)
  | ⟨_, .stmt (.varDecl _ written _ (some e))⟩ => (∀ n, written ≠ .var n) →
      ∃ ty, notes.info? written.node.id = some (.type ty) ∧ Fits reg notes ty e
  | ⟨_, .stmt (.ifThen _ cond _ _)⟩ => notes.ty? cond.node.id = some Builtin.bool
  | ⟨_, .stmt (.whileDo _ cond _)⟩ => notes.ty? cond.node.id = some Builtin.bool
  | ⟨p, .stmt (.ret _ value)⟩ => ReturnFits reg notes p.here.owner value
  | ⟨p, .stmt (.yields _ e)⟩ => ∃ elem, p.here.owner.elem? reg = some elem ∧ Fits reg notes elem e
  | ⟨p, .result e⟩ => ResultFits reg notes p.here.owner e
  | _ => True

end Rules

/-! ### What bodies give -/

theorem Registry.assignable_refl {_ : Patience} (reg : Registry) (t : Ty) : reg.assignable t t = true := by
  unfold assignable climb
  rw [climbWithin.eq_def]
  simp

@[simp] theorem Frame.seqElem_declareAll : ∀ (f : Frame) (vs : List (String × Ty)), (f.declareAll vs).seqElem = f.seqElem
  | _, [] => rfl
  | f, v :: vs => by
    rw [declareAll, seqElem_declareAll]
    rfl

@[simp] theorem Frame.seqElem_closure (mode : ReturnMode) (params : List (String × Ty)) (pending : List PendingCapture) :
    (Frame.closure mode params pending).seqElem = none := by
  simp [Frame.closure, Frame.enter]

@[simp] theorem Place.here_declare_owner (p : Place) (name : String) (node : Nat) :
    (p.declare name node).here.owner = p.here.owner := by
  unfold declare
  split <;> rfl

namespace Reached

variable {A : Finished} {p : Place} {mode : ReturnMode} {f : Frame}

/-- What the `return`s of a body are checked against is what the body gives. -/
theorem result (h : Reached A p mode f) : p.here.owner.result? A.registry A.notes = some mode.result := by
  induction h with
  | script => rfl
  | @func outer decl record hrecord hlength hslots =>
    have hresult : record.frame.ret.result = if record.isSequence then .void else record.ret := by
      unfold FuncRecord.frame
      split <;> rfl
    simp [FuncDecl.place, Owner.result?, hrecord, hresult]
  | lambda houter hsites htypes hslots hcaptures hret htype ih => simp [Place.enter, Owner.result?, htype]
  | task houter hsites hcaptures ih => rfl
  | inner h ih => exact ih
  | grow h hg ih => exact ih
  | declare h hlocal hslot ih => rwa [Place.here_declare_owner]

/-- What a frame says about `yield`s is what the body yields. -/
theorem elem (h : Reached A p mode f) : p.here.owner.elem? A.registry = f.seqElem := by
  induction h with
  | script => rfl
  | @func outer decl record hrecord hlength hslots =>
    have helem : record.frame.seqElem = if record.isSequence then some record.ret else none := by
      unfold FuncRecord.frame
      split <;> rfl
    simp [FuncDecl.place, Owner.elem?, hrecord, helem]
  | lambda houter hsites htypes hslots hcaptures hret htype ih => simp [Place.enter, Owner.elem?]
  | task houter hsites hcaptures ih => simp [Place.enter, Owner.elem?]
  | inner h ih => exact ih
  | grow h hg ih => rw [ih, hg.seqElem]
  | declare h hlocal hslot ih => rwa [Place.here_declare_owner]

/-- What a body gives is found out from the body only where nothing is written. -/
theorem infers (h : Reached A p mode f) : p.here.owner.infers = true ↔ ∃ found, mode = .inferred found := by
  induction h with
  | script => simp [Place.script, Owner.infers]
  | @func outer decl record hrecord hlength hslots =>
    obtain ⟨ty, hty⟩ := record.frame_ret_fixed
    simp [FuncDecl.place, Owner.infers, hty]
  | lambda houter hsites htypes hslots hcaptures hret htype ih =>
    rcases hret with ⟨rfl, found, rfl⟩ | ⟨written, ty, rfl, rfl, -⟩ <;> simp [Place.enter, Owner.infers]
  | task houter hsites hcaptures ih => simp [Place.enter, Owner.infers]
  | inner h ih => exact ih
  | grow h hg ih => exact ih
  | declare h hlocal hslot ih => rwa [Place.here_declare_owner]

/-- A body that yields something returns nothing. -/
theorem result_of_elem (h : Reached A p mode f) {elem : Ty} (he : f.seqElem = some elem) : mode.result = .void := by
  have hr := h.result
  rw [← h.elem] at he
  cases ho : p.here.owner with
  | func id =>
    rw [ho] at hr he
    simp only [Owner.elem?, Option.bind_eq_some_iff] at he
    obtain ⟨record, hrecord, he⟩ := he
    split at he
    · rename_i hseq
      simpa [Owner.result?, hrecord, hseq] using hr.symm
    · cases he
  | _ =>
    rw [ho] at he
    cases he

end Reached

/-! ### What is let through fits -/

/-- No record and no note of a finished analysis mentions an unknown type. -/
structure Finished.Resolved (A : Finished) : Prop where
  registry : A.registry.Resolved
  notes : ∀ n, AllResolved (A.notes.dataOf n).types

namespace Finished.Resolved

variable {A : Finished} {n : Nat}

theorem ty (h : A.Resolved) {t : Ty} (ht : A.notes.ty? n = some t) : t.Resolved :=
  (NodeData.resolved_iff.1 (h.notes n)).1 t ht

theorem info (h : A.Resolved) {info : NodeInfo} (hi : A.notes.info? n = some info) : AllResolved info.types :=
  (NodeData.resolved_iff.1 (h.notes n)).2 info hi

theorem known (h : A.Resolved) : Known A.notes := fun _ _ ht => (h.ty ht).ne

/-- What a body gives is a known type. -/
theorem result (h : A.Resolved) {owner : Owner} {ret : Ty} (hr : owner.result? A.registry A.notes = some ret) :
    ret.Resolved := by
  cases owner with
  | script =>
    cases hr
    decide
  | func id =>
    obtain ⟨record, hrecord, hret⟩ := Option.map_eq_some_iff.1 hr
    split at hret
    · cases hret
      decide
    · subst hret
      exact (allResolved_cons.1 (Registry.AllTypes.func? h.registry hrecord)).1
  | lambda node params written body =>
    simp only [Owner.result?] at hr
    split at hr
    · rename_i ht
      cases hr
      have hty := h.ty ht
      simp only [Ty.resolved_func] at hty
      exact hty.1
    · cases hr
  | task node block =>
    cases hr
    decide

/-- What a body yields is a known type. -/
theorem elem (h : A.Resolved) {owner : Owner} {elem : Ty} (he : owner.elem? A.registry = some elem) : elem.Resolved := by
  cases owner with
  | func id =>
    obtain ⟨record, hrecord, helem⟩ := Option.bind_eq_some_iff.1 he
    split at helem
    · cases helem
      exact (allResolved_cons.1 (Registry.AllTypes.func? h.registry hrecord)).1
    · cases helem
  | _ => cases he

end Finished.Resolved

/-- A value of a known type that is let through may stand where it does. -/
theorem Finished.Covers.assignable {A : Finished} {ctx : Context} (hc : A.Covers ctx) {expected found : Ty}
    (h : ctx.Admits expected found) (he : expected.Resolved) (hf : found.Resolved) :
    (found = .void → expected = .void) ∧ @Registry.assignable A.patience A.registry expected found = true := by
  rcases h with h | h | h
  · exact absurd h he.ne
  · exact absurd h hf.ne
  · rwa [Context.assignable, hc.registry, hc.patience] at h

/-- Arguments that are let through fit the parameters. -/
theorem fits_of_admitsAll {A : Finished} (hA : A.Resolved) {ctx : Context} (hc : A.Covers ctx) {args : List Expr}
    {types : List Ty}
    (hn : List.Forall₂ (fun e t => A.notes.ty? e.node.id = some t ∧ t ≠ .void) args types) :
    ∀ {params : List Ty}, AllResolved params →
      ctx.AdmitsAll params (Argument.zip (args.map Expr.node) types) →
      List.Forall₂ (@Fits A.patience A.registry A.notes) params args := by
  induction hn with
  | nil =>
    intro params hp h
    cases h
    exact .nil
  | @cons e t es ts he hes ih =>
    intro params hp h
    cases h with
    | @cons p _ ps _ hfirst hrest =>
      rw [allResolved_cons] at hp
      exact .cons ⟨t, he.1, he.2, (hc.assignable hfirst hp.1 (hA.ty he.1)).2⟩ (ih hp.2 hrest)

/-- A target that was found is a place, or an element whose setter takes something to store. -/
theorem Check.Settled.target_forms {fin : NodeMap} {ctx : Context} {e : Expr} {s s' : State} {target : Target}
    (h : Settled fin e.ids (Check.target ctx e (Check.expr ctx e none)) s (some target) s') :
    (∃ storage ty, target = .direct storage ty) ∨
      ∃ object objectTy getter setter args ty writes, target = .callBased object objectTy getter setter args ty ∧
        ctx.registry.funcType setter = .ok writes ∧ writes.params ≠ [] := by
  rcases h.target_found with ⟨_, _, _, _, _, storage, _, declared, -, -, -, rfl⟩ | ⟨_, _, _, _, _, storage, ty, -, -, rfl⟩ |
    ⟨_, _, _, _, _, _, _, writes, -, rfl, hwrites, hne⟩
  · exact .inl ⟨storage, declared, rfl⟩
  · exact .inl ⟨storage, ty, rfl⟩
  · exact .inr ⟨_, _, _, _, _, _, writes, rfl, hwrites, hne⟩

section Sites

variable {A : Finished} {p : Place} {node : Node}
variable {e : Expr}

theorem Visited.call (hA : A.Resolved) {callee : Expr} {args : List Expr} (h : Visited A ⟨p, .expr (.call node callee args)⟩) :
    @Site.WellTyped A.patience A.registry A.notes ⟨p, .expr (.call node callee args)⟩ := by
  obtain ⟨ctx, mode, s, s', hc, -, hh⟩ := h
  obtain ⟨hint, t, hv⟩ := hh.as_value rfl
  obtain ⟨c, u, hints, types, v, -, hargs, hfound⟩ := hv.call hA.known
  rcases hfound with ⟨-, -, -, g, object, sig, -, -, hinfo, hsig, hadm, rfl⟩ | ⟨params, hinfo, hcallee, hadm⟩
  · rw [hc.registry] at hsig
    obtain ⟨-, hparams⟩ := allResolved_cons.1 (Registry.funcType_inherits hA.registry (hA.info hinfo) hsig)
    exact ⟨sig.params, sig.ret, hv.noted, fits_of_admitsAll hA hc hargs.exprs_noted hparams hadm,
      .inl ⟨g, object, hinfo, hsig⟩⟩
  · have hresolved := hA.ty hcallee
    rw [Ty.resolved_func] at hresolved
    exact ⟨params, t, hv.noted, fits_of_admitsAll hA hc hargs.exprs_noted hresolved.2 hadm, .inr ⟨hinfo, hcallee⟩⟩

theorem Visited.assign (hA : A.Resolved) {left value : Expr} (h : Visited A ⟨p, .expr (.assign node left value)⟩) :
    @Site.WellTyped A.patience A.registry A.notes ⟨p, .expr (.assign node left value)⟩ := by
  obtain ⟨ctx, mode, s, s', hc, -, hh⟩ := h
  obtain ⟨hint, t, hv⟩ := hh.as_value rfl
  obtain ⟨target, expected, found, u, v, htarget, hvalue, hvoid, hstored, hadm, hinfo⟩ := hv.assign hA.known
  have hforms := htarget.target_forms
  rw [hc.registry] at hstored hforms
  have hstores : target.Stores A.registry expected ∧ expected.Resolved := by
    have htypes := hA.info hinfo
    rcases hforms with ⟨storage, ty, rfl⟩ | ⟨_, _, getter, setter, _, _, writes, rfl, hwrites, hne⟩
    · cases hstored
      simp only [NodeInfo.types, Target.types, allResolved_cons] at htypes
      exact ⟨rfl, htypes.1⟩
    · rw [Registry.storedType, hwrites] at hstored
      cases hstored
      have hlast : writes.params.getLast? = some (writes.params.getLastD .unresolved) := by
        rw [List.getLast?_eq_some_getLast hne, List.getLastD_eq_getLast?, List.getLast?_eq_some_getLast hne]
        rfl
      have hsetter : AllResolved setter.types := htypes.subset fun t ht => by simp [NodeInfo.types, Target.types, ht]
      obtain ⟨-, hparams⟩ := allResolved_cons.1 (Registry.funcType_inherits hA.registry hsetter hwrites)
      exact ⟨⟨writes, hwrites, hlast⟩, hparams _ (List.mem_of_getLast? hlast)⟩
  exact ⟨target, expected, hinfo, hstores.1, found, hvalue.noted, hvoid,
    (hc.assignable hadm hstores.2 (hA.ty hvalue.noted)).2⟩

theorem Visited.varDecl (hA : A.Resolved) {written : TypeExpr} {name : String}
    (h : Visited A ⟨p, .stmt (.varDecl node written name (some e))⟩) :
    @Site.WellTyped A.patience A.registry A.notes ⟨p, .stmt (.varDecl node written name (some e))⟩ := by
  intro hne
  obtain ⟨ctx, mode, s, s', hc, -, hst, -⟩ := h
  obtain ⟨t, u, -, -, -, hinit⟩ := hst.varDecl
  obtain ⟨hint, found, v, w, -, hvalue, hchecked⟩ := hinit e rfl
  obtain ⟨hinfo, hvoid, hadm⟩ := hchecked hne
  have ht : t.Resolved := (allResolved_cons.1 (hA.info hinfo)).1
  exact ⟨t, hinfo, found, hvalue.noted, hvoid, (hc.assignable hadm ht (hA.ty hvalue.noted)).2⟩

theorem Visited.ret (hA : A.Resolved) {value : Option Expr} (h : Visited A ⟨p, .stmt (.ret node value)⟩) :
    @Site.WellTyped A.patience A.registry A.notes ⟨p, .stmt (.ret node value)⟩ := by
  obtain ⟨ctx, mode, s, s', hc, hat, hst, hlead⟩ := h
  have hresult := hat.reached.result
  have hknown := hA.result hresult
  cases value with
  | none =>
    have hvoid : mode.result = .void := by
      rcases hst.ret_nothing.2 with ⟨elem, hseq⟩ | hmode
      · exact hat.reached.result_of_elem hseq
      · rcases hmode mode hlead with hvoid | hadm
        · exact hvoid
        · exact (hc.assignable hadm hknown Ty.resolved_void).1 rfl
    rw [hvoid] at hresult
    exact hresult
  | some e =>
    obtain ⟨hint, found, u, hvalue, -, hseq, hmode⟩ := hst.ret_value hA.known
    refine ⟨mode.result, found, hresult, hat.reached.elem.trans hseq, hvalue.noted, ?_⟩
    rcases hmode mode hlead with rfl | ⟨hne, hadm⟩
    · exact ⟨A.registry.assignable_refl _, fun h => h, fun h _ => h⟩
    · obtain ⟨hvoid, hfits⟩ := hc.assignable hadm hknown (hA.ty hvalue.noted)
      refine ⟨hfits, hvoid, fun hret hinfers => absurd ?_ hne⟩
      cases mode with
      | fixed ty => rw [← hret, ReturnMode.result]
      | inferred known =>
        rw [hat.reached.infers.2 ⟨known, rfl⟩] at hinfers
        cases hinfers

theorem Visited.yields (hA : A.Resolved) (h : Visited A ⟨p, .stmt (.yields node e)⟩) :
    @Site.WellTyped A.patience A.registry A.notes ⟨p, .stmt (.yields node e)⟩ := by
  obtain ⟨ctx, mode, s, s', hc, hat, hst, -⟩ := h
  obtain ⟨elem, found, hseq, hvalue, hvoid, hadm⟩ := hst.yields
  have helem := hat.reached.elem.trans hseq
  exact ⟨elem, helem, found, hvalue.noted, hvoid, (hc.assignable hadm (hA.elem helem) (hA.ty hvalue.noted)).2⟩

theorem Visited.result (hA : A.Resolved) (h : Visited A ⟨p, .result e⟩) :
    @Site.WellTyped A.patience A.registry A.notes ⟨p, .result e⟩ := by
  obtain ⟨ctx, declared, s, s', hc, hat, hmode, hbody⟩ := h
  have hresult := hat.reached.result
  have hinfers := hat.reached.infers
  refine ⟨_, hresult, ?_⟩
  obtain ⟨hint, found, u, hvalue, hmode' | ⟨ty, hmode', hfound⟩⟩ := hbody.exprBody hmode
  · rw [hmode'] at hinfers ⊢
    rw [if_pos (hinfers.2 ⟨_, rfl⟩)]
    exact hvalue.noted
  · rw [hmode'] at hinfers hresult ⊢
    have hdeclared : ¬p.here.owner.infers = true := fun h => by
      obtain ⟨_, hne⟩ := hinfers.1 h
      cases hne
    rw [if_neg hdeclared]
    rcases hfound with rfl | ⟨hvoid, hadm⟩
    · exact .inl rfl
    · exact .inr ⟨found, hvalue.noted, hvoid, (hc.assignable hadm (hA.result hresult) (hA.ty hvalue.noted)).2⟩

/-- What the walk has visited is well typed, where no unknown type is left. -/
theorem Visited.wellTyped (hA : A.Resolved) {site : Site} (h : Visited A site) :
    @Site.WellTyped A.patience A.registry A.notes site := by
  obtain ⟨p, part⟩ := site
  cases part with
  | expr e =>
    cases e with
    | call node callee args => exact h.call hA
    | assign node left value => exact h.assign hA
    | lambda node params ret body =>
      cases ret with
      | none => trivial
      | some written =>
        obtain ⟨ctx, mode, s, s', hc, -, hh⟩ := h
        obtain ⟨hint, t, hv⟩ := hh.as_value rfl
        obtain ⟨types, declared, _, _, _, _, -, -, ⟨hnone, -⟩ | ⟨_, ty, hsome, rfl, hnote⟩, -, -, hty, -⟩ := hv.lambda
        · cases hnone
        · cases hsome
          exact ⟨ty, types, hnote, hty⟩
    | _ => trivial
  | stmt st =>
    cases st with
    | varDecl node written name init =>
      cases init with
      | none => trivial
      | some e => exact h.varDecl hA
    | ifThen node cond thenBody elseBody =>
      obtain ⟨ctx, mode, s, s', hc, -, hst, -⟩ := h
      obtain ⟨u, hcond, -⟩ := hst.ifThen hA.known
      exact hcond.noted
    | whileDo node cond body =>
      obtain ⟨ctx, mode, s, s', hc, -, hst, -⟩ := h
      obtain ⟨u, hcond, -⟩ := hst.whileDo hA.known
      exact hcond.noted
    | ret node value => exact h.ret hA
    | yields node e => exact h.yields hA
    | _ => trivial
  | result e => exact h.result hA

end Sites

/-! ### The main statement -/

/-- After an analysis with an output, every site of the script is well typed by the notes of the output, in the script's own
module together with those it refers to. The nodes of the script have to be different ones, and the records of the modules
must not mention an unknown type. -/
theorem analysis_is_a_typing_derivation (setup : Setup) (script : Script) (out : Output) (hn : script.ids.Nodup)
    (hm : ∀ m ∈ setup.modules, m.Resolved) (h : analyze setup script = .ok (.ok out)) :
    letI := setup.patience
    ∀ site ∈ script.sites (.root setup.moduleName),
      site.WellTyped (out.module :: Builtin.declarations :: setup.modules) out.nodes := by
  have hvisited := analyze_visited hn h
  obtain ⟨m, s, ha, hs, -, rfl⟩ := analyze_eq_ok h
  obtain ⟨hmod, hstate⟩ := ha.resolved hm hs
  have hA : (setup.finished script m s.nodes).Resolved :=
    ⟨Registry.AllTypes.cons hmod (Registry.AllTypes.cons Builtin.declarations_resolved hm),
      NodeMap.dataOf_types hstate.nodes⟩
  intro site hsite
  exact (hvisited site hsite).wellTyped hA

/-- The sample script has an output, and its sites are well typed. -/
theorem sample_is_a_typing_derivation : ∃ out, analyze Sample.setup Sample.script = .ok (.ok out) ∧
    Sample.script.ids.Nodup ∧ ∀ site ∈ Sample.script.sites (.root Sample.setup.moduleName),
      site.WellTyped (out.module :: Builtin.declarations :: Sample.setup.modules) out.nodes := by
  obtain ⟨out, h⟩ := Sample.output
  exact ⟨out, h, Sample.ids_nodup,
    analysis_is_a_typing_derivation Sample.setup Sample.script out Sample.ids_nodup (by simp [Sample.setup]) h⟩

end ScriptCheck
