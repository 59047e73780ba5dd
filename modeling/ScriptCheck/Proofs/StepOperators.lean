import ScriptCheck.Proofs.ElementTargets

/-!
# What a step asks of its operator

The operator of `++` or `--` is judged by the number of its parameters and by its result. Where no level of the operator has
arguments these are taken from its record as they stand, and otherwise from its signature. Both ways say the same
(`Registry.operatorSignature_eq`), so a place can be stepped exactly if the signature of the operator that is found has no
parameters and the declared type of the place for its result.
-/

namespace ScriptCheck

/-- No member is found on an unknown type. -/
theorem Registry.known_of_method? {_ : Patience} {reg : Registry} {ty : Ty} {name : Name} {f : FuncRef}
    (h : reg.method? ty name = .ok (some f)) : ty ≠ .unresolved := by
  rintro rfl
  have hclimb : ∀ limit, reg.climbWithin (reg.ownFunc name []) limit .unresolved = none := by
    intro limit
    cases limit <;> rfl
  rw [method?, memberFunc, climb, hclimb] at h
  cases h

namespace Check

variable {ctx : Context} {node : Node} {op : StepOp} {before : Bool} {operand : Expr} {hint : Option Ty} {storage : Storage}
  {ty : Ty} {operator : FuncRef} {s u : State}

/-- What is reported of an operator whose signature does not fit. -/
def misfit (ty : Ty) (op : StepOp) (sig : Signature) : Problem :=
  .operatorSignatureMismatch ty op.member (if sig.params = [] then .returns sig.ret else .noParameters)

/-- A step of a place is accepted or rejected by the signature of the operator that is found. -/
theorem stepTarget_direct (hfound : ctx.method? ty op.member = .ok (some operator)) :
    stepTarget ctx node op before (.direct storage ty) u = (ctx.registry.funcType operator >>= fun sig =>
      if sig.params = [] ∧ sig.ret = ty then
        .ok (ty, (u.written (.direct storage ty)).setInfo node (.step (.direct storage ty) operator before))
      else reject (misfit ty op sig) node u) := by
  have hknown : ty.isUnresolved = false :=
    Bool.eq_false_iff.2 fun h => Registry.known_of_method? hfound ((Ty.isUnresolved_eq_true_iff ty).1 h)
  have hlift : ∀ {α β : Type} (a : α) (f : α → Check β), ((liftM (Except.ok a : Except Fault α) : Check α) >>= f) = f a :=
    fun _ _ => rfl
  simp only [stepTarget, Target.ty, hknown, hfound, hlift, Registry.operatorSignature_eq, Registry.stepFits,
    Bool.false_eq_true, if_false]
  cases ctx.registry.funcType operator with
  | error fault => rfl
  | ok sig =>
    simp only [Except.map, hlift]
    change _ = ite _ _ _
    by_cases hparams : sig.params = []
    · by_cases hret : sig.ret = ty
      · simp only [hparams, hret, List.length_nil, ne_eq, not_true_eq_false, and_self, if_false, if_true, decide_true]
        rfl
      · simp only [hparams, hret, misfit, List.length_nil, ne_eq, not_true_eq_false, and_false, if_false, if_true, decide_false]
        rfl
    · have hlength : sig.params.length ≠ 0 := by simpa using hparams
      rw [if_pos hlength, if_neg fun h => hparams h.1, misfit, if_neg hparams]

/-- The same where the place is written as an operand. -/
theorem expr_step_direct (htarget : target ctx operand (expr ctx operand none) s = .ok (some (.direct storage ty), u))
    (hfound : ctx.method? ty op.member = .ok (some operator)) :
    expr ctx (.unary node (.step op before) operand) hint s = (ctx.registry.funcType operator >>= fun sig =>
      if sig.params = [] ∧ sig.ret = ty then
        .ok (ty, ((u.written (.direct storage ty)).setInfo node (.step (.direct storage ty) operator before)).setType node ty)
      else typed node (reject (misfit ty op sig) node) u) := by
  have hstep : expr ctx (.unary node (.step op before) operand) hint s =
      (stepTarget ctx node op before (.direct storage ty) u >>= fun r =>
        noteType node r.1 r.2 >>= fun r' => .ok (r.1, r'.2)) := by
    simp only [expr, unary, step, typed, bind_assoc]
    change StateT.bind _ _ s = _
    rw [StateT.bind, htarget]
    rfl
  rw [hstep, stepTarget_direct hfound, bind_assoc]
  congr 1
  funext sig
  split <;> rfl

end Check

/-- What is taken from the record of an operator is the number of parameters and the result that its signature has with all
arguments in place, whatever levels have arguments and whether or not it is a sequence function. So where the target of `++` or
`--` is a place and an operator is found for its declared type, the step is accepted exactly if the signature of the operator
has no parameters and that type for its result; otherwise it is reported that the signature does not fit. -/
theorem step_operators_are_judged_by_signature :
    (∀ (reg : Registry) (operator : FuncRef) (record : FuncRecord), reg.func? operator.id = some record →
      ∃ sig, reg.funcType operator = .ok sig ∧ reg.operatorSignature operator = .ok (sig.params.length, sig.ret)) ∧
    ∀ (ctx : Context) (node : Node) (op : StepOp) (before : Bool) (operand : Expr) (hint : Option Ty) (storage : Storage)
      (ty : Ty) (operator : FuncRef) (s u : State),
      Check.target ctx operand (Check.expr ctx operand none) s = .ok (some (.direct storage ty), u) →
      ctx.method? ty op.member = .ok (some operator) →
      (Check.expr ctx (.unary node (.step op before) operand) hint s = .ok (ty,
          ((u.written (.direct storage ty)).setInfo node (.step (.direct storage ty) operator before)).setType node ty) ↔
        ∃ sig, ctx.registry.funcType operator = .ok sig ∧ sig.params = [] ∧ sig.ret = ty) ∧
      ∀ sig, ctx.registry.funcType operator = .ok sig → ¬(sig.params = [] ∧ sig.ret = ty) → ∃ flaw s',
        Check.expr ctx (.unary node (.step op before) operand) hint s = .ok (.unresolved, s') ∧
          s'.diagnostics = u.diagnostics ++ [⟨.operatorSignatureMismatch ty op.member flaw, node⟩] := by
  refine ⟨fun reg operator record hrecord => ?_, fun ctx node op before operand hint storage ty operator s u htarget hfound => ?_⟩
  · have hsig : reg.funcType operator = .ok (reg.applyFunc operator record.signature) := by
      rw [Registry.funcType, Registry.funcRecord, hrecord]
      rfl
    exact ⟨_, hsig, by rw [Registry.operatorSignature_eq, hsig]; rfl⟩
  · rw [Check.expr_step_direct htarget hfound]
    constructor
    · cases ctx.registry.funcType operator with
      | error fault =>
        refine iff_of_false (fun h => ?_) ?_
        · cases h
        · rintro ⟨_, h, -⟩
          cases h
      | ok sig =>
        by_cases hfits : sig.params = [] ∧ sig.ret = ty
        · exact iff_of_true (if_pos hfits) ⟨sig, rfl, hfits⟩
        · refine iff_of_false (fun h => ?_) ?_
          -- A step that is rejected has no type, which the target has.
          · have hrejected := (if_neg hfits).symm.trans h
            exact Registry.known_of_method? hfound (Prod.mk.inj (Except.ok.inj hrejected)).1.symm
          · rintro ⟨_, h, hfits'⟩
            cases h
            exact hfits hfits'
    · intro sig hsig hmisfit
      rw [hsig]
      exact ⟨_, _, if_neg hmisfit, rfl⟩

namespace Sample

/-- The id of `Counter<T>`. -/
def counterId : ItemId := (ItemId.root "Tally").child (.text "Counter") 1

/-- `class Counter<T> { Counter<T> operator++(); }` -/
def counters : Module :=
  Module.empty "Tally"
    |>.putType ⟨counterId, .classType, [.text "T"], none, []⟩
    |>.putFunc ⟨counterId.child .increment 0, [], [], .nominal counterId [[.param ⟨counterId, .text "T"⟩]], false, false⟩

/-- Scripts that refer to `Tally`. -/
def withCounters : Context := (Setup.mk "Sample" [counters] captures).contextFor []

/-- `Counter<int>` -/
def intCounter : Ty := .nominal counterId [[Builtin.int]]

/-- The state in which `c` is a `Counter<int>`. -/
def counting : State := { State.initial with frame := Frame.script.declare "c" intCounter }

end Sample

/-- The operator of `Counter<int>` is seen through its arguments, so `c++` is accepted. -/
theorem sample_counter_is_stepped : ∃ s', Sample.withCounters.method? Sample.intCounter .increment =
      .ok (some ⟨Sample.counterId.child .increment 0, [[Builtin.int], []]⟩) ∧
    Check.expr Sample.withCounters (.unary (Sample.nd 1) (.step .up false) (.identifier (Sample.nd 0) "c" [])) none
      Sample.counting = .ok (Sample.intCounter, s') := by
  obtain ⟨hiff, -⟩ := step_operators_are_judged_by_signature.2 Sample.withCounters (Sample.nd 1) .up false
    (.identifier (Sample.nd 0) "c" []) none (.localSlot 0) Sample.intCounter _ Sample.counting _ rfl rfl
  exact ⟨_, rfl, hiff.2 ⟨_, rfl, rfl, rfl⟩⟩

end ScriptCheck
