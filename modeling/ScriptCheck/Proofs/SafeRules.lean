import ScriptCheck.Proofs.TotalLookups

/-!
# Steps without faults

A state is well formed when all types it mentions are, all functions and variables it mentions have the arguments that their
ids ask for, and every name refers to a slot that was made. A step is safe when from a well-formed state it ends without a
fault, whether or not it reports problems, in a well-formed state that has kept its slots. Here it is shown of each rule, given
that the parts of the rule are safe.
-/

namespace ScriptCheck

/-! ### Well-formed states -/

/-- Types, arguments and slots of a state are in order. -/
structure State.WellFormed (s : State) : Prop where
  types : s.AllTypes Ty.WellFormed
  bounded : s.frame.Bounded
  globals : s.globals.Bounded
  refs : ∀ d ∈ s.nodes.values, ∀ r ∈ d.refs, r.2.fits r.1 = true

namespace State.WellFormed

variable {s : State} {node : Node}

/-- A frame that is in order. -/
theorem withFrame (h : s.WellFormed) {frame : Frame} (ht : frame.AllTypes Ty.WellFormed) (hb : frame.Bounded) :
    State.WellFormed { s with frame := frame } :=
  ⟨h.types.withFrame ht, hb, h.globals, h.refs⟩

theorem withScope (h : s.WellFormed) (globalScope : Bool) : State.WellFormed { s with globalScope := globalScope } :=
  ⟨⟨h.types.frame, h.types.globals, h.types.nodes, h.types.templates⟩, h.bounded, h.globals, h.refs⟩

/-- A well-formed type may be noted. -/
theorem setType (h : s.WellFormed) {t : Ty} (ht : t.WellFormed) : (s.setType node t).WellFormed := by
  refine ⟨h.types.setType ht, h.bounded, h.globals, fun d hd => ?_⟩
  rcases Table.mem_values_insert hd with rfl | hd
  · unfold NodeMap.dataOf
    cases hf : s.nodes.find? node.id with
    | none => simp [NodeData.refs]
    | some d => exact h.refs d (Table.mem_values_of_find? hf)
  · exact h.refs d hd

/-- A note that is in order. -/
theorem setInfo (h : s.WellFormed) {info : NodeInfo} (hi : info.WellFormed) : (s.setInfo node info).WellFormed := by
  refine ⟨h.types.setInfo info hi.types, h.bounded, h.globals, fun d hd => ?_⟩
  rcases Table.mem_values_insert hd with rfl | hd
  · exact hi.refs
  · exact h.refs d hd

/-- A template that is in order. -/
theorem push (h : s.WellFormed) (kind : TemplateKind) {frame : Frame} (hf : frame.AllTypes Ty.WellFormed)
    (body : Option Nat) : (s.push kind frame body).WellFormed :=
  ⟨h.types.push kind hf body, h.bounded, h.globals, h.refs⟩

/-- Leaving a scope that kept the slots puts back names that refer to them. -/
theorem leave {t : State} (h : s.WellFormed) (ht : t.WellFormed) (hsize : s.frame.size ≤ t.frame.size) :
    (s.leave t).WellFormed :=
  ⟨h.types.leave ht.types, h.bounded.grow hsize rfl, ht.globals, ht.refs⟩

/-- Coming back from a body. -/
theorem resume {t : State} (h : s.WellFormed) (ht : t.WellFormed) : (s.resume t).WellFormed :=
  ⟨h.types.resume ht.types, h.bounded, ht.globals, ht.refs⟩

end State.WellFormed

/-! ### What expressions refer to -/

/-- The type that stands before the dot is well formed. -/
def Receiver.WellFormed : Receiver → Prop
  | .type ty => ty.WellFormed
  | .value ty => ty.WellFormed

/-- The member can be used, if there is one. -/
def MemberUse.Usable (reg : Registry) : MemberUse → Prop
  | .storage place ty => place.WellFormed ∧ ty.WellFormed
  | .func f _ => f.Usable reg
  | .unresolved => True

/-- What is called can be called. -/
def Callable.Usable (reg : Registry) : Callable → Prop
  | .func f _ => f.Usable reg
  | .value ty => ty.WellFormed
  | .unresolved => True

/-- The target can be read and written. -/
def Target.Usable (reg : Registry) : Target → Prop
  | .direct storage ty => storage.WellFormed ∧ ty.WellFormed
  | .callBased _ objectType getter setter _ ty =>
    objectType.WellFormed ∧ getter.Usable reg ∧ setter.Usable reg ∧ ty.WellFormed

namespace Target.Usable

variable {reg : Registry} {target : Target}

/-- A place that can be used has well-formed types. -/
theorem types (h : target.Usable reg) : ∀ t ∈ target.types, t.WellFormed := by
  cases target with
  | direct storage ty => exact List.forall_mem_cons.2 ⟨h.2, h.1.types⟩
  | callBased object objectType getter setter args ty =>
    obtain ⟨ho, hg, hs, ht⟩ := h
    exact List.forall_mem_cons.2 ⟨ho, List.forall_mem_cons.2 ⟨ht, List.forall_mem_append.2 ⟨hg.types, hs.types⟩⟩⟩

/-- It refers to what exists. -/
theorem refs (h : target.Usable reg) : ∀ r ∈ target.refs, r.2.fits r.1 = true := by
  cases target with
  | direct storage ty => exact h.1.refs
  | callBased object objectType getter setter args ty =>
    obtain ⟨-, hg, hs, -⟩ := h
    simpa [Target.refs] using ⟨hg.fits, hs.fits⟩

theorem ty (h : target.Usable reg) : target.ty.WellFormed := h.types _ target.ty_mem_types

/-- What is stored there has a type. -/
theorem storedType (h : target.Usable reg) (hreg : reg.WellFormed) : Gives Ty.WellFormed (reg.storedType target) := by
  cases target with
  | direct storage ty => exact ⟨ty, rfl, h.2⟩
  | callBased object objectType getter setter args ty =>
    refine (Registry.funcType_gives hreg h.2.2.1).bind fun sig hsig => .pure ?_
    rw [List.getLastD_eq_getLast?]
    cases hl : sig.params.getLast? with
    | none => exact Ty.wellFormed_unresolved
    | some t => exact (List.forall_mem_cons.1 hsig).2 t (List.mem_of_getLast? hl)

/-- Whether a step fits there can be decided. -/
theorem stepFits (h : target.Usable reg) (hreg : reg.WellFormed) (ty ret : Ty) :
    Gives (fun _ => True) (reg.stepFits target ty ret) := by
  cases target with
  | direct storage declared => exact .pure trivial
  | callBased object objectType getter setter args declared =>
    obtain ⟨-, hg, hs, -⟩ := h
    exact (Registry.funcType_gives hreg hs).bind fun _ _ => (Registry.funcType_gives hreg hg).bind fun _ _ => .pure trivial

end Target.Usable

/-! ### Safe steps -/

namespace Check

variable {α β : Type} {P : α → Prop} {Q : β → Prop} {ctx : Context} {node : Node}
variable {x : Check α} {ty : Ty} {f : FuncRef} {reg : Registry} {object : Option Nat} {use : Check MemberUse}
  {analyse : List (Option Ty) → Check (List Ty)} {argNodes : List Node} {target : Check (Option Target)}

/-- From a well-formed state the step ends without a fault in a well-formed state that has kept its slots, and `P` holds of
its answer. -/
def Safe (P : α → Prop) (x : Check α) : Prop :=
  ∀ ⦃s⦄, s.WellFormed → ∃ a s', x s = .ok (a, s') ∧ s'.WellFormed ∧ s.frame.size ≤ s'.frame.size ∧ P a

/-- The step has no answer that anything depends on. -/
abbrev Runs (x : Check α) : Prop := Safe (fun _ => True) x

namespace Safe

/-- An answer is safe. -/
theorem pure {a : α} (h : P a) : Safe P (pure a) := fun s hs => ⟨a, s, rfl, hs, Nat.le_refl _, h⟩

/-- Safe steps compose. -/
theorem bind {f : α → Check β} (hx : Safe P x) (hf : ∀ a, P a → Safe Q (f a)) : Safe Q (x >>= f) := by
  intro s hs
  obtain ⟨a, t, hr, ht, hst, ha⟩ := hx hs
  obtain ⟨b, u, hr', hu, htu, hb⟩ := hf a ha ht
  exact ⟨b, u, bind_eq_ok.2 ⟨a, t, hr, hr'⟩, hu, Nat.le_trans hst htu, hb⟩

/-- Each of several steps is safe. -/
theorem forM {f : α → Check PUnit} : ∀ {l : List α}, (∀ a ∈ l, Runs (f a)) → Runs (l.forM f)
  | [], _ => .pure trivial
  | _ :: _, h => (h _ List.mem_cons_self).bind fun _ _ => forM fun a ha => h a (List.mem_cons_of_mem _ ha)

/-- A look-up that gives an answer. -/
theorem lift {x : Except Fault α} (hx : Gives P x) : Safe P (liftM x : Check α) := by
  obtain ⟨a, hx, ha⟩ := hx
  exact fun s hs => ⟨a, s, lift_eq_ok.2 ⟨hx, rfl⟩, hs, Nat.le_refl _, ha⟩

/-- A step that looks at the state goes on from a well-formed one. -/
theorem get_bind {f : State → Check β} (hf : ∀ s, s.WellFormed → Safe Q (f s)) : Safe Q (get >>= f) := by
  intro s hs
  obtain ⟨b, u, hr, hu, hsu, hb⟩ := hf s hs hs
  exact ⟨b, u, bind_eq_ok.2 ⟨s, s, rfl, hr⟩, hu, hsu, hb⟩

/-- A change that keeps the state in order. -/
theorem modify {f : State → State} (hf : ∀ s, s.WellFormed → (f s).WellFormed ∧ s.frame.size ≤ (f s).frame.size) :
    Runs (modify f) := fun s hs => ⟨(), f s, rfl, (hf s hs).1, (hf s hs).2, trivial⟩

/-- A change of the frame that keeps its slots. -/
theorem modifyFrame {f : Frame → Frame}
    (hf : ∀ g : Frame, g.AllTypes Ty.WellFormed → g.Bounded →
      (f g).AllTypes Ty.WellFormed ∧ (f g).Bounded ∧ g.size ≤ (f g).size) :
    Runs (modifyFrame f) := by
  refine modify fun s hs => ?_
  obtain ⟨ht, hb, hsize⟩ := hf s.frame hs.types.frame hs.bounded
  exact ⟨hs.withFrame ht hb, hsize⟩

end Safe

/-- A report is safe. -/
theorem report_safe (problem : Problem) (node : Node) : Runs (report problem node) :=
  .modify fun _ hs => ⟨⟨⟨hs.types.frame, hs.types.globals, hs.types.nodes, hs.types.templates⟩, hs.bounded, hs.globals, hs.refs⟩,
    Nat.le_refl _⟩

theorem reject_safe (problem : Problem) (node : Node) : Safe Ty.WellFormed (reject problem node) :=
  (report_safe problem node).bind fun _ _ => .pure Ty.wellFormed_unresolved

/-- A well-formed type is noted safely. -/
theorem noteType_safe (ht : ty.WellFormed) : Runs (noteType node ty) :=
  .modify fun _ hs => ⟨hs.setType ht, Nat.le_refl _⟩

/-- So is a note in order. -/
theorem noteInfo_safe {info : NodeInfo} (hi : info.WellFormed) : Runs (noteInfo node info) :=
  .modify fun _ hs => ⟨hs.setInfo hi, Nat.le_refl _⟩

/-- A variable of such a type is declared safely. -/
theorem declareLocal_safe (name : String) (ht : ty.WellFormed) : Runs (declareLocal name ty) := by
  intro s hs
  refine ⟨_, _, declareLocal_apply name ty s, hs.withFrame (hs.types.frame.declare name ht) (hs.bounded.declare name ty), ?_,
    trivial⟩
  rw [Frame.size_declare]
  omega

theorem pushTemplate_safe (kind : TemplateKind) {frame : Frame} (hf : frame.AllTypes Ty.WellFormed) (body : Option Nat) :
    Runs (pushTemplate kind frame body) :=
  fun s hs => ⟨_, _, pushTemplate_apply kind frame body s, hs.push kind hf body, Nat.le_refl _, trivial⟩

/-- A scope is as safe as what is in it. -/
theorem inScope_safe (hx : Safe P x) : Safe P (inScope x) := by
  intro s hs
  obtain ⟨a, t, hr, ht, hst, ha⟩ := hx hs
  exact ⟨a, _, inScope_eq_ok.2 ⟨t, hr, rfl⟩, hs.leave ht hst, hst, ha⟩

theorem inBlock_safe (hx : Safe P x) : Safe P (inBlock x) :=
  inScope_safe ((Safe.modify fun _ hs => ⟨hs.withScope false, Nat.le_refl _⟩).bind fun _ _ => hx)

/-- A body in a frame of its own; the frame that comes back has types in order. -/
theorem inFrame_safe {frame : Frame} (hf : frame.AllTypes Ty.WellFormed) (hb : frame.Bounded) (hx : Safe P x) :
    Safe (fun r => P r.1 ∧ r.2.AllTypes Ty.WellFormed) (inFrame frame x) := by
  intro s hs
  obtain ⟨a, t, hr, ht, -, ha⟩ := hx ((hs.withFrame hf hb).withScope false)
  exact ⟨(a, t.frame), _, inFrame_eq_ok.2 ⟨t, hr, rfl, rfl⟩, hs.resume ht, Nat.le_refl _, ha, ht.types.frame⟩

/-- Noting the type of a value is safe. -/
theorem typed_safe {x : Check Ty} (hx : Safe Ty.WellFormed x) : Safe Ty.WellFormed (typed node x) :=
  hx.bind fun _ ht => (noteType_safe ht).bind fun _ _ => .pure ht

/-- So is asking for a value. -/
theorem valued_safe {x : Check Ty} (hx : Safe Ty.WellFormed x) : Safe Ty.WellFormed (valued node x) := by
  refine hx.bind fun t ht => ?_
  split
  · exact reject_safe _ _
  · exact .pure ht

/-- Comparing types never fails. -/
theorem checkAssignable_safe (expected found : Ty) (node : Node) : Runs (checkAssignable ctx expected found node) := by
  unfold checkAssignable
  split
  · exact .pure trivial
  · split
    · exact (report_safe _ _).bind fun _ _ => .pure trivial
    · split
      · exact .pure trivial
      · exact (report_safe _ _).bind fun _ _ => .pure trivial

/-! ### Notes -/

theorem typeInfo_wellFormed (ht : ty.WellFormed) : (NodeInfo.type ty).WellFormed :=
  ⟨by simpa [NodeInfo.types] using ht, by simp [NodeInfo.refs]⟩

theorem funcInfo_wellFormed (hf : f.Usable reg) : (NodeInfo.func f).WellFormed :=
  ⟨hf.types, by simpa [NodeInfo.refs] using hf.fits⟩

theorem storageInfo_wellFormed {storage : Storage} (hs : storage.WellFormed) : (NodeInfo.storage storage).WellFormed :=
  ⟨hs.types, hs.refs⟩

/-! ### Written types and identifiers -/

theorem resolved_safe {x : Check Ty} (hx : Safe Ty.WellFormed x) : Safe Ty.WellFormed (resolved node x) :=
  hx.bind fun _ ht => (noteInfo_safe (typeInfo_wellFormed ht)).bind fun _ _ => .pure ht

/-- What was found is settled. -/
theorem settle_safe {found : Except Fault (Except Problem Ty)} (hf : Gives Context.FoundWellFormed found) :
    Safe Ty.WellFormed (settle node found) := by
  refine (Safe.lift hf).bind fun r hr => ?_
  cases r with
  | ok t => exact .pure (hr t rfl)
  | error problem => exact reject_safe _ _

mutual

/-- Written types never end in a fault. -/
theorem typeExpr_safe (hctx : ctx.WellFormed) : ∀ e : TypeExpr, Safe Ty.WellFormed (typeExpr ctx e)
  | .named node name args => by
    rw [typeExpr]
    exact resolved_safe ((typeExprs_safe hctx args).bind fun ts ha => settle_safe (Context.namedType_gives hctx ha))
  | .member node parent name args => by
    rw [typeExpr]
    exact resolved_safe ((typeExpr_safe hctx parent).bind fun p hp => (typeExprs_safe hctx args).bind fun ts ha =>
      settle_safe (Context.memberType_gives ctx hp ha))
  | .func node ret params => by
    rw [typeExpr]
    exact resolved_safe ((typeExpr_safe hctx ret).bind fun r hr => (typeExprs_safe hctx params).bind fun ps hp =>
      .pure (Ty.wellFormed_func.2 ⟨hr, hp⟩))
  | .void node => by
    rw [typeExpr]
    exact resolved_safe (.pure Ty.wellFormed_void)
  | .var node => by
    rw [typeExpr]
    exact resolved_safe (reject_safe _ _)

theorem typeExprs_safe (hctx : ctx.WellFormed) : ∀ es : List TypeExpr,
    Safe (fun ts => ∀ t ∈ ts, t.WellFormed) (typeExprs ctx es)
  | [] => by
    rw [typeExprs]
    exact .pure (by simp)
  | e :: es => by
    rw [typeExprs]
    exact (typeExpr_safe hctx e).bind fun t ht => (typeExprs_safe hctx es).bind fun ts hts =>
      .pure (List.forall_mem_cons.2 ⟨ht, hts⟩)

end

/-- A name always has a meaning that can be used. -/
theorem lookup_safe (hctx : ctx.WellFormed) (name : String) {args : List Ty} (ha : ∀ t ∈ args, t.WellFormed)
    (allowPartial : Bool) : Safe (Meaning.Usable ctx.registry) (lookup ctx name args allowPartial) :=
  .get_bind fun _ hs =>
    .lift (Context.lookup_gives hctx hs.types.frame hs.bounded hs.types.globals hs.globals ha)

/-- A function that can be used is a value. -/
theorem funcValue_safe (hctx : ctx.WellFormed) (hf : f.Usable ctx.registry) : Safe Ty.WellFormed (funcValue ctx node f) := by
  unfold funcValue
  split
  · exact reject_safe _ _
  · refine (Safe.lift (Registry.funcType_gives hctx.registry hf)).bind fun sig hsig =>
      (noteInfo_safe (funcInfo_wellFormed hf)).bind fun _ _ => .pure ?_
    obtain ⟨hr, hp⟩ := List.forall_mem_cons.1 hsig
    exact Ty.wellFormed_func.2 ⟨hr, hp⟩

/-- A meaning that can be used has a value. -/
theorem identifierValue_safe (hctx : ctx.WellFormed) (name : String) {meaning : Meaning} (hm : meaning.Usable ctx.registry) :
    Safe Ty.WellFormed (identifierValue ctx node name meaning) := by
  cases meaning with
  | var storage ty declared =>
    obtain ⟨ht, -, hs⟩ := hm
    exact (noteInfo_safe (storageInfo_wellFormed hs)).bind fun _ _ => .pure ht
  | func f => exact funcValue_safe hctx hm
  | type ty => exact reject_safe _ _
  | notFound => exact reject_safe _ _
  | ambiguous count => exact reject_safe _ _

/-- A name has a well-formed type. -/
theorem identifier_safe (hctx : ctx.WellFormed) (name : String) (typeArgs : List TypeExpr) :
    Safe Ty.WellFormed (identifier ctx node name typeArgs) :=
  (typeExprs_safe hctx typeArgs).bind fun _ ha => (lookup_safe hctx name ha false).bind fun _ hm =>
    identifierValue_safe hctx name hm

/-! ### Operators -/

/-- Operators give well-formed types. -/
theorem rule_wellFormed (ctx : Context) (op : BinaryOp) (l r : Ty) : (op.rule ctx l r).2.WellFormed := by
  cases op with
  | add =>
    simp only [BinaryOp.rule]
    split <;> simp
  | _ => simp [BinaryOp.rule]

/-- An operator between safe operands is safe. -/
theorem binary_safe {op : BinaryOp} {left right : Check Ty} (hl : Safe Ty.WellFormed left) (hr : Safe Ty.WellFormed right) :
    Safe Ty.WellFormed (binary ctx node op left right) := by
  refine hl.bind fun l _ => hr.bind fun r _ => ?_
  have hrule := rule_wellFormed ctx op l r
  dsimp only
  split
  · refine .pure ?_
    split
    · exact hrule
    · exact Ty.wellFormed_unresolved
  · split
    · exact .pure hrule
    · exact (report_safe _ _).bind fun _ _ => .pure hrule

theorem plainUnary_safe {op : UnaryOp} {operand : Check Ty} (ho : Safe Ty.WellFormed operand) :
    Safe Ty.WellFormed (plainUnary node op operand) := by
  have hty : op.operandType.WellFormed := by cases op <;> simp [UnaryOp.operandType]
  refine ho.bind fun t _ => ?_
  split
  · exact (report_safe _ _).bind fun _ _ => .pure hty
  · exact .pure hty

/-- A test of a safe value is safe. -/
theorem isTest_safe (hctx : ctx.WellFormed) {value : Check Ty} {ty : TypeExpr} (hv : Safe Ty.WellFormed value) :
    Safe Ty.WellFormed (isTest ctx node value ty) := by
  refine hv.bind fun _ _ => (typeExpr_safe hctx ty).bind fun t ht => ?_
  have hbool := Builtin.bool_wellFormed
  split
  · refine (noteInfo_safe ⟨?_, ?_⟩).bind fun _ _ => .pure hbool
    · simpa [NodeInfo.types] using ht
    · simp [NodeInfo.refs]
  · exact .pure hbool
  · exact (report_safe _ _).bind fun _ _ => .pure hbool

/-! ### Members and elements -/

/-- What stands before a dot is well formed. -/
theorem receiver_safe (hctx : ctx.WellFormed) {object : Expr} {asValue : Check Ty} (hv : Safe Ty.WellFormed asValue) :
    Safe Receiver.WellFormed (receiver ctx object asValue) := by
  have hplain : Safe Receiver.WellFormed (do return .value (← valued object.node asValue)) :=
    (valued_safe hv).bind fun t ht => .pure ht
  cases object with
  | identifier node name typeArgs =>
    refine (typeExprs_safe hctx typeArgs).bind fun args ha => (lookup_safe hctx name ha false).bind fun meaning hm => ?_
    split
    · exact (noteInfo_safe (typeInfo_wellFormed hm)).bind fun _ _ => .pure hm
    · exact (typed_safe (identifierValue_safe hctx name hm)).bind fun t ht => .pure ht
  | _ => exact hplain

/-- A member that is found can be used. -/
theorem useMember_safe (hctx : ctx.WellFormed) {name : Name} {found : MemberRef}
    (ht : ty.WellFormed) (hf : found.Usable ctx.registry) :
    Safe (MemberUse.Usable ctx.registry) (useMember ctx node object ty name found) := by
  refine (Safe.lift (Registry.isStatic_gives hf)).bind fun isStatic _ => ?_
  split
  · exact (report_safe _ _).bind fun _ _ => .pure trivial
  · cases found with
    | var v =>
      refine (Safe.lift (Registry.varType_gives hctx.registry hf)).bind fun varTy hvar => ?_
      cases object with
      | some object => exact .pure ⟨⟨by simpa [Storage.types] using ht, by simp [Storage.refs]⟩, hvar⟩
      | none => exact .pure ⟨⟨by simpa [Storage.types] using hf.types, by simpa [Storage.refs] using hf.fits⟩, hvar⟩
    | func f => exact .pure hf

/-- A member is looked up safely. -/
theorem memberOf_safe (hctx : ctx.WellFormed) {name : Name} {args : List Ty}
    (ht : ty.WellFormed) (ha : ∀ t ∈ args, t.WellFormed) :
    Safe (MemberUse.Usable ctx.registry) (memberOf ctx node object ty name args) := by
  unfold memberOf
  split
  · exact .pure trivial
  · split
    · exact .pure ⟨⟨by simp [Storage.types], by simp [Storage.refs]⟩, ht⟩
    · refine (Safe.lift (Registry.member_gives hctx.registry ht ha)).bind fun r hr => ?_
      cases r with
      | ok found => exact useMember_safe hctx ht (hr found rfl)
      | error e => exact (report_safe _ _).bind fun _ _ => .pure trivial
  · exact (report_safe _ _).bind fun _ _ => .pure trivial

/-- So is one after a dot. -/
theorem memberUse_safe (hctx : ctx.WellFormed) {object : Node} {receiver : Check Receiver} {name : String}
    {typeArgs : List TypeExpr} (hr : Safe Receiver.WellFormed receiver) :
    Safe (MemberUse.Usable ctx.registry) (memberUse ctx node object receiver name typeArgs) := by
  refine hr.bind fun r hr => (typeExprs_safe hctx typeArgs).bind fun args ha => ?_
  cases r with
  | type ty => exact memberOf_safe hctx hr ha
  | value ty => exact memberOf_safe hctx hr ha

/-- A member has a well-formed type. -/
theorem memberValue_safe (hctx : ctx.WellFormed) (hu : Safe (MemberUse.Usable ctx.registry) use) :
    Safe Ty.WellFormed (memberValue ctx node use) := by
  refine hu.bind fun u hu => ?_
  cases u with
  | storage storage ty => exact (noteInfo_safe (storageInfo_wellFormed hu.1)).bind fun _ _ => .pure hu.2
  | func f object => exact funcValue_safe hctx hu
  | unresolved => exact .pure Ty.wellFormed_unresolved

/-- The functions that read and write elements can be used, where there are any. -/
def AccessorsUsable (reg : Registry) (found : Option (Option FuncRef × Option FuncRef)) : Prop :=
  ∀ p ∈ found, (∀ f ∈ p.1, f.Usable reg) ∧ ∀ f ∈ p.2, f.Usable reg

/-- Accessors that are found can be used. -/
theorem indexerOf_safe (hctx : ctx.WellFormed) (ht : ty.WellFormed) :
    Safe (AccessorsUsable ctx.registry) (indexerOf ctx node ty) := by
  have hnone : AccessorsUsable ctx.registry none := by simp [AccessorsUsable]
  unfold indexerOf
  split
  · exact .pure hnone
  · refine (Safe.lift (Registry.method?_gives hctx.registry ht)).bind fun getter hg =>
      (Safe.lift (Registry.method?_gives hctx.registry ht)).bind fun setter hset => ?_
    split
    · exact (report_safe _ _).bind fun _ _ => .pure hnone
    · refine .pure fun p hp => ?_
      rw [Option.mem_some_iff] at hp
      exact hp ▸ ⟨hg, hset⟩
  · exact (report_safe _ _).bind fun _ _ => .pure hnone

/-! ### Calls -/

theorem checkEach_safe : ∀ (params : List Ty) (args : List Argument), Runs (checkEach ctx params args)
  | [], _ => by
    rw [checkEach.eq_def]
    exact .pure trivial
  | _ :: _, [] => by
    rw [checkEach.eq_def]
    exact .pure trivial
  | p :: ps, a :: as => by
    rw [checkEach]
    exact (checkAssignable_safe _ _ _).bind fun _ _ => (checkEach_safe ps as).bind fun _ _ => .pure trivial

/-- Arguments are checked safely. -/
theorem checkArgs_safe (node : Node) (params : List Ty) (args : List Argument) : Runs (checkArgs ctx node params args) := by
  unfold checkArgs
  split
  · exact checkEach_safe _ _
  · exact (report_safe _ _).bind fun _ _ => .pure trivial

/-- Inferred type arguments give a function that can be used. -/
theorem inferTypeArgs_safe {params : List Ty} {args : List Argument} (hf : f.Usable reg)
    (ha : ∀ t ∈ args.map (·.ty), t.WellFormed) :
    Safe (fun found => ∀ g ∈ found, g.Usable reg) (inferTypeArgs node f params args) := by
  unfold inferTypeArgs
  split
  · exact .pure (by simpa using hf)
  · refine (Safe.lift (FuncRef.inferFrom_gives hf ha)).bind fun g hg => ?_
    split
    · exact .pure (by simpa using hg)
    · split
      · exact (report_safe _ _).bind fun _ _ => .pure (by simp)
      · exact .pure (by simp)

/-- A function is called safely. -/
theorem callFunc_safe (hctx : ctx.WellFormed) {callee : Node} (hf : f.Usable ctx.registry)
    (ha : ∀ hints, (∀ hint ∈ hints, ∀ t ∈ hint, t.WellFormed) → Safe (fun ts => ∀ t ∈ ts, t.WellFormed) (analyse hints)) :
    Safe Ty.WellFormed (callFunc ctx node callee f object argNodes analyse) := by
  refine (Safe.lift (Registry.funcType_gives hctx.registry hf)).bind fun written hw => ?_
  have hhints := f.hints_types (List.forall_mem_cons.1 hw).2
  refine (ha _ hhints).bind fun types htypes => ?_
  have hargs : ∀ t ∈ (Argument.zip argNodes types).map (·.ty), t.WellFormed :=
    fun t ht => htypes t (Argument.zip_types_subset _ _ ht)
  refine (inferTypeArgs_safe hf hargs).bind fun found hfound => ?_
  cases found with
  | none => exact (noteType_safe Ty.wellFormed_unresolved).bind fun _ _ => .pure Ty.wellFormed_unresolved
  | some g =>
    have hg := hfound g rfl
    refine (Safe.lift (Registry.funcType_gives hctx.registry hg)).bind fun sig hsig => ?_
    obtain ⟨hr, hp⟩ := List.forall_mem_cons.1 hsig
    have hcall : (NodeInfo.call g object).WellFormed := ⟨hg.types, by simpa [NodeInfo.refs] using hg.fits⟩
    exact (checkArgs_safe _ _ _).bind fun _ _ => (noteType_safe (Ty.wellFormed_func.2 ⟨hr, hp⟩)).bind fun _ _ =>
      (noteInfo_safe (funcInfo_wellFormed hg)).bind fun _ _ => (noteInfo_safe hcall).bind fun _ _ => .pure hr

/-- So is a value. -/
theorem callValue_safe (ht : ty.WellFormed)
    (ha : ∀ hints, (∀ hint ∈ hints, ∀ t ∈ hint, t.WellFormed) → Safe (fun ts => ∀ t ∈ ts, t.WellFormed) (analyse hints)) :
    Safe Ty.WellFormed (callValue ctx node ty argNodes analyse) := by
  have hnothing := ha [] (by simp)
  unfold callValue
  split
  · exact hnothing.bind fun _ _ => .pure Ty.wellFormed_unresolved
  · rename_i ret params
    obtain ⟨hr, hp⟩ := Ty.wellFormed_func.1 ht
    have hinfo : NodeInfo.callValue.WellFormed := ⟨by simp [NodeInfo.types], by simp [NodeInfo.refs]⟩
    exact (ha (params.map some) (by simpa using hp)).bind fun _ _ => (checkArgs_safe _ _ _).bind fun _ _ =>
      (noteInfo_safe hinfo).bind fun _ _ => .pure hr
  · exact (report_safe _ _).bind fun _ _ => hnothing.bind fun _ _ => .pure Ty.wellFormed_unresolved

/-- What a name calls can be used. -/
theorem identifierCallable_safe (hctx : ctx.WellFormed) (name : String) (typeArgs : List TypeExpr) :
    Safe (Callable.Usable ctx.registry) (identifierCallable ctx node name typeArgs) := by
  refine (typeExprs_safe hctx typeArgs).bind fun args ha => (lookup_safe hctx name ha true).bind fun meaning hm => ?_
  split
  · exact .pure hm
  · exact (typed_safe (identifierValue_safe hctx name hm)).bind fun t ht => .pure ht

/-- So can what a member calls. -/
theorem memberCallable_safe (hu : Safe (MemberUse.Usable reg) use) : Safe (Callable.Usable reg) (memberCallable node use) := by
  refine hu.bind fun u hu => ?_
  cases u with
  | func f object => exact .pure hu
  | storage storage ty =>
    exact (noteInfo_safe (storageInfo_wellFormed hu.1)).bind fun _ _ => (noteType_safe hu.2).bind fun _ _ => .pure hu.2
  | unresolved => exact (noteType_safe Ty.wellFormed_unresolved).bind fun _ _ => .pure trivial

/-- A call has a well-formed type. -/
theorem call_safe (hctx : ctx.WellFormed) {callee : Node} {callable : Check Callable}
    (hc : Safe (Callable.Usable ctx.registry) callable)
    (ha : ∀ hints, (∀ hint ∈ hints, ∀ t ∈ hint, t.WellFormed) → Safe (fun ts => ∀ t ∈ ts, t.WellFormed) (analyse hints)) :
    Safe Ty.WellFormed (call ctx node callee callable argNodes analyse) := by
  refine hc.bind fun c hc => ?_
  cases c with
  | func f object => exact callFunc_safe hctx hc ha
  | value ty => exact callValue_safe hc ha
  | unresolved => exact (ha [] (by simp)).bind fun _ _ => .pure Ty.wellFormed_unresolved

/-- So has an element. -/
theorem elementValue_safe (hctx : ctx.WellFormed) {indexNode : Node} {object index : Check Ty}
    (ho : Safe Ty.WellFormed object) (hi : Safe Ty.WellFormed index) :
    Safe Ty.WellFormed (elementValue ctx node indexNode object index) := by
  refine ho.bind fun o ho => hi.bind fun i _ => (indexerOf_safe hctx ho).bind fun found hfound => ?_
  split
  · exact .pure Ty.wellFormed_unresolved
  · exact reject_safe _ _
  · rename_i getter setter
    have hg : getter.Usable ctx.registry := (hfound _ rfl).1 getter rfl
    refine (Safe.lift (Registry.funcType_gives hctx.registry hg)).bind fun sig hsig => ?_
    have hinfo : (NodeInfo.indexer getter).WellFormed := ⟨hg.types, by simpa [NodeInfo.refs] using hg.fits⟩
    exact (checkArgs_safe _ _ _).bind fun _ _ => (noteInfo_safe hinfo).bind fun _ _ => .pure (List.forall_mem_cons.1 hsig).1

/-! ### Assignments and steps -/

/-- The target can be read and written, if there is one. -/
def FoundUsable (reg : Registry) (found : Option Target) : Prop := ∀ target ∈ found, target.Usable reg

theorem foundUsable_none (reg : Registry) : FoundUsable reg none := by simp [FoundUsable]

theorem foundUsable_some {target : Target} (h : target.Usable reg) : FoundUsable reg (some target) := by
  simpa [FoundUsable] using h

/-- An operator has a signature. -/
theorem operatorSignature_gives (hctx : ctx.WellFormed) {operator : FuncRef} (ho : operator.Usable ctx.registry) :
    Gives (fun _ => True) (ctx.registry.operatorSignature operator) := by
  refine (Registry.funcRecord_gives ho).bind fun record _ => ?_
  split
  · exact .pure trivial
  · exact (Registry.funcType_gives hctx.registry ho).bind fun _ _ => .pure trivial

theorem written_safe (target : Target) : Runs (written target) := by
  cases target with
  | direct storage ty =>
    exact Safe.modifyFrame fun f ht hb => ⟨ht.widen storage, hb, Nat.le_refl _⟩
  | callBased _ _ _ _ _ _ => exact .pure trivial

theorem notAssignable_safe (reg : Registry) (node : Node) : Safe (FoundUsable reg) (notAssignable node) :=
  (report_safe _ _).bind fun _ _ => .pure (foundUsable_none reg)

/-- A name that is assigned to can be used. -/
theorem identifierTarget_safe (hctx : ctx.WellFormed) (name : String) (typeArgs : List TypeExpr) :
    Safe (FoundUsable ctx.registry) (identifierTarget ctx node name typeArgs) := by
  refine (typeExprs_safe hctx typeArgs).bind fun args ha => (lookup_safe hctx name ha false).bind fun meaning hm => ?_
  have hun : Safe (FoundUsable ctx.registry) (do noteType node .unresolved; notAssignable node) :=
    (noteType_safe Ty.wellFormed_unresolved).bind fun _ _ => notAssignable_safe _ _
  split
  · obtain ⟨ht, hd, hs⟩ := hm
    exact (noteInfo_safe (storageInfo_wellFormed hs)).bind fun _ _ => (noteType_safe ht).bind fun _ _ =>
      .pure (foundUsable_some ⟨hs, hd⟩)
  · exact hun
  · exact hun
  · exact (typed_safe (identifierValue_safe hctx name hm)).bind fun _ _ => .pure (foundUsable_none _)

/-- So can a member. -/
theorem memberTarget_safe (hu : Safe (MemberUse.Usable reg) use) : Safe (FoundUsable reg) (memberTarget node use) := by
  refine hu.bind fun u hu => ?_
  have hun : Safe (FoundUsable reg) (do noteType node .unresolved; notAssignable node) :=
    (noteType_safe Ty.wellFormed_unresolved).bind fun _ _ => notAssignable_safe _ _
  cases u with
  | storage storage ty =>
    dsimp only
    split
    · exact (noteInfo_safe (storageInfo_wellFormed hu.1)).bind fun _ _ => (noteType_safe hu.2).bind fun _ _ =>
        .pure (foundUsable_some hu)
    · exact hun
  | func f object => exact hun
  | unresolved => exact (noteType_safe Ty.wellFormed_unresolved).bind fun _ _ => .pure (foundUsable_none reg)

/-- So can accessors of an element. -/
theorem accessorTarget_safe (hctx : ctx.WellFormed) {objectNode indexNode : Node} {objectTy indexTy : Ty}
    {getter setter : FuncRef} (ho : objectTy.WellFormed) (hg : getter.Usable ctx.registry) (hs : setter.Usable ctx.registry) :
    Safe (FoundUsable ctx.registry) (accessorTarget ctx node objectNode indexNode objectTy indexTy getter setter) := by
  refine (Safe.lift (Registry.funcType_gives hctx.registry hg)).bind fun reads hr =>
    (Safe.lift (Registry.funcType_gives hctx.registry hs)).bind fun writes _ => (checkArgs_safe _ _ _).bind fun fits _ => ?_
  have hret := (List.forall_mem_cons.1 hr).1
  split
  · exact .pure (foundUsable_none _)
  · split
    · exact (report_safe _ _).bind fun _ _ => .pure (foundUsable_none _)
    · exact (noteType_safe hret).bind fun _ _ => .pure (foundUsable_some ⟨ho, hg, hs, hret⟩)

/-- So can an element. -/
theorem elementTarget_safe (hctx : ctx.WellFormed) {objectNode indexNode : Node} {object index : Check Ty}
    (ho : Safe Ty.WellFormed object) (hi : Safe Ty.WellFormed index) :
    Safe (FoundUsable ctx.registry) (elementTarget ctx node objectNode indexNode object index) := by
  refine ho.bind fun o ho => hi.bind fun i _ => (noteType_safe Ty.wellFormed_unresolved).bind fun _ _ =>
    (indexerOf_safe hctx ho).bind fun found hfound => ?_
  split
  · exact .pure (foundUsable_none _)
  · obtain ⟨hg, hs⟩ := hfound _ rfl
    exact accessorTarget_safe hctx ho (hg _ rfl) (hs _ rfl)
  · exact (report_safe _ _).bind fun _ _ => .pure (foundUsable_none _)
  · exact (report_safe _ _).bind fun _ _ => .pure (foundUsable_none _)

/-- An assignment is safe. -/
theorem assign_safe (hctx : ctx.WellFormed) {valueNode : Node} {value : Option Ty → Check Ty}
    (ht : Safe (FoundUsable ctx.registry) target) (hv : ∀ hint, (∀ t ∈ hint, t.WellFormed) → Safe Ty.WellFormed (value hint)) :
    Safe Ty.WellFormed (assign ctx node valueNode target value) := by
  refine ht.bind fun found hfound => ?_
  cases found with
  | none => exact (hv none (by simp)).bind fun _ _ => .pure Ty.wellFormed_unresolved
  | some target =>
    have htarget := hfound target rfl
    have hinfo : (NodeInfo.assign target).WellFormed := ⟨htarget.types, htarget.refs⟩
    refine (Safe.lift (htarget.storedType hctx.registry)).bind fun expected he => ?_
    exact (hv (some expected) (by simpa using he)).bind fun _ _ => (checkAssignable_safe _ _ _).bind fun _ _ =>
      (written_safe target).bind fun _ _ => (noteInfo_safe hinfo).bind fun _ _ => .pure htarget.ty

/-- A place is stepped safely. -/
theorem stepTarget_safe (hctx : ctx.WellFormed) {op : StepOp} {before : Bool} {target : Target}
    (ht : target.Usable ctx.registry) : Safe Ty.WellFormed (stepTarget ctx node op before target) := by
  unfold stepTarget
  dsimp only
  split
  · exact .pure Ty.wellFormed_unresolved
  · refine (Safe.lift (Registry.method?_gives hctx.registry ht.ty)).bind fun found hfound => ?_
    cases found with
    | none => exact reject_safe _ _
    | some operator =>
      have hop := hfound operator rfl
      refine (Safe.lift (operatorSignature_gives hctx hop)).bind fun sig _ => ?_
      obtain ⟨count, ret⟩ := sig
      dsimp only
      split
      · exact reject_safe _ _
      · refine (Safe.lift (ht.stepFits hctx.registry _ ret)).bind fun fits _ => ?_
        split
        · refine (written_safe target).bind fun _ _ => (noteInfo_safe ⟨?_, ?_⟩).bind fun _ _ => .pure ht.ty
          · exact List.forall_mem_append.2 ⟨ht.types, hop.types⟩
          · exact List.forall_mem_append.2 ⟨ht.refs, by simpa using hop.fits⟩
        · exact reject_safe _ _

theorem step_safe (hctx : ctx.WellFormed) {op : StepOp} {before : Bool}
    (ht : Safe (FoundUsable ctx.registry) target) : Safe Ty.WellFormed (step ctx node op before target) := by
  refine ht.bind fun found hfound => ?_
  cases found with
  | none => exact .pure Ty.wellFormed_unresolved
  | some target => exact stepTarget_safe hctx (hfound target rfl)

/-- A unary operator is safe. -/
theorem unary_safe (hctx : ctx.WellFormed) {op : UnaryOp} {operand : Check Ty}
    (ht : Safe (FoundUsable ctx.registry) target) (ho : Safe Ty.WellFormed operand) :
    Safe Ty.WellFormed (unary ctx node op target operand) := by
  cases op with
  | step op before => exact step_safe hctx ht
  | neg => exact plainUnary_safe ho
  | not => exact plainUnary_safe ho

end Check

end ScriptCheck
