import ScriptCheck.Proofs.StateInvariants

/-!
# Standards for what is found

Everything that an analysis notes comes from look-ups. A standard says which types may be met in a context and which functions
may be found there, and it lists what the look-ups have to promise for that. Then a quiet run that starts in a state which
meets the standard ends in such a state, with an answer that meets it too; a step of which this holds is `Sound`. Here it is
shown for each rule, given that it holds for the parts of the rule. That a type is unknown comes from another unknown type or
with a diagnostic, so no rule needs to be told whether unknown types meet the standard.
-/

namespace ScriptCheck

/-- Every quiet run of the step makes only notes that may be made, with an answer of which `P` holds. -/
def Ledger.Writes {α : Type} (L : Ledger) (P : α → Prop) (x : Check α) : Prop :=
  ∀ ⦃s a s'⦄, Check.Quiet x s a s' → L.Holds s.nodes → L.Holds s'.nodes ∧ P a

/-- The function's arguments have the property, and it may be referred to. -/
def FuncRef.Meets (Q : Ty → Prop) (L : Ledger) (f : FuncRef) : Prop := (∀ t ∈ f.types, Q t) ∧ L.bound f

/-- The types that the meaning mentions have the property, or it is such a function. -/
def Meaning.Meets (Q : Ty → Prop) (F : FuncRef → Prop) : Meaning → Prop
  | .var storage ty declared => ∀ t ∈ ty :: declared :: storage.types, Q t
  | .func f => F f
  | .type ty => Q ty
  | .notFound => True
  | .ambiguous _ => True

/-- The variable's arguments and its type have the property, or the member is such a function. -/
def MemberRef.Meets (reg : Registry) (Q : Ty → Prop) (F : FuncRef → Prop) : MemberRef → Prop
  | .var v => (∀ t ∈ v.types, Q t) ∧ ∀ t, reg.varType v = .ok t → Q t
  | .func f => F f

/-- What written types may mean in a context, given what may be noted. -/
structure Naming (L : Ledger) (ctx : Context) where
  /-- The types that may be met. -/
  ty : Ty → Prop
  composed : Ty.Composed ty
  named : ∀ {name : String} {args : List Ty} {t : Ty}, (∀ a ∈ args, ty a) → ctx.namedType name args = .ok (.ok t) → ty t
  nested : ∀ {parent : Ty} {name : String} {args : List Ty} {t : Ty}, ty parent → (∀ a ∈ args, ty a) →
    ctx.memberType parent name args = .ok (.ok t) → ty t

/-- What may be found in a context, given what may be noted. -/
structure Standard (L : Ledger) (ctx : Context) extends Naming L ctx where
  /-- The functions that may be found, some of their own type parameters perhaps still open. -/
  found : FuncRef → Prop
  kept : ∀ {t : Ty}, ty t → L.kept t
  lookup : ∀ {frame : Frame} {globals : PrivateGlobals} {name : String} {args : List Ty} {allowPartial : Bool}
    {meaning : Meaning}, frame.AllTypes ty → (∀ t ∈ globals.slots, ty t) → (∀ a ∈ args, ty a) →
    ctx.lookup frame globals name args allowPartial = .ok meaning → meaning.Meets ty found
  member : ∀ {receiver : Ty} {name : Name} {args : List Ty} {m : MemberRef}, ty receiver → (∀ a ∈ args, ty a) →
    ctx.member receiver name args = .ok (.ok m) → m.Meets ctx.registry ty found
  /-- A function with a reserved name is used as it is found. -/
  reserved : ∀ {receiver : Ty} {name : Name} {f : FuncRef}, name.written? = none → ty receiver →
    ctx.method? receiver name = .ok (some f) → f.Meets ty L
  signature : ∀ {f : FuncRef} {sig : Signature}, f.Meets ty L → ctx.registry.funcType f = .ok sig → ∀ t ∈ sig.types, ty t
  hints : ∀ {f : FuncRef} {sig : Signature}, found f → ctx.registry.funcType f = .ok sig →
    ∀ hint ∈ f.hints sig.params, ∀ t ∈ hint, ty t
  completes : ∀ {f g : FuncRef} {sig : Signature} {args : List Ty}, found f → ctx.registry.funcType f = .ok sig →
    (∀ a ∈ args, ty a) → f.Completes sig.params args g → g.Meets ty L

namespace Naming

variable {L : Ledger} {ctx : Context}
variable {t : Ty}

instance (d : Naming L ctx) : Ty.Composed d.ty := d.composed

/-- At the node just those types may be mentioned that may be met. -/
def At (d : Naming L ctx) (n : Nat) : Prop := ∀ t, L.noted n t ↔ d.ty t

/-- The same at each of several nodes. -/
def Here (d : Naming L ctx) (ids : List Nat) : Prop := ∀ n ∈ ids, d.At n

/-- A hint meets the standard, if there is one. -/
def Hint (d : Naming L ctx) (hint : Option Ty) : Prop := ∀ t ∈ hint, d.ty t

/-- Every type of a list meets the standard. -/
def All (d : Naming L ctx) (ts : List Ty) : Prop := ∀ t ∈ ts, d.ty t

variable {d : Naming L ctx}

/-- Node by node. -/
@[simp] theorem here_cons {n : Nat} {ids : List Nat} : d.Here (n :: ids) ↔ d.At n ∧ d.Here ids := List.forall_mem_cons

/-- Part by part. -/
@[simp] theorem here_append {ids ids' : List Nat} : d.Here (ids ++ ids') ↔ d.Here ids ∧ d.Here ids' :=
  List.forall_mem_append

/-- No hint is a good hint. -/
@[simp] theorem hint_none : d.Hint none := by simp [Hint]

/-- A hint is as good as its type. -/
@[simp] theorem hint_some : d.Hint (some t) ↔ d.ty t := by simp [Hint]

/-- Type by type. -/
theorem all_cons {ts : List Ty} : d.All (t :: ts) ↔ d.ty t ∧ d.All ts := List.forall_mem_cons

/-- The types of literals meet every standard. -/
theorem builtin (h : t = Builtin.int ∨ t = Builtin.bool ∨ t = Builtin.string) : d.ty t := by
  rcases h with rfl | rfl | rfl <;> exact Ty.Composed.made rfl (by simp)

/-- Conditions may be met anywhere. -/
@[simp] theorem bool : d.ty Builtin.bool := d.builtin (.inr (.inl rfl))

end Naming

namespace Standard

variable {α : Type} {L : Ledger} {ctx : Context}

/-- Every quiet run of the step from a state that meets the standard ends in one, with an answer of which `P` holds. -/
def Sound (d : Standard L ctx) (P : α → Prop) (x : Check α) : Prop :=
  ∀ ⦃s a s'⦄, Check.Quiet x s a s' → s.Meets d.ty L → s'.Meets d.ty L ∧ P a

variable {d : Standard L ctx} {node : Node}

/-- A type that may be met may be noted. -/
theorem noteType {s : State} {t : Ty} (hn : d.At node.id) (hs : s.Meets d.ty L) (ht : d.ty t) :
    (s.setType node t).Meets d.ty L := hs.setType ((hn t).2 ht)

/-- What may be mentioned may be noted. -/
theorem noteInfo {s : State} {info : NodeInfo} (hn : d.At node.id) (hs : s.Meets d.ty L) (ht : ∀ t ∈ info.types, d.ty t)
    (hf : ∀ f ∈ info.funcs, L.bound f) : (s.setInfo node info).Meets d.ty L :=
  hs.setInfo (fun t h => (hn t).2 (ht t h)) hf

/-- A step that only makes notes leaves the variables and the templates alone. -/
theorem sound_of_writes {P : α → Prop} {x : Check α} {R : NodeInfo → Prop} {ids : List Nat} (h : L.Writes P x)
    (hx : Check.Keeps (Notes R ids) x) : d.Sound P x := by
  intro s a s' hq hs
  obtain ⟨hnodes, ha⟩ := h hq hs.nodes
  have hn := hx hq.run
  exact ⟨⟨hn.frame ▸ hs.frame, hn.globals ▸ hs.globals, hnodes, hn.templates ▸ hs.templates⟩, ha⟩

/-- What stands before a dot meets the standard. -/
def Before (d : Standard L ctx) : Receiver → Prop
  | .type ty => d.ty ty
  | .value ty => d.ty ty

/-- A member that is used meets the standard; it is unknown only after something unknown. -/
def Use (d : Standard L ctx) : MemberUse → Prop
  | .storage place ty => ∀ t ∈ ty :: place.types, d.ty t
  | .func f _ => d.found f
  | .unresolved => d.ty .unresolved

/-- What is called meets the standard. -/
def Called (d : Standard L ctx) : Callable → Prop
  | .func f _ => d.found f
  | .value ty => d.ty ty
  | .unresolved => d.ty .unresolved

/-- A target meets the standard, and so does what can be stored there. -/
def Assigned (d : Standard L ctx) : Option Target → Prop
  | some target => (∀ t ∈ target.types, d.ty t) ∧ (∀ f ∈ target.funcs, L.bound f) ∧
      ∀ t, ctx.registry.storedType target = .ok t → d.ty t
  | none => d.ty .unresolved

end Standard

namespace Check

variable {α : Type} {L : Ledger} {ctx : Context} {d : Standard L ctx} {node : Node}
variable {ids : List Nat} {P : α → Prop} {f : FuncRef} {name : String} {typeArgs : List TypeExpr} {value : Check Ty}
  {ty : TypeExpr} {object : Option Nat} {use : Check MemberUse} {analyse : List (Option Ty) → Check (List Ty)}
  {argNodes : List Node} {target : Check (Option Target)}

/-- An answer of which `P` holds is sound. -/
theorem pure_sound {a : α} (ha : P a) : d.Sound P (pure a) := by
  intro s b s' h hs
  obtain ⟨rfl, rfl, -⟩ := quiet_pure.1 h
  exact ⟨hs, ha⟩

/-- Noting the type of a value is sound. -/
theorem typed_sound {x : Check Ty} (hn : d.At node.id) (hx : d.Sound d.ty x) : d.Sound d.ty (typed node x) := by
  intro s t s' h hs
  obtain ⟨u, hu, rfl⟩ := quiet_typed.1 h
  obtain ⟨hu, ht⟩ := hx hu hs
  exact ⟨d.noteType hn hu ht, ht⟩

/-- So is asking for a value. -/
theorem valued_sound {x : Check Ty} (hx : d.Sound d.ty x) : d.Sound d.ty (valued node x) := by
  intro s t s' h hs
  exact hx (quiet_valued.1 h).1 hs

/-! ### Written types and identifiers -/

/-- Nothing is noted on the way to an answer. -/
theorem pure_writes {a : α} (ha : P a) : L.Writes P (pure a) := by
  intro s b s' h hs
  obtain ⟨rfl, rfl, -⟩ := quiet_pure.1 h
  exact ⟨hs, ha⟩

/-- What a written type means may be noted. -/
theorem setInfo_type_holds {d : Naming L ctx} {s : State} {t : Ty} (hn : d.At node.id) (hs : L.Holds s.nodes) (ht : d.ty t) :
    L.Holds (s.setInfo node (.type t)).nodes :=
  hs.setInfo (by simpa [NodeInfo.types] using (hn t).2 ht) (by simp [NodeInfo.funcs])

mutual

/-- What a written type means meets the standard. -/
theorem typeExpr_writes (d : Naming L ctx) : ∀ e : TypeExpr, d.Here e.ids → L.Writes d.ty (typeExpr ctx e)
  | .named node name args, hn => by
    rw [TypeExpr.ids, Naming.here_cons] at hn
    intro s t s' h hs
    obtain ⟨tys, u, ha, ht, rfl⟩ := h.typeExpr_named
    obtain ⟨hu, ha⟩ := typeExprs_writes d args hn.2 ha hs
    have ht := d.named ha ht
    exact ⟨setInfo_type_holds hn.1 hu ht, ht⟩
  | .member node parent name args, hn => by
    rw [TypeExpr.ids, Naming.here_cons, Naming.here_append] at hn
    intro s t s' h hs
    obtain ⟨p, u, tys, v, hp, ha, ht, rfl⟩ := h.typeExpr_member
    obtain ⟨hu, hp⟩ := typeExpr_writes d parent hn.2.1 hp hs
    obtain ⟨hv, ha⟩ := typeExprs_writes d args hn.2.2 ha hu
    have ht := d.nested hp ha ht
    exact ⟨setInfo_type_holds hn.1 hv ht, ht⟩
  | .func node ret params, hn => by
    rw [TypeExpr.ids, Naming.here_cons, Naming.here_append] at hn
    intro s t s' h hs
    obtain ⟨r, u, ps, v, hr, hp, rfl, rfl⟩ := h.typeExpr_func
    obtain ⟨hu, hr⟩ := typeExpr_writes d ret hn.2.1 hr hs
    obtain ⟨hv, hp⟩ := typeExprs_writes d params hn.2.2 hp hu
    have ht : d.ty (.func r ps) := Ty.Composed.func.2 ⟨hr, hp⟩
    exact ⟨setInfo_type_holds hn.1 hv ht, ht⟩
  | .void node, hn => by
    intro s t s' h hs
    rw [typeExpr] at h
    obtain ⟨u, hu, rfl⟩ := quiet_resolved.1 h
    obtain ⟨rfl, rfl, -⟩ := quiet_pure.1 hu
    exact ⟨setInfo_type_holds (hn _ (by simp [TypeExpr.ids])) hs Ty.Composed.void, Ty.Composed.void⟩
  | .var node, _ => by
    intro s t s' h _
    rw [typeExpr] at h
    obtain ⟨u, hu, -⟩ := quiet_resolved.1 h
    exact (not_quiet_reject hu).elim

/-- Several written types mean what may be met. -/
theorem typeExprs_writes (d : Naming L ctx) : ∀ es : List TypeExpr, d.Here (TypeExpr.idsOfList es) →
    L.Writes d.All (typeExprs ctx es)
  | [], _ => by
    rw [typeExprs]
    exact pure_writes (by simp [Naming.All])
  | e :: es, hn => by
    rw [TypeExpr.idsOfList, Naming.here_append] at hn
    intro s ts s' h hs
    obtain ⟨t, us, u, he, hes, rfl⟩ := h.typeExprs_cons
    obtain ⟨hu, ht⟩ := typeExpr_writes d e hn.1 he hs
    obtain ⟨hs', hus⟩ := typeExprs_writes d es hn.2 hes hu
    exact ⟨hs', Naming.all_cons.2 ⟨ht, hus⟩⟩

end

/-- A written type means what may be met. -/
theorem typeExpr_sound {e : TypeExpr} (hn : d.Here e.ids) : d.Sound d.ty (typeExpr ctx e) :=
  d.sound_of_writes (typeExpr_writes d.toNaming e hn) (typeExpr_notes ctx e)

/-- So do several. -/
theorem typeExprs_sound {es : List TypeExpr} (hn : d.Here (TypeExpr.idsOfList es)) : d.Sound d.All (typeExprs ctx es) :=
  d.sound_of_writes (typeExprs_writes d.toNaming es hn) (typeExprs_notes ctx es)

/-- The type of a function that may be used. -/
theorem signature_ty {sig : Signature} (hf : f.Meets d.ty L) (hs : ctx.registry.funcType f = .ok sig) :
    d.ty sig.ty := Ty.Composed.func.2 (Naming.all_cons.1 (d.signature hf hs))

/-- A function is used as a value if it may be found. -/
theorem funcValue_sound (hn : d.At node.id) (hf : d.found f) : d.Sound d.ty (funcValue ctx node f) := by
  intro s t s' h hs
  obtain ⟨sig, hopen, hsig, rfl, rfl⟩ := h.funcValue
  have hmeets : f.Meets d.ty L := d.completes hf hsig (by simp : ∀ a ∈ [], d.ty a) ⟨hopen, by rw [if_pos hopen]⟩
  exact ⟨d.noteInfo hn hs hmeets.1 (by simpa [NodeInfo.funcs] using hmeets.2), signature_ty hmeets hsig⟩

/-- A meaning that may be met has such a value. -/
theorem identifierValue_sound {meaning : Meaning} (hn : d.At node.id) (hm : meaning.Meets d.ty d.found) :
    d.Sound d.ty (identifierValue ctx node name meaning) := by
  intro s t s' h hs
  rcases h.identifierValue with ⟨storage, declared, rfl, rfl⟩ | ⟨f, rfl, hf⟩
  · obtain ⟨ht, hd⟩ := List.forall_mem_cons.1 hm
    exact ⟨d.noteInfo hn hs (List.forall_mem_cons.1 hd).2 (by simp [NodeInfo.funcs]), ht⟩
  · exact funcValue_sound hn hm hf hs

/-- A name has a type that may be met. -/
theorem identifier_sound (hn : d.At node.id)
    (ha : d.Here (TypeExpr.idsOfList typeArgs)) : d.Sound d.ty (identifier ctx node name typeArgs) := by
  intro s t s' h hs
  obtain ⟨args, u, meaning, hqa, hm, hv⟩ := h.identifier
  obtain ⟨hu, hargs⟩ := typeExprs_sound ha hqa hs
  exact identifierValue_sound hn (d.lookup hu.frame hu.globals hargs hm) hv hu

/-! ### Operators -/

/-- Operators give types of literals. -/
theorem rule_ty (ctx : Context) (op : BinaryOp) (l r : Ty) : d.ty (op.rule ctx l r).2 := by
  cases op with
  | add =>
    simp only [BinaryOp.rule]
    split <;> exact d.builtin (by simp)
  | _ => exact d.builtin (by simp [BinaryOp.rule])

/-- An operator between sound operands is sound. -/
theorem binary_sound {op : BinaryOp} {left right : Check Ty} (hadds : Keeps Adds right) (hl : d.Sound d.ty left)
    (hr : d.Sound d.ty right) : d.Sound d.ty (binary ctx node op left right) := by
  intro s t s' h hs
  obtain ⟨l, r, u, hql, hqr, hrule⟩ := h.binary hadds
  obtain ⟨hu, htl⟩ := hl hql hs
  obtain ⟨hs', htr⟩ := hr hqr hu
  refine ⟨hs', ?_⟩
  rcases hrule with ⟨hun, rfl | rfl⟩ | hrule
  · exact d.bool
  · rcases hun with rfl | rfl
    · exact htl
    · exact htr
  · have ht : d.ty (op.rule ctx l r).2 := rule_ty ctx op l r
    rwa [hrule] at ht

/-- So is one before its operand. -/
theorem plainUnary_sound {op : UnaryOp} {operand : Check Ty} (ho : d.Sound d.ty operand) :
    d.Sound d.ty (plainUnary node op operand) := by
  intro s t s' h hs
  obtain ⟨ty, hq, rfl, -⟩ := h.plainUnary
  refine ⟨(ho hq hs).1, ?_⟩
  cases op <;> exact d.builtin (by simp [UnaryOp.operandType])

/-- A test notes a type that may be met. -/
theorem isTest_sound (hn : d.At node.id) (ht : d.Here ty.ids) (hv : d.Sound d.ty value) :
    d.Sound d.ty (isTest ctx node value ty) := by
  intro s t s' h hs
  obtain ⟨v, u, tested, w, hqv, hqt, rfl, hfound⟩ := h.isTest
  obtain ⟨hw, htested⟩ := typeExpr_sound ht hqt (hv hqv hs).1
  rcases hfound with ⟨rfl, rfl⟩ | ⟨id, levels, -, rfl⟩
  · exact ⟨hw, d.bool⟩
  · exact ⟨d.noteInfo hn hw (by simpa [NodeInfo.types] using htested) (by simp [NodeInfo.funcs]), d.bool⟩

/-! ### Members and elements -/

/-- What stands before a dot meets the standard. -/
theorem receiver_sound {object : Expr} {asValue : Check Ty} (hn : d.Here object.ids) (hv : d.Sound d.ty asValue) :
    d.Sound d.Before (receiver ctx object asValue) := by
  intro s r s' h hs
  by_cases ho : ∃ node name typeArgs, object = .identifier node name typeArgs
  · obtain ⟨node, name, typeArgs, rfl⟩ := ho
    rw [Expr.ids, Naming.here_cons] at hn
    obtain ⟨args, u, meaning, hqa, hm, hr⟩ := h.receiver_identifier
    obtain ⟨hu, ha⟩ := typeExprs_sound hn.2 hqa hs
    have hmeaning := d.lookup hu.frame hu.globals ha hm
    rcases hr with ⟨ty, rfl, rfl, rfl⟩ | ⟨ty, rfl, hq⟩
    · exact ⟨d.noteInfo hn.1 hu (List.forall_mem_singleton.2 hmeaning) (by simp [NodeInfo.funcs]), hmeaning⟩
    · exact typed_sound hn.1 (identifierValue_sound hn.1 hmeaning) hq hu
  · have hne : ∀ node name typeArgs, object ≠ .identifier node name typeArgs :=
      fun node name typeArgs he => ho ⟨node, name, typeArgs, he⟩
    obtain ⟨ty, rfl, hq⟩ := h.receiver_other hne
    exact valued_sound hv hq hs

/-- A member that may be found may be used. -/
theorem useMember_sound {ty : Ty} {name : Name} {found : MemberRef} (ht : d.ty ty)
    (hf : found.Meets ctx.registry d.ty d.found) : d.Sound d.Use (useMember ctx node object ty name found) := by
  intro s use s' h hs
  obtain ⟨rfl, huse⟩ := h.useMember
  refine ⟨hs, ?_⟩
  cases found with
  | func f =>
    simp only at huse
    subst huse
    exact hf
  | var v =>
    obtain ⟨varTy, hvar, rfl⟩ := huse
    obtain ⟨hargs, hty⟩ := hf
    cases object with
    | some o => exact List.forall_mem_cons.2 ⟨hty _ hvar, by simpa [Storage.types] using ht⟩
    | none => exact List.forall_mem_cons.2 ⟨hty _ hvar, by simpa [Storage.types] using hargs⟩

/-- A member of such a type may be used. -/
theorem memberOf_sound {ty : Ty} {name : Name} {args : List Ty} (ht : d.ty ty) (ha : d.All args) :
    d.Sound d.Use (memberOf ctx node object ty name args) := by
  intro s use s' h hs
  rcases h.memberOf with ⟨rfl, rfl, rfl⟩ | ⟨rfl, -, rfl⟩ | ⟨found, hf, hq⟩
  · exact ⟨hs, ht⟩
  · exact ⟨hs, List.forall_mem_singleton.2 ht⟩
  · exact useMember_sound ht (d.member ht ha hf) hq hs

/-- A member after a dot may be used. -/
theorem memberUse_sound {object : Node} {receiver : Check Receiver}
    (ha : d.Here (TypeExpr.idsOfList typeArgs)) (hr : d.Sound d.Before receiver) :
    d.Sound d.Use (memberUse ctx node object receiver name typeArgs) := by
  intro s use s' h hs
  obtain ⟨r, u, args, v, hqr, hqa, hq⟩ := h.memberUse
  obtain ⟨hu, hrr⟩ := hr hqr hs
  obtain ⟨hv, hargs⟩ := typeExprs_sound ha hqa hu
  cases r with
  | type ty => exact memberOf_sound hrr hargs hq hv
  | value ty => exact memberOf_sound hrr hargs hq hv

/-- A member has a type that may be met. -/
theorem memberValue_sound (hn : d.At node.id) (hu : d.Sound d.Use use) : d.Sound d.ty (memberValue ctx node use) := by
  intro s t s' h hs
  obtain ⟨m, u, hqu, hq⟩ := h.memberValue
  obtain ⟨hus, hm⟩ := hu hqu hs
  cases m with
  | storage storage ty =>
    obtain ⟨rfl, rfl⟩ := hq
    obtain ⟨ht, hst⟩ := List.forall_mem_cons.1 hm
    exact ⟨d.noteInfo hn hus hst (by simp [NodeInfo.funcs]), ht⟩
  | func f object => exact funcValue_sound hn hm hq hus
  | unresolved =>
    obtain ⟨rfl, rfl⟩ := hq
    exact ⟨hus, hm⟩

/-- So has an element. -/
theorem elementValue_sound {indexNode : Node} {object index : Check Ty} (hn : d.At node.id) (hadds : Keeps Adds index)
    (ho : d.Sound d.ty object) (hi : d.Sound d.ty index) : d.Sound d.ty (elementValue ctx node indexNode object index) := by
  intro s t s' h hs
  obtain ⟨o, u, i, v, hqo, hqi, hfound⟩ := h.elementValue hadds
  obtain ⟨hu, hto⟩ := ho hqo hs
  obtain ⟨hv, -⟩ := hi hqi hu
  rcases hfound with ⟨rfl, rfl, rfl⟩ | ⟨getter, sig, hg, hsig, -, rfl, rfl⟩
  · exact ⟨hv, hto⟩
  · have hgetter := d.reserved rfl hto hg
    exact ⟨d.noteInfo hn hv hgetter.1 (List.forall_mem_singleton.2 hgetter.2),
      (List.forall_mem_cons.1 (d.signature hgetter hsig)).1⟩

/-! ### Calls -/

/-- A function that may be found is completed and called. -/
theorem callFunc_sound {callee : Node} (hn : d.At node.id) (hc : d.At callee.id) (hf : d.found f)
    (ha : ∀ hints : List (Option Ty), (∀ hint ∈ hints, d.Hint hint) → d.Sound d.All (analyse hints)) :
    d.Sound d.ty (callFunc ctx node callee f object argNodes analyse) := by
  intro s t s' h hs
  obtain ⟨written, types, u, hw, hq, hfound⟩ := h.callFunc
  obtain ⟨hu, hty⟩ := ha _ (d.hints hf hw) hq hs
  have hargs : d.All ((Argument.zip argNodes types).map (·.ty)) := fun t ht => hty t (Argument.zip_types_subset _ _ ht)
  rcases hfound with ⟨⟨a, hmem, hun⟩, rfl, rfl⟩ | ⟨g, sig, hg, hsig, -, rfl, rfl⟩
  · have ht := hargs a.ty (List.mem_map_of_mem hmem)
    rw [hun] at ht
    exact ⟨d.noteType hc hu ht, ht⟩
  · have hmeets : g.Meets d.ty L := d.completes hf hw hargs hg
    have hcallee : ((u.setType callee sig.ty).setInfo callee (.func g)).Meets d.ty L :=
      d.noteInfo hc (d.noteType hc hu (signature_ty hmeets hsig)) hmeets.1 (List.forall_mem_singleton.2 hmeets.2)
    exact ⟨d.noteInfo hn hcallee hmeets.1 (List.forall_mem_singleton.2 hmeets.2),
      (List.forall_mem_cons.1 (d.signature hmeets hsig)).1⟩

/-- A value is called by its type. -/
theorem callValue_sound {ty : Ty} (hn : d.At node.id) (ht : d.ty ty) (hadds : ∀ hints, Keeps Adds (analyse hints))
    (ha : ∀ hints : List (Option Ty), (∀ hint ∈ hints, d.Hint hint) → d.Sound d.All (analyse hints)) :
    d.Sound d.ty (callValue ctx node ty argNodes analyse) := by
  intro s t s' h hs
  rcases h.callValue hadds with ⟨rfl, rfl, types, hq⟩ | ⟨params, types, u, rfl, hq, -, rfl⟩
  · exact ⟨(ha [] (by simp) hq hs).1, ht⟩
  · obtain ⟨hret, hps⟩ := Ty.Composed.func.1 ht
    have hhints : ∀ hint ∈ params.map some, d.Hint hint := by
      intro hint hh
      obtain ⟨p, hp, rfl⟩ := List.mem_map.1 hh
      exact Naming.hint_some.2 (hps p hp)
    exact ⟨d.noteInfo hn (ha _ hhints hq hs).1 (by simp [NodeInfo.types]) (by simp [NodeInfo.funcs]), hret⟩

/-- A name that is called meets the standard. -/
theorem identifierCallable_sound (hn : d.At node.id)
    (ha : d.Here (TypeExpr.idsOfList typeArgs)) : d.Sound d.Called (identifierCallable ctx node name typeArgs) := by
  intro s c s' h hs
  obtain ⟨args, u, meaning, hqa, hm, hr⟩ := h.identifierCallable
  obtain ⟨hu, hargs⟩ := typeExprs_sound ha hqa hs
  have hmeaning := d.lookup hu.frame hu.globals hargs hm
  rcases hr with ⟨f, rfl, rfl, rfl⟩ | ⟨ty, rfl, hq⟩
  · exact ⟨hu, hmeaning⟩
  · exact typed_sound hn (identifierValue_sound hn hmeaning) hq hu

/-- So does a member that is called. -/
theorem memberCallable_sound (hn : d.At node.id) (hu : d.Sound d.Use use) : d.Sound d.Called (memberCallable node use) := by
  intro s c s' h hs
  obtain ⟨m, u, hqu, hq⟩ := h.memberCallable
  obtain ⟨hus, hm⟩ := hu hqu hs
  cases m with
  | func f object =>
    obtain ⟨rfl, rfl⟩ := hq
    exact ⟨hus, hm⟩
  | storage storage ty =>
    obtain ⟨rfl, rfl⟩ := hq
    obtain ⟨ht, hst⟩ := List.forall_mem_cons.1 hm
    exact ⟨d.noteType hn (d.noteInfo hn hus hst (by simp [NodeInfo.funcs])) ht, ht⟩
  | unresolved =>
    obtain ⟨rfl, rfl⟩ := hq
    exact ⟨d.noteType hn hus hm, hm⟩

/-- A call has a type that may be met. -/
theorem call_sound {callee : Node} {callable : Check Callable} (hn : d.At node.id) (hcallee : d.At callee.id)
    (heff : ∀ hints, Keeps (ExprEffect ids) (analyse hints)) (hc : d.Sound d.Called callable)
    (ha : ∀ hints : List (Option Ty), (∀ hint ∈ hints, d.Hint hint) → d.Sound d.All (analyse hints)) :
    d.Sound d.ty (call ctx node callee callable argNodes analyse) := by
  intro s t s' h hs
  obtain ⟨c, u, hqc, hq⟩ := h.call heff
  obtain ⟨hu, hcalled⟩ := hc hqc hs
  cases c with
  | func f object => exact callFunc_sound hn hcallee hcalled ha hq hu
  | value ty => exact callValue_sound hn hcalled (fun hints => (heff hints).adds) ha hq hu
  | unresolved =>
    obtain ⟨rfl, types, hq⟩ := hq
    exact ⟨(ha [] (by simp) hq hu).1, hcalled⟩

/-! ### Assignments and steps -/

/-- A place of such a type may be assigned to. -/
theorem direct_assigned {storage : Storage} {ty : Ty} (ht : d.ty ty) (hs : ∀ t ∈ storage.types, d.ty t) :
    d.Assigned (some (.direct storage ty)) := by
  refine ⟨List.forall_mem_cons.2 ⟨ht, hs⟩, by simp [Target.funcs], fun u hu => ?_⟩
  cases hu
  exact ht

/-- A name that is assigned to meets the standard. -/
theorem identifierTarget_sound (hn : d.At node.id)
    (ha : d.Here (TypeExpr.idsOfList typeArgs)) : d.Sound d.Assigned (identifierTarget ctx node name typeArgs) := by
  intro s r s' h hs
  obtain ⟨args, u, storage, ty, declared, hqa, hm, rfl, rfl⟩ := h.identifierTarget
  obtain ⟨hu, hargs⟩ := typeExprs_sound ha hqa hs
  have hmeaning := d.lookup hu.frame hu.globals hargs hm
  obtain ⟨ht, hrest⟩ := List.forall_mem_cons.1 hmeaning
  obtain ⟨hd, hst⟩ := List.forall_mem_cons.1 hrest
  exact ⟨d.noteType hn (d.noteInfo hn hu hst (by simp [NodeInfo.funcs])) ht, direct_assigned hd hst⟩

/-- So does a member. -/
theorem memberTarget_sound (hn : d.At node.id) (hu : d.Sound d.Use use) : d.Sound d.Assigned (memberTarget node use) := by
  intro s r s' h hs
  obtain ⟨m, u, hqu, hfound⟩ := h.memberTarget
  obtain ⟨hus, hm⟩ := hu hqu hs
  rcases hfound with ⟨storage, ty, rfl, -, rfl, rfl⟩ | ⟨rfl, rfl, rfl⟩
  · obtain ⟨ht, hst⟩ := List.forall_mem_cons.1 hm
    exact ⟨d.noteType hn (d.noteInfo hn hus hst (by simp [NodeInfo.funcs])) ht, direct_assigned ht hst⟩
  · exact ⟨d.noteType hn hus hm, hm⟩

/-- So does an element. -/
theorem elementTarget_sound {objectNode indexNode : Node} {object index : Check Ty} (hn : d.At node.id)
    (hadds : Keeps Adds index) (ho : d.Sound d.ty object) (hi : d.Sound d.ty index) :
    d.Sound d.Assigned (elementTarget ctx node objectNode indexNode object index) := by
  intro s r s' h hs
  obtain ⟨o, u, i, v, hqo, hqi, hfound⟩ := h.elementTarget hadds
  obtain ⟨hu, hto⟩ := ho hqo hs
  obtain ⟨hv, -⟩ := hi hqi hu
  rcases hfound with ⟨rfl, rfl, rfl⟩ | ⟨getter, setter, hg, hset, hq⟩
  · exact ⟨d.noteType hn hv hto, hto⟩
  · obtain ⟨reads, writes, hreads, hwrites, -, hlen, rfl, rfl⟩ := hq.accessorTarget
    have hgetter := d.reserved rfl hto hg
    have hsetter := d.reserved rfl hto hset
    obtain ⟨hret, -⟩ := List.forall_mem_cons.1 (d.signature hgetter hreads)
    obtain ⟨-, hparams⟩ := List.forall_mem_cons.1 (d.signature hsetter hwrites)
    rw [State.setType_setType]
    refine ⟨d.noteType hn hv hret, ?_, ?_, fun t ht => ?_⟩
    · simp only [Target.types, List.forall_mem_cons, List.forall_mem_append]
      exact ⟨hto, hret, hgetter.1, hsetter.1⟩
    · simp only [Target.funcs, List.forall_mem_cons]
      exact ⟨hgetter.2, hsetter.2, by simp⟩
    · obtain ⟨sig, hsig, ht⟩ := Except.bind_eq_ok.1 ht
      rw [hwrites] at hsig
      cases hsig
      cases ht
      -- The setter takes one parameter more than the getter, so there is a last one.
      have hne : writes.params ≠ [] := fun he => by simp [he] at hlen
      rw [List.getLastD_eq_getLast?, List.getLast?_eq_some_getLast hne, Option.getD_some]
      exact hparams _ (List.getLast_mem hne)

/-- An assignment is sound. -/
theorem assign_sound {valueNode : Node} {value : Option Ty → Check Ty}
    (hn : d.At node.id) (hadds : ∀ hint, Keeps Adds (value hint)) (ht : d.Sound d.Assigned target)
    (hv : ∀ hint, d.Hint hint → d.Sound d.ty (value hint)) : d.Sound d.ty (assign ctx node valueNode target value) := by
  intro s t s' h hs
  obtain ⟨r, u, hqt, hq⟩ := h.assign hadds
  obtain ⟨hu, hr⟩ := ht hqt hs
  cases r with
  | none =>
    obtain ⟨rfl, found, hqv⟩ := hq
    exact ⟨(hv none Naming.hint_none hqv hu).1, hr⟩
  | some target =>
    obtain ⟨expected, found, v, hstored, hqv, -, rfl, rfl⟩ := hq
    obtain ⟨htypes, hfuncs, hexp⟩ := hr
    obtain ⟨hv, -⟩ := hv (some expected) (Naming.hint_some.2 (hexp expected hstored)) hqv hu
    exact ⟨d.noteInfo hn (hv.written target) htypes hfuncs, htypes _ target.ty_mem_types⟩

/-- A step up or down is sound. -/
theorem step_sound {op : StepOp} {before : Bool} (hn : d.At node.id)
    (ht : d.Sound d.Assigned target) : d.Sound d.ty (step ctx node op before target) := by
  intro s t s' h hs
  obtain ⟨r, u, hqt, hq⟩ := h.step
  obtain ⟨hu, hr⟩ := ht hqt hs
  cases r with
  | none =>
    obtain ⟨rfl, rfl⟩ := hq
    exact ⟨hu, hr⟩
  | some target =>
    obtain ⟨htypes, hfuncs, -⟩ := hr
    have hty : d.ty target.ty := htypes _ target.ty_mem_types
    rcases hq.stepTarget with ⟨hun, rfl, rfl⟩ | ⟨operator, ret, hop, -, -, rfl, rfl⟩
    · exact ⟨hu, hun ▸ hty⟩
    · have hmeets : operator.Meets d.ty L := d.reserved (by cases op <;> rfl) hty hop
      refine ⟨d.noteInfo hn (hu.written target) ?_ ?_, hty⟩
      · exact List.forall_mem_append.2 ⟨htypes, hmeets.1⟩
      · exact List.forall_mem_append.2 ⟨hfuncs, List.forall_mem_singleton.2 hmeets.2⟩

/-- A unary operator is sound. -/
theorem unary_sound {op : UnaryOp} {operand : Check Ty} (hn : d.At node.id)
    (ht : d.Sound d.Assigned target) (ho : d.Sound d.ty operand) : d.Sound d.ty (unary ctx node op target operand) := by
  cases op with
  | step op before => exact step_sound hn ht
  | neg => exact plainUnary_sound ho
  | not => exact plainUnary_sound ho

/-! ### Lambdas and tasks -/

/-- Parameters have types that may be met. -/
theorem lambdaParams_writes (d : Standard L ctx) : ∀ (hints : Option (List Ty)) (params : List LambdaParam),
    d.Here (LambdaParam.typeIds params) → (∀ ts ∈ hints, d.All ts) → L.Writes d.All (lambdaParams ctx hints params)
  | hints, [], _, _ => by
    rw [lambdaParams]
    exact pure_writes (by simp [Naming.All])
  | hints, p :: ps, hn, hh => by
    rw [LambdaParam.typeIds, List.flatMap_cons, Naming.here_append] at hn
    intro s ts s' h hs
    obtain ⟨hr, hd⟩ := h
    simp only [lambdaParams, bind_eq_ok, pure_eq_ok] at hr
    obtain ⟨t, u, h₁, us, v, h₂, rfl, rfl⟩ := hr
    have hq : Quiet (lambdaParam ctx hints p) s t u := ⟨h₁, (lambdaParams_effect _ ps h₂).silent hd⟩
    have hp : L.Holds u.nodes ∧ d.ty t := by
      unfold lambdaParam at hq
      cases hty : p.ty with
      | some ty =>
        simp only [hty] at hq
        exact typeExpr_writes d.toNaming ty (by simpa [hty, TypeExpr.idsOfOption] using hn.1) hq hs
      | none =>
        cases hints with
        | none =>
          simp only [hty] at hq
          exact (not_quiet_reject hq).elim
        | some types =>
          simp only [hty] at hq
          obtain ⟨hhead, rfl⟩ := lift_eq_ok.1 hq.run
          exact ⟨hs, hh types rfl t (List.mem_of_head? (Fault.require_eq_ok.1 hhead))⟩
    have htail : ∀ ts ∈ hints.map List.tail, d.All ts := by
      intro ts hts
      obtain ⟨tys, htys, rfl⟩ := Option.map_eq_some_iff.1 hts
      exact fun t ht => hh tys htys t (List.mem_of_mem_tail ht)
    obtain ⟨hv, hus⟩ := lambdaParams_writes d _ ps hn.2 htail ⟨h₂, hd⟩ hp.1
    exact ⟨hv, Naming.all_cons.2 ⟨hp.2, hus⟩⟩

/-- So has a declared result. -/
theorem declaredResult_writes {ret : Option TypeExpr} (hn : d.Here (TypeExpr.idsOfOption ret)) :
    L.Writes d.Hint (ret.mapM (typeExpr ctx)) := by
  cases ret with
  | none => exact pure_writes Naming.hint_none
  | some e =>
    intro s r s' h hs
    rw [Option.mapM_some, map_eq_pure_bind] at h
    obtain ⟨hr, hd⟩ := h
    obtain ⟨t, u, h₁, h₂⟩ := bind_eq_ok.1 hr
    obtain ⟨rfl, rfl⟩ := pure_eq_ok.1 h₂
    obtain ⟨hu, ht⟩ := typeExpr_writes d.toNaming e hn ⟨h₁, hd⟩ hs
    exact ⟨hu, Naming.hint_some.2 ht⟩

/-- A body is sound in its own frame. -/
theorem closure_sound {params : List (Node × String)} {types : List Ty} {needs : List CaptureNeed} {mode : ReturnMode}
    {body : Check Unit} {s s' : State} {r : List CaptureInfo × Frame} (ht : d.All types) (hm : d.All mode.types)
    (hb : d.Sound (fun _ => True) body)
    (h : Quiet (closure params types (s.frame.carried needs) mode body) s r s') (hs : s.Meets d.ty L) :
    s'.Meets d.ty L ∧ d.All (r.1.flatMap CaptureInfo.types) ∧ r.2.AllTypes d.ty := by
  obtain ⟨u, w, hp, hq, rfl, rfl⟩ := h.closure
  have hu : u.Meets d.ty L := State.Meets.declareParams hp (hs.enter (.enter hm (by simp))) ht
  have hcar : ∀ c ∈ s.frame.carried needs, d.ty c.ty ∧ ∃ slot, c.storage = .localSlot slot :=
    fun c hc => hs.frame.carried hc
  have hvars : ∀ v ∈ (s.frame.carried needs).map (fun c => (c.name, c.ty)), d.ty v.2 := by
    intro v hv
    obtain ⟨c, hc, rfl⟩ := List.mem_map.1 hv
    exact (hcar c hc).1
  obtain ⟨hw, -⟩ := hb hq ⟨hu.frame.declareAll hvars, hu.globals, hu.nodes, hu.templates⟩
  exact ⟨hs.resume hw, PendingCapture.numbered_types _ hcar, hw.frame⟩

/-- A lambda has a type that may be met. -/
theorem lambda_sound {params : List LambdaParam} {ret : Option TypeExpr} {body : Body}
    {expected : Option Ty} {analyse : Option Ty → Check Unit} (hn : d.At node.id)
    (hps : d.Here (LambdaParam.typeIds params)) (hret : d.Here (TypeExpr.idsOfOption ret))
    (heff : ∀ declared, Keeps (BodyEffect ids) (analyse declared)) (he : d.Hint expected)
    (hb : ∀ declared, d.Hint declared → d.Sound (fun _ => True) (analyse declared)) :
    d.Sound d.ty (lambda ctx node params ret body expected analyse) := by
  intro s t s' h hs
  obtain ⟨types, u, declared, v, captures, frame, w, hqp, hqr, hqc, rfl, rfl⟩ := h.lambda heff
  have hparams := lambdaParams_writes d (paramHints expected params.length) params hps (paramHints_types he _)
  obtain ⟨hu, ht⟩ := d.sound_of_writes hparams (lambdaParams_notes _ _) hqp hs
  obtain ⟨hv, hd⟩ := d.sound_of_writes (declaredResult_writes hret) (declaredResult_notes _) hqr hu
  have hmode : d.All (ReturnMode.ofDeclared declared).types := by
    cases declared with
    | none => simp [Naming.All, ReturnMode.ofDeclared, ReturnMode.types]
    | some ty => simpa [Naming.All, ReturnMode.ofDeclared, ReturnMode.types] using hd ty rfl
  obtain ⟨hw, hcap, hframe⟩ := closure_sound ht hmode (hb declared hd) hqc hv
  have hpush := hw.push (.lambda node.id) (fun t ht => d.kept (hframe.seqElem t ht)) (some body.node.id)
  exact ⟨d.noteInfo hn hpush hcap (by simp [NodeInfo.funcs]),
    Ty.Composed.func.2 ⟨lambdaResult_types hd hframe.ret, ht⟩⟩

/-- A task is sound. -/
theorem task_sound {block : Block} {analyse : Check Unit} (hn : d.At node.id)
    (heff : Keeps (BodyEffect ids) analyse) (hb : d.Sound (fun _ => True) analyse) :
    d.Sound (fun _ => True) (task ctx node block analyse) := by
  intro s a s' h hs
  obtain ⟨captures, frame, w, hqc, rfl⟩ := h.task heff
  obtain ⟨hw, hcap, hframe⟩ := closure_sound (by simp [Naming.All]) (by simpa [Naming.All, ReturnMode.types] using
    Ty.Composed.void) hb hqc hs
  have hpush := hw.push (.task node.id) (fun t ht => d.kept (hframe.seqElem t ht)) (some block.node.id)
  exact ⟨d.noteInfo hn hpush hcap (by simp [NodeInfo.funcs]), trivial⟩

/-- So is an expression as a body. -/
theorem exprBody_sound {declared : Option Ty} {analyse : Option Ty → Check Ty} (hd : d.Hint declared)
    (ha : ∀ hint, d.Hint hint → d.Sound d.ty (analyse hint)) :
    d.Sound (fun _ => True) (exprBody ctx declared node analyse) := by
  intro s a s' h hs
  rcases h.exprBody with ⟨-, found, hq⟩ | ⟨ret, found, rfl, -, hq, -, -⟩ | ⟨-, found, u, hq, rfl⟩
  · exact ⟨(ha _ Naming.hint_none hq hs).1, trivial⟩
  · exact ⟨(ha _ hd hq hs).1, trivial⟩
  · obtain ⟨hu, ht⟩ := ha _ Naming.hint_none hq hs
    exact ⟨hu.settleResult ht, trivial⟩

/-! ### Statements -/

/-- A block is as sound as what is in it. -/
theorem inBlock_sound {x : Check α} (hx : d.Sound P x) : d.Sound P (inBlock x) := by
  intro s a s' h hs
  obtain ⟨u, hu, rfl⟩ := quiet_inBlock.1 h
  obtain ⟨hu, ha⟩ := hx hu ⟨hs.frame, hs.globals, hs.nodes, hs.templates⟩
  exact ⟨hs.leave hu, ha⟩

/-- Asking for a condition is sound. -/
theorem condition_sound (hv : d.Sound d.ty value) : d.Sound (fun _ => True) (condition node value) := by
  intro s a s' h hs
  obtain ⟨ty, hq, -⟩ := h.condition
  exact ⟨(hv hq hs).1, trivial⟩

/-- An `if` is sound: what its test shows may be met. -/
theorem ifThen_sound {cond : Expr} {branches : Check Unit} (hn : d.At cond.node.id)
    (heff : Keeps (StmtEffect ids) branches) (hv : d.Sound d.ty value) (hb : d.Sound (fun _ => True) branches) :
    d.Sound (fun _ => True) (ifThen cond value branches) := by
  intro s a s' h hs
  obtain ⟨u, v, hqc, hqb, rfl⟩ := h.ifThen heff
  obtain ⟨hu, -⟩ := condition_sound hv hqc hs
  have hframe : (narrowedBy u.nodes cond u.frame).AllTypes d.ty := by
    unfold narrowedBy
    split
    · rename_i hnarrow
      exact hu.frame.narrow _ ((hn _).1 (narrowingOf_types hu.nodes hnarrow))
    · exact hu.frame
  obtain ⟨hv, -⟩ := hb hqb ⟨hframe, hu.globals, hu.nodes, hu.templates⟩
  exact ⟨hu.leave hv, trivial⟩

/-- A loop is sound. -/
theorem whileDo_sound {cond : Node} {body : Check Unit}
    (heff : Keeps (StmtEffect ids) body) (hv : d.Sound d.ty value) (hb : d.Sound (fun _ => True) body) :
    d.Sound (fun _ => True) (whileDo cond value body) := by
  intro s a s' h hs
  obtain ⟨u, v, hqc, hqb, rfl⟩ := h.whileDo heff
  obtain ⟨hu, -⟩ := condition_sound hv hqc hs
  have henter : State.Meets d.ty L { u with frame := { u.frame with loopDepth := u.frame.loopDepth + 1 } } :=
    ⟨⟨hu.frame.locals, hu.frame.overrides, hu.frame.ret, hu.frame.seqElem⟩, hu.globals, hu.nodes, hu.templates⟩
  obtain ⟨hv, -⟩ := inBlock_sound hb hqb henter
  exact ⟨⟨⟨hv.frame.locals, hv.frame.overrides, hv.frame.ret, hv.frame.seqElem⟩, hv.globals, hv.nodes, hv.templates⟩,
    trivial⟩

/-- A variable has a type that may be met. -/
theorem declaredType_sound {init : Option Initial} (hn : d.Here ty.ids)
    (hadds : ∀ i ∈ init, ∀ hint, Keeps Adds (i.analyse hint))
    (hi : ∀ i ∈ init, ∀ hint, d.Hint hint → d.Sound d.ty (i.analyse hint)) :
    d.Sound d.ty (declaredType ctx node ty name init) := by
  intro s t s' h hs
  rcases h.declaredType hadds with ⟨tyNode, i, u, rfl, hinit, hq, rfl⟩ | ⟨-, u, hqt, hinit⟩
  · obtain ⟨hu, ht⟩ := hi i hinit none Naming.hint_none hq hs
    have hnode : d.At tyNode.id := hn _ (by simp [TypeExpr.ids])
    exact ⟨d.noteInfo hnode hu (by simpa [NodeInfo.types] using ht) (by simp [NodeInfo.funcs]), ht⟩
  · obtain ⟨hu, ht⟩ := typeExpr_sound hn hqt hs
    cases init with
    | none =>
      simp only at hinit
      exact ⟨hinit ▸ hu, ht⟩
    | some i =>
      obtain ⟨found, hq, -⟩ := hinit
      exact ⟨(hi i rfl (some t) (Naming.hint_some.2 ht) hq hu).1, ht⟩

/-- Declaring it is sound. -/
theorem varDecl_sound {init : Option Initial} (hn : d.Here ty.ids) (hadds : ∀ i ∈ init, ∀ hint, Keeps Adds (i.analyse hint))
    (hi : ∀ i ∈ init, ∀ hint, d.Hint hint → d.Sound d.ty (i.analyse hint)) :
    d.Sound (fun _ => True) (varDecl ctx node ty name init) := by
  intro s a s' h hs
  obtain ⟨t, u, hq, rfl⟩ := h.varDecl
  obtain ⟨hu, ht⟩ := declaredType_sound hn hadds hi hq hs
  refine ⟨(hu.declareVar name ht).setInfo ?_ (by simp [NodeInfo.funcs]), trivial⟩
  unfold State.nextPlace
  split <;> simp [NodeInfo.types, Storage.types]

/-- A return without a value is sound. -/
theorem returnNothing_sound : d.Sound (fun _ => True) (returnNothing ctx node) := by
  intro s a s' h hs
  rcases h.returnNothing with ⟨-, rfl⟩ | ⟨-, -, rfl⟩ | ⟨-, -, rfl⟩ | ⟨_, -, -, -, rfl⟩
  · exact ⟨hs, trivial⟩
  · exact ⟨hs, trivial⟩
  · exact ⟨hs.settleResult Ty.Composed.void, trivial⟩
  · exact ⟨hs, trivial⟩

/-- A result has a type that may be met. -/
theorem returnValue_sound {analyse : Option Ty → Check Ty} (ha : ∀ hint, d.Hint hint → d.Sound d.ty (analyse hint)) :
    d.Sound (fun _ => True) (returnValue ctx node analyse) := by
  intro s a s' h hs
  have hret : ∀ ty, s.frame.ret = .fixed ty ∨ s.frame.ret = .inferred (some ty) → d.Hint (some ty) := by
    intro ty hty
    have hmeets : d.ty ty := hs.frame.ret ty (by rcases hty with h | h <;> simp [h, ReturnMode.types])
    exact Naming.hint_some.2 hmeets
  obtain ⟨-, hcases⟩ := h.returnValue
  rcases hcases with ⟨-, found, hq, -⟩ | ⟨expected, found, hm, -, hq, -, -⟩ | ⟨-, found, u, hq, rfl⟩ |
    ⟨expected, found, hm, hq, -⟩
  · exact ⟨(ha _ Naming.hint_none hq hs).1, trivial⟩
  · exact ⟨(ha _ (hret _ (.inl hm)) hq hs).1, trivial⟩
  · obtain ⟨hu, ht⟩ := ha _ Naming.hint_none hq hs
    exact ⟨hu.settleResult ht, trivial⟩
  · exact ⟨(ha _ (hret _ (.inr hm)) hq hs).1, trivial⟩

/-- So has what is yielded. -/
theorem yields_sound {valueNode : Node} {analyse : Option Ty → Check Ty}
    (ha : ∀ hint, d.Hint hint → d.Sound d.ty (analyse hint)) :
    d.Sound (fun _ => True) (yields ctx node valueNode analyse) := by
  intro s a s' h hs
  obtain ⟨elem, found, helem, hq, -, -⟩ := h.yields
  have hmeets : d.ty elem := hs.frame.seqElem elem helem
  exact ⟨(ha (some elem) (Naming.hint_some.2 hmeets) hq hs).1, trivial⟩

/-- A jump out of a loop is sound. -/
theorem inLoop_sound {problem : Problem} : d.Sound (fun _ => True) (inLoop problem node) := by
  intro s a s' h hs
  rw [h.inLoop]
  exact ⟨hs, trivial⟩

end Check

end ScriptCheck
