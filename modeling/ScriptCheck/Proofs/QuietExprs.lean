import ScriptCheck.Proofs.BodyEffects
import Mathlib.Data.List.Forall2

/-!
# What a quiet run says

A run is quiet when no diagnostic stands at its end. For each rule it is said here, once, what a quiet run of it consists of:
which parts were run, each quietly, what was looked up and found, which checks were passed, and which state was left. A check
that meets an unknown type is passed (`Context.Admits`), so the unknown types are still in these statements.
-/

namespace ScriptCheck

/-- What the check of a value against an expected type lets through. -/
def Context.Admits (ctx : Context) (expected found : Ty) : Prop :=
  expected = .unresolved ∨ found = .unresolved ∨
    ((found = .void → expected = .void) ∧ ctx.assignable expected found = true)

/-- There are as many arguments as parameters, and each is let through. -/
def Context.AdmitsAll (ctx : Context) (params : List Ty) (args : List Argument) : Prop :=
  List.Forall₂ (fun p a => ctx.Admits p a.ty) params args

/-- Nothing is open in `g`, and where something is open in `f` these arguments show it to be what it is in `g`. -/
def FuncRef.Completes (f : FuncRef) (params args : List Ty) (g : FuncRef) : Prop :=
  g.openParam? = none ∧ if f.openParam? = none then g = f else f.inferFrom params args = .ok g

namespace State

/-- The state with a type noted for a node. -/
def setType (s : State) (node : Node) (ty : Ty) : State := { s with nodes := s.nodes.setType node.id ty }

/-- The state with something else noted for a node. -/
def setInfo (s : State) (node : Node) (info : NodeInfo) : State := { s with nodes := s.nodes.setInfo node.id info }

/-- The state without what a test has shown about a place that is written. -/
def written (s : State) : Target → State
  | .direct storage _ => { s with frame := s.frame.widen storage }
  | .callBased .. => s

/-- Noting a type reports nothing. -/
@[simp] theorem setType_diagnostics (s : State) (node : Node) (ty : Ty) :
    (s.setType node ty).diagnostics = s.diagnostics := rfl

/-- Nor does noting a meaning. -/
@[simp] theorem setInfo_diagnostics (s : State) (node : Node) (info : NodeInfo) :
    (s.setInfo node info).diagnostics = s.diagnostics := rfl

/-- Nor does a write. -/
@[simp] theorem written_diagnostics (s : State) (target : Target) : (s.written target).diagnostics = s.diagnostics := by
  cases target <;> rfl

end State

namespace Check

variable {α : Type} {ctx : Context} {ids : List Nat} {s s' : State} {node : Node} {t : Ty}
variable {a : α} {problem : Problem} {x : Check Ty} {name : String} {f : FuncRef} {typeArgs : List TypeExpr}
  {asValue : Check Ty} {use : MemberUse} {object : Option Nat} {analyse : List (Option Ty) → Check (List Ty)}
  {argNodes : List Node} {r : Option Target}

/-- An expression only adds reports. -/
theorem Keeps.adds {x : Check α} (h : Keeps (ExprEffect ids) x) : Keeps Adds x := h.weaken fun _ _ he => he.diagnostics

/-- A step starts without a diagnostic where it ends without one. -/
theorem Keeps.silent {ids : List Nat} {x : Check α} (h : Keeps (ExprEffect ids) x) (hr : x s = .ok (a, s'))
    (hs : s'.diagnostics = []) : s.diagnostics = [] := (h hr).toTouches.silent hs

/-! ### Primitive steps -/

/-- What a write does to the state. -/
theorem written_apply (target : Target) (s : State) : written target s = .ok ((), s.written target) := by
  cases target <;> rfl

/-- A report is not quiet. -/
theorem not_quiet_report {a : Unit} : ¬Quiet (report problem node) s a s' := by
  rintro ⟨hr, hs⟩
  cases hr
  simp at hs

/-- Nor is a rejected expression. -/
theorem not_quiet_reject : ¬Quiet (reject problem node) s t s' := by
  rintro ⟨hr, hs⟩
  cases hr
  simp at hs

/-- A step that only adds to what a report has added does not follow one in a quiet run. -/
theorem not_quiet_report_bind {x : Unit → Check α}
    (hx : ∀ u, Keeps Adds (x u)) : ¬Quiet (report problem node >>= x) s a s' := by
  rintro ⟨hr, hs⟩
  obtain ⟨u, t, h₁, h₂⟩ := bind_eq_ok.1 hr
  exact not_quiet_report ⟨h₁, (hx u h₂).silent hs⟩

/-- A quiet run does not end with a report. -/
theorem not_quiet_reported {b : α} : ¬Quiet (report problem node >>= fun _ => pure b) s a s' :=
  not_quiet_report_bind fun _ => .pure _

/-- A plain result is quiet where nothing was reported. -/
theorem quiet_pure {a b : α} : Quiet (pure a : Check α) s b s' ↔ a = b ∧ s = s' ∧ s.diagnostics = [] := by
  constructor
  · rintro ⟨hr, hs⟩
    obtain ⟨rfl, rfl⟩ := pure_eq_ok.1 hr
    exact ⟨rfl, rfl, hs⟩
  · rintro ⟨rfl, rfl, hs⟩
    exact ⟨rfl, hs⟩

/-- The type is noted after the rule. -/
theorem quiet_typed : Quiet (typed node x) s t s' ↔ ∃ u, Quiet x s t u ∧ s' = u.setType node t := by
  constructor
  · rintro ⟨hr, hs⟩
    simp only [typed, bind_eq_ok, noteType_apply, pure_eq_ok, ok_inj] at hr
    obtain ⟨_, u, hx, _, _, ⟨-, rfl⟩, rfl, rfl⟩ := hr
    exact ⟨u, ⟨hx, hs⟩, rfl⟩
  · rintro ⟨u, ⟨hx, hs⟩, rfl⟩
    refine ⟨?_, hs⟩
    simp only [typed, bind_eq_ok, noteType_apply, pure_eq_ok, ok_inj]
    exact ⟨t, u, hx, (), _, ⟨trivial, rfl⟩, rfl, rfl⟩

/-- So is what a written type means. -/
theorem quiet_resolved : Quiet (resolved node x) s t s' ↔ ∃ u, Quiet x s t u ∧ s' = u.setInfo node (.type t) := by
  constructor
  · rintro ⟨hr, hs⟩
    simp only [resolved, bind_eq_ok, noteInfo_apply, pure_eq_ok, ok_inj] at hr
    obtain ⟨_, u, hx, _, _, ⟨-, rfl⟩, rfl, rfl⟩ := hr
    exact ⟨u, ⟨hx, hs⟩, rfl⟩
  · rintro ⟨u, ⟨hx, hs⟩, rfl⟩
    refine ⟨?_, hs⟩
    simp only [resolved, bind_eq_ok, noteInfo_apply, pure_eq_ok, ok_inj]
    exact ⟨t, u, hx, (), _, ⟨trivial, rfl⟩, rfl, rfl⟩

/-- A value is not of type void. -/
theorem quiet_valued : Quiet (valued node x) s t s' ↔ Quiet x s t s' ∧ t ≠ .void := by
  constructor
  · rintro ⟨hr, hs⟩
    obtain ⟨ty, u, hx, hr⟩ := bind_eq_ok.1 hr
    split at hr
    · exact (not_quiet_reject ⟨hr, hs⟩).elim
    · rename_i hv
      obtain ⟨rfl, rfl⟩ := pure_eq_ok.1 hr
      exact ⟨⟨hx, hs⟩, fun h => hv ((Ty.isVoid_eq_true_iff _).2 h)⟩
  · rintro ⟨⟨hx, hs⟩, hv⟩
    refine ⟨bind_eq_ok.2 ⟨t, s', hx, ?_⟩, hs⟩
    rw [if_neg fun h => hv ((Ty.isVoid_eq_true_iff _).1 h)]
    rfl

/-- A look-up reports nothing. -/
theorem quiet_lift {x : Except Fault α} : Quiet (liftM x : Check α) s a s' ↔ x = .ok a ∧ s' = s ∧ s.diagnostics = [] := by
  constructor
  · rintro ⟨hr, hs⟩
    obtain ⟨hx, rfl⟩ := lift_eq_ok.1 hr
    exact ⟨hx, rfl, hs⟩
  · rintro ⟨hx, rfl, hs⟩
    exact ⟨lift_eq_ok.2 ⟨hx, rfl⟩, hs⟩

/-- Nor does a name that is found. -/
theorem quiet_lookup {args : List Ty} {allowPartial : Bool} {meaning : Meaning} :
    Quiet (lookup ctx name args allowPartial) s meaning s' ↔
      ctx.lookup s.frame s.globals name args allowPartial = .ok meaning ∧ s' = s ∧ s.diagnostics = [] := by
  constructor
  · rintro ⟨hr, hs⟩
    obtain ⟨_, _, h₁, h₂⟩ := bind_eq_ok.1 hr
    cases h₁
    exact quiet_lift.1 ⟨h₂, hs⟩
  · intro h
    obtain ⟨hr, hs⟩ := quiet_lift.2 h
    exact ⟨bind_eq_ok.2 ⟨s, s, rfl, hr⟩, hs⟩

/-- The type fits. -/
theorem Quiet.checkAssignable {expected found : Ty} {b : Bool} (h : Quiet (checkAssignable ctx expected found node) s b s') :
    s' = s ∧ b = true ∧ ctx.Admits expected found := by
  obtain ⟨hr, hs⟩ := h
  unfold Check.checkAssignable at hr
  split at hr
  · rename_i hu
    obtain ⟨rfl, rfl⟩ := pure_eq_ok.1 hr
    rw [Bool.or_eq_true, Ty.isUnresolved_eq_true_iff, Ty.isUnresolved_eq_true_iff] at hu
    exact ⟨rfl, rfl, hu.imp_right .inl⟩
  · split at hr
    · exact (not_quiet_reported ⟨hr, hs⟩).elim
    · rename_i hv
      split at hr
      · rename_i ha
        obtain ⟨rfl, rfl⟩ := pure_eq_ok.1 hr
        refine ⟨rfl, rfl, .inr (.inr ⟨fun hf => ?_, ha⟩)⟩
        have he : expected.isVoid = true := by simpa [hf, show Ty.void.isVoid = true from rfl] using hv
        exact (Ty.isVoid_eq_true_iff _).1 he
      · exact (not_quiet_reported ⟨hr, hs⟩).elim

/-! ### Written types -/

/-- What was to be found is found. -/
theorem quiet_settle {found : Except Fault (Except Problem Ty)} :
    Quiet (settle node found) s t s' ↔ found = .ok (.ok t) ∧ s' = s ∧ s.diagnostics = [] := by
  constructor
  · rintro ⟨hr, hs⟩
    obtain ⟨r, _, h₁, h₂⟩ := bind_eq_ok.1 hr
    obtain ⟨rfl, rfl⟩ := lift_eq_ok.1 h₁
    cases r with
    | ok ty =>
      obtain ⟨rfl, rfl⟩ := pure_eq_ok.1 h₂
      exact ⟨rfl, rfl, hs⟩
    | error problem => exact (not_quiet_reject ⟨h₂, hs⟩).elim
  · rintro ⟨rfl, rfl, hs⟩
    exact ⟨rfl, hs⟩

/-- No written types. -/
theorem Quiet.typeExprs_nil {ts : List Ty} (h : Quiet (typeExprs ctx []) s ts s') : ts = [] ∧ s' = s := by
  rw [typeExprs] at h
  obtain ⟨rfl, rfl, -⟩ := quiet_pure.1 h
  exact ⟨rfl, rfl⟩

/-- What a quiet run of the steps for one written type after another consists of. -/
theorem Quiet.typeExprs_cons {e : TypeExpr} {es : List TypeExpr} {ts : List Ty} (h : Quiet (typeExprs ctx (e :: es)) s ts s') :
    ∃ t us u, Quiet (typeExpr ctx e) s t u ∧ Quiet (typeExprs ctx es) u us s' ∧ ts = t :: us := by
  obtain ⟨hr, hs⟩ := h
  simp only [typeExprs, bind_eq_ok, pure_eq_ok] at hr
  obtain ⟨t, u, h₁, us, v, h₂, rfl, rfl⟩ := hr
  exact ⟨t, us, u, ⟨h₁, (typeExprs_effect ctx es h₂).silent hs⟩, ⟨h₂, hs⟩, rfl⟩

/-- A named type is found with its arguments. -/
theorem Quiet.typeExpr_named {args : List TypeExpr}
    (h : Quiet (typeExpr ctx (.named node name args)) s t s') :
    ∃ tys u, Quiet (typeExprs ctx args) s tys u ∧ ctx.namedType name tys = .ok (.ok t) ∧
      s' = u.setInfo node (.type t) := by
  rw [typeExpr, quiet_resolved] at h
  obtain ⟨u, ⟨hr, hs⟩, rfl⟩ := h
  obtain ⟨tys, v, h₁, h₂⟩ := bind_eq_ok.1 hr
  obtain ⟨hn, rfl, hv⟩ := quiet_settle.1 ⟨h₂, hs⟩
  exact ⟨tys, u, ⟨h₁, hv⟩, hn, rfl⟩

/-- So is a type in a type. -/
theorem Quiet.typeExpr_member {parent : TypeExpr} {args : List TypeExpr}
    (h : Quiet (typeExpr ctx (.member node parent name args)) s t s') :
    ∃ p u tys v, Quiet (typeExpr ctx parent) s p u ∧ Quiet (typeExprs ctx args) u tys v ∧
      ctx.memberType p name tys = .ok (.ok t) ∧ s' = v.setInfo node (.type t) := by
  rw [typeExpr, quiet_resolved] at h
  obtain ⟨v, ⟨hr, hs⟩, rfl⟩ := h
  simp only [bind_eq_ok] at hr
  obtain ⟨p, u, h₁, tys, w, h₂, h₃⟩ := hr
  obtain ⟨hn, rfl, hv⟩ := quiet_settle.1 ⟨h₃, hs⟩
  exact ⟨p, u, tys, v, ⟨h₁, (typeExprs_effect ctx args h₂).silent hv⟩, ⟨h₂, hv⟩, hn, rfl⟩

/-- A function type is made of its parts. -/
theorem Quiet.typeExpr_func {ret : TypeExpr} {params : List TypeExpr}
    (h : Quiet (typeExpr ctx (.func node ret params)) s t s') :
    ∃ r u ps v, Quiet (typeExpr ctx ret) s r u ∧ Quiet (typeExprs ctx params) u ps v ∧ t = .func r ps ∧
      s' = v.setInfo node (.type t) := by
  rw [typeExpr, quiet_resolved] at h
  obtain ⟨v, ⟨hr, hs⟩, rfl⟩ := h
  simp only [bind_eq_ok, pure_eq_ok] at hr
  obtain ⟨r, u, h₁, ps, w, h₂, rfl, rfl⟩ := hr
  exact ⟨r, u, ps, w, ⟨h₁, (typeExprs_effect ctx params h₂).silent hs⟩, ⟨h₂, hs⟩, rfl, rfl⟩

/-! ### Identifiers and operators -/

/-- A function used as a value has no open type parameter. -/
theorem Quiet.funcValue (h : Quiet (funcValue ctx node f) s t s') :
    ∃ sig, f.openParam? = none ∧ ctx.registry.funcType f = .ok sig ∧ t = sig.ty ∧ s' = s.setInfo node (.func f) := by
  obtain ⟨hr, hs⟩ := h
  unfold Check.funcValue at hr
  cases ho : f.openParam? with
  | some param =>
    simp only [ho] at hr
    exact (not_quiet_reject ⟨hr, hs⟩).elim
  | none =>
    simp only [ho, bind_eq_ok, lift_eq_ok, noteInfo_apply, pure_eq_ok, ok_inj] at hr
    obtain ⟨sig, _, ⟨hf, rfl⟩, _, _, ⟨-, rfl⟩, rfl, rfl⟩ := hr
    exact ⟨sig, rfl, hf, rfl, rfl⟩

/-- An identifier is a variable or a function. -/
theorem Quiet.identifierValue {meaning : Meaning}
    (h : Quiet (identifierValue ctx node name meaning) s t s') :
    (∃ storage declared, meaning = .var storage t declared ∧ s' = s.setInfo node (.storage storage)) ∨
      ∃ f, meaning = .func f ∧ Quiet (Check.funcValue ctx node f) s t s' := by
  cases meaning with
  | var storage ty declared =>
    obtain ⟨hr, hs⟩ := h
    simp only [Check.identifierValue, bind_eq_ok, noteInfo_apply, pure_eq_ok, ok_inj] at hr
    obtain ⟨_, _, ⟨-, rfl⟩, rfl, rfl⟩ := hr
    exact .inl ⟨storage, declared, rfl, rfl⟩
  | func f => exact .inr ⟨f, rfl, h⟩
  | type ty => exact (not_quiet_reject h).elim
  | notFound => exact (not_quiet_reject h).elim
  | ambiguous count => exact (not_quiet_reject h).elim

/-- Its arguments are found first. -/
theorem Quiet.identifier
    (h : Quiet (identifier ctx node name typeArgs) s t s') :
    ∃ args u meaning, Quiet (typeExprs ctx typeArgs) s args u ∧
      ctx.lookup u.frame u.globals name args false = .ok meaning ∧
      Quiet (Check.identifierValue ctx node name meaning) u t s' := by
  obtain ⟨hr, hs⟩ := h
  simp only [Check.identifier, bind_eq_ok] at hr
  obtain ⟨args, u, h₁, meaning, v, h₂, h₃⟩ := hr
  have hv := Keeps.silent (identifierValue_gathers _ _) h₃ hs
  obtain ⟨hm, rfl, hu⟩ := quiet_lookup.1 ⟨h₂, hv⟩
  exact ⟨args, _, meaning, ⟨h₁, hu⟩, hm, ⟨h₃, hs⟩⟩

/-- The operands fit the operator, or one of them is unresolved. -/
theorem Quiet.binary {op : BinaryOp} {left right : Check Ty} (hright : Keeps Adds right)
    (h : Quiet (binary ctx node op left right) s t s') :
    ∃ l r u, Quiet left s l u ∧ Quiet right u r s' ∧
      (((l = .unresolved ∨ r = .unresolved) ∧ (t = Builtin.bool ∨ t = .unresolved)) ∨
        op.rule ctx l r = (true, t)) := by
  obtain ⟨hr, hs⟩ := h
  simp only [Check.binary, bind_eq_ok] at hr
  obtain ⟨l, u, h₁, r, v, h₂, h₃⟩ := hr
  have hquiet : s'.diagnostics = [] → v = s' → Quiet left s l u ∧ Quiet right u r s' := by
    rintro hs rfl
    exact ⟨⟨h₁, (hright h₂).silent hs⟩, ⟨h₂, hs⟩⟩
  split at h₃
  · rename_i hu
    obtain ⟨rfl, hv⟩ := pure_eq_ok.1 h₃
    obtain ⟨hl, hr⟩ := hquiet hs hv
    rw [Bool.or_eq_true, Ty.isUnresolved_eq_true_iff, Ty.isUnresolved_eq_true_iff] at hu
    refine ⟨l, r, u, hl, hr, .inl ⟨hu, ?_⟩⟩
    split
    · rename_i hb
      exact .inl hb
    · exact .inr rfl
  · split at h₃
    · rename_i hv
      obtain ⟨rfl, hv'⟩ := pure_eq_ok.1 h₃
      obtain ⟨hl, hr⟩ := hquiet hs hv'
      exact ⟨l, r, u, hl, hr, .inr (Prod.ext hv rfl)⟩
    · exact (not_quiet_reported ⟨h₃, hs⟩).elim

/-- So does the operand of a plain operator. -/
theorem Quiet.plainUnary {op : UnaryOp} {operand : Check Ty} (h : Quiet (plainUnary node op operand) s t s') :
    ∃ ty, Quiet operand s ty s' ∧ t = op.operandType ∧ (ty = .unresolved ∨ ty = op.operandType) := by
  obtain ⟨hr, hs⟩ := h
  obtain ⟨ty, u, h₁, h₂⟩ := bind_eq_ok.1 hr
  split at h₂
  · exact (not_quiet_reported ⟨h₂, hs⟩).elim
  · rename_i hc
    obtain ⟨rfl, rfl⟩ := pure_eq_ok.1 h₂
    refine ⟨ty, ⟨h₁, hs⟩, rfl, ?_⟩
    rw [← Ty.isUnresolved_eq_true_iff]
    by_cases ht : ty = op.operandType
    · exact .inr ht
    · left
      simpa [ht] using hc

/-- A test is for a declared type. -/
theorem Quiet.isTest {value : Check Ty} {ty : TypeExpr} (h : Quiet (isTest ctx node value ty) s t s') :
    ∃ v u tested w, Quiet value s v u ∧ Quiet (typeExpr ctx ty) u tested w ∧ t = Builtin.bool ∧
      ((tested = .unresolved ∧ s' = w) ∨
        ∃ id levels, tested = .nominal id levels ∧ s' = w.setInfo node (.isTest tested)) := by
  obtain ⟨hr, hs⟩ := h
  simp only [Check.isTest, bind_eq_ok] at hr
  obtain ⟨v, u, h₁, tested, w, h₂, h₃⟩ := hr
  have hparts : w.diagnostics = [] → Quiet value s v u ∧ Quiet (typeExpr ctx ty) u tested w := fun hw =>
    ⟨⟨h₁, (typeExpr_effect ctx ty h₂).silent hw⟩, ⟨h₂, hw⟩⟩
  cases tested with
  | nominal id levels =>
    simp only [bind_eq_ok, noteInfo_apply, pure_eq_ok, ok_inj] at h₃
    obtain ⟨_, _, ⟨-, rfl⟩, rfl, rfl⟩ := h₃
    obtain ⟨hv, ht⟩ := hparts hs
    exact ⟨v, u, _, w, hv, ht, rfl, .inr ⟨id, levels, rfl, rfl⟩⟩
  | unresolved =>
    obtain ⟨rfl, rfl⟩ := pure_eq_ok.1 h₃
    obtain ⟨hv, ht⟩ := hparts hs
    exact ⟨v, u, _, w, hv, ht, rfl, .inl ⟨rfl, rfl⟩⟩
  | _ => exact (not_quiet_reported ⟨h₃, hs⟩).elim

/-! ### Members and elements -/

/-- An identifier before a dot names a type, or it is read. -/
theorem Quiet.receiver_identifier {r : Receiver}
    (h : Quiet (receiver ctx (.identifier node name typeArgs) asValue) s r s') :
    ∃ args u meaning, Quiet (typeExprs ctx typeArgs) s args u ∧
      ctx.lookup u.frame u.globals name args false = .ok meaning ∧
      ((∃ ty, meaning = .type ty ∧ r = .type ty ∧ s' = u.setInfo node (.type ty)) ∨
        ∃ ty, r = .value ty ∧ Quiet (typed node (Check.identifierValue ctx node name meaning)) u ty s') := by
  obtain ⟨hr, hs⟩ := h
  simp only [receiver, bind_eq_ok] at hr
  obtain ⟨args, u, h₁, meaning, v, h₂, h₃⟩ := hr
  cases meaning with
  | type ty =>
    simp only [bind_eq_ok, noteInfo_apply, pure_eq_ok, ok_inj] at h₃
    obtain ⟨_, _, ⟨-, rfl⟩, rfl, rfl⟩ := h₃
    obtain ⟨hm, rfl, hu⟩ := quiet_lookup.1 ⟨h₂, hs⟩
    exact ⟨args, v, _, ⟨h₁, hu⟩, hm, .inl ⟨ty, rfl, rfl, rfl⟩⟩
  | _ =>
    obtain ⟨ty, w, h₄, h₅⟩ := bind_eq_ok.1 h₃
    obtain ⟨rfl, rfl⟩ := pure_eq_ok.1 h₅
    obtain ⟨hm, rfl, hu⟩ := quiet_lookup.1 ⟨h₂, Keeps.silent (typedValue_gathers _ _) h₄ hs⟩
    exact ⟨args, v, _, ⟨h₁, hu⟩, hm, .inr ⟨ty, rfl, h₄, hs⟩⟩

/-- Any other expression before a dot is read. -/
theorem Quiet.receiver_other {object : Expr} {r : Receiver}
    (ho : ∀ node name typeArgs, object ≠ .identifier node name typeArgs) (h : Quiet (receiver ctx object asValue) s r s') :
    ∃ ty, r = .value ty ∧ Quiet (valued object.node asValue) s ty s' := by
  obtain ⟨hr, hs⟩ := h
  cases object with
  | identifier node name typeArgs => exact absurd rfl (ho node name typeArgs)
  | _ =>
    obtain ⟨ty, u, h₁, h₂⟩ := bind_eq_ok.1 hr
    obtain ⟨rfl, rfl⟩ := pure_eq_ok.1 h₂
    exact ⟨ty, rfl, h₁, hs⟩

/-- What a member that has been found is used as. -/
theorem Quiet.useMember {name : Name} {found : MemberRef} (h : Quiet (useMember ctx node object t name found) s use s') :
    s' = s ∧ match found with
      | .func f => use = .func f object
      | .var v => ∃ ty, ctx.registry.varType v = .ok ty ∧
          use = .storage ((object.map fun o => Storage.instanceMember o t name).getD (.staticMember none v)) ty := by
  obtain ⟨hr, hs⟩ := h
  obtain ⟨isStatic, _, h₁, h₂⟩ := bind_eq_ok.1 hr
  obtain ⟨-, rfl⟩ := lift_eq_ok.1 h₁
  split at h₂
  · exact (not_quiet_reported ⟨h₂, hs⟩).elim
  · cases found with
    | func f =>
      obtain ⟨rfl, rfl⟩ := pure_eq_ok.1 h₂
      exact ⟨rfl, rfl⟩
    | var v =>
      obtain ⟨ty, _, h₃, h₄⟩ := bind_eq_ok.1 h₂
      obtain ⟨hv, rfl⟩ := lift_eq_ok.1 h₃
      cases object with
      | some o =>
        obtain ⟨rfl, rfl⟩ := pure_eq_ok.1 h₄
        exact ⟨rfl, ty, hv, rfl⟩
      | none =>
        obtain ⟨rfl, rfl⟩ := pure_eq_ok.1 h₄
        exact ⟨rfl, ty, hv, rfl⟩

/-- A member is not found on an unknown type, is a case of an enum, or is a member that was found and used. -/
theorem Quiet.memberOf {name : Name} {args : List Ty}
    (h : Quiet (memberOf ctx node object t name args) s use s') :
    (s' = s ∧ t = .unresolved ∧ use = .unresolved) ∨
      (s' = s ∧ object = none ∧ use = .storage (.enumCase name) t) ∨
      ∃ found, ctx.member t name args = .ok (.ok found) ∧
        Quiet (Check.useMember ctx node object t name found) s use s' := by
  obtain ⟨hr, hs⟩ := h
  cases t with
  | unresolved =>
    obtain ⟨rfl, rfl⟩ := pure_eq_ok.1 hr
    exact .inl ⟨rfl, rfl, rfl⟩
  | nominal id levels =>
    simp only [Check.memberOf] at hr
    split at hr
    · rename_i hc
      obtain ⟨rfl, rfl⟩ := pure_eq_ok.1 hr
      rw [Bool.and_eq_true, Bool.and_eq_true, Option.isNone_iff_eq_none] at hc
      exact .inr (.inl ⟨rfl, hc.1.1, rfl⟩)
    · obtain ⟨r, _, h₁, h₂⟩ := bind_eq_ok.1 hr
      obtain ⟨hm, rfl⟩ := lift_eq_ok.1 h₁
      cases r with
      | ok found => exact .inr (.inr ⟨found, hm, h₂, hs⟩)
      | error e => exact (not_quiet_reported ⟨h₂, hs⟩).elim
  | _ => exact (not_quiet_reported ⟨hr, hs⟩).elim

/-- A member is looked up in the receiver. -/
theorem Quiet.memberUse {object : Node} {receiver : Check Receiver}
    (h : Quiet (memberUse ctx node object receiver name typeArgs) s use s') :
    ∃ r u args v, Quiet receiver s r u ∧ Quiet (typeExprs ctx typeArgs) u args v ∧
      match r with
      | .type ty => Quiet (Check.memberOf ctx node none ty (.text name) args) v use s'
      | .value ty => Quiet (Check.memberOf ctx node (some object.id) ty (.text name) args) v use s' := by
  obtain ⟨hr, hs⟩ := h
  simp only [Check.memberUse, bind_eq_ok] at hr
  obtain ⟨r, u, h₁, args, v, h₂, h₃⟩ := hr
  have hparts : v.diagnostics = [] → Quiet receiver s r u ∧ Quiet (typeExprs ctx typeArgs) u args v := fun hv =>
    ⟨⟨h₁, (typeExprs_effect ctx typeArgs h₂).silent hv⟩, ⟨h₂, hv⟩⟩
  cases r with
  | type ty =>
    obtain ⟨hr, ha⟩ := hparts (Keeps.silent (memberOf_gathers _ _ _ _ _) h₃ hs)
    exact ⟨_, u, args, v, hr, ha, h₃, hs⟩
  | value ty =>
    obtain ⟨hr, ha⟩ := hparts (Keeps.silent (memberOf_gathers _ _ _ _ _) h₃ hs)
    exact ⟨_, u, args, v, hr, ha, h₃, hs⟩

/-- The value of a member is that of a variable or function. -/
theorem Quiet.memberValue {use : Check MemberUse} (h : Quiet (memberValue ctx node use) s t s') :
    ∃ m u, Quiet use s m u ∧ match m with
      | .storage storage ty => t = ty ∧ s' = u.setInfo node (.storage storage)
      | .func f _ => Quiet (Check.funcValue ctx node f) u t s'
      | .unresolved => t = .unresolved ∧ s' = u := by
  obtain ⟨hr, hs⟩ := h
  obtain ⟨m, u, h₁, h₂⟩ := bind_eq_ok.1 hr
  cases m with
  | storage storage ty =>
    simp only [bind_eq_ok, noteInfo_apply, pure_eq_ok, ok_inj] at h₂
    obtain ⟨_, _, ⟨-, rfl⟩, rfl, rfl⟩ := h₂
    exact ⟨_, u, ⟨h₁, hs⟩, rfl, rfl⟩
  | func f object =>
    exact ⟨_, u, ⟨h₁, Keeps.silent (funcValue_gathers _) h₂ hs⟩, h₂, hs⟩
  | unresolved =>
    obtain ⟨rfl, rfl⟩ := pure_eq_ok.1 h₂
    exact ⟨_, u, ⟨h₁, hs⟩, rfl, rfl⟩

/-- The indexer of a type that is known has at least one of its two functions. -/
theorem Quiet.indexerOf {r : Option (Option FuncRef × Option FuncRef)} (h : Quiet (indexerOf ctx node t) s r s') :
    s' = s ∧ ((t = .unresolved ∧ r = none) ∨ ∃ getter setter, r = some (getter, setter) ∧
      ctx.method? t .indexerGet = .ok getter ∧ ctx.method? t .indexerSet = .ok setter) := by
  obtain ⟨hr, hs⟩ := h
  cases t with
  | unresolved =>
    obtain ⟨rfl, rfl⟩ := pure_eq_ok.1 hr
    exact ⟨rfl, .inl ⟨rfl, rfl⟩⟩
  | nominal id levels =>
    simp only [Check.indexerOf, bind_eq_ok, lift_eq_ok] at hr
    obtain ⟨getter, _, ⟨hg, rfl⟩, setter, _, ⟨hset, rfl⟩, h₃⟩ := hr
    cases getter with
    | some getter =>
      obtain ⟨rfl, rfl⟩ := pure_eq_ok.1 h₃
      exact ⟨rfl, .inr ⟨_, _, rfl, hg, hset⟩⟩
    | none =>
      cases setter with
      | some setter =>
        obtain ⟨rfl, rfl⟩ := pure_eq_ok.1 h₃
        exact ⟨rfl, .inr ⟨_, _, rfl, hg, hset⟩⟩
      | none => exact (not_quiet_reported ⟨h₃, hs⟩).elim
  | _ => exact (not_quiet_reported ⟨hr, hs⟩).elim

/-! ### Calls -/

/-- Each argument fits. -/
theorem Quiet.checkEach : ∀ {params : List Ty} {args : List Argument} {s s' : State} {b : Bool},
    params.length = args.length → Quiet (checkEach ctx params args) s b s' →
      s' = s ∧ b = true ∧ ctx.AdmitsAll params args
  | [], [], s, s', b, _, h => by
    obtain ⟨rfl, rfl, -⟩ := quiet_pure.1 h
    exact ⟨rfl, rfl, .nil⟩
  | [], _ :: _, _, _, _, hl, _ => by simp at hl
  | _ :: _, [], _, _, _, hl, _ => by simp at hl
  | p :: ps, a :: as, s, s', b, hl, h => by
    obtain ⟨hr, hs⟩ := h
    simp only [Check.checkEach, bind_eq_ok, pure_eq_ok] at hr
    obtain ⟨fits, u, h₁, rest, v, h₂, rfl, rfl⟩ := hr
    obtain ⟨rfl, rfl, hf⟩ := Quiet.checkAssignable ⟨h₁, Keeps.silent (checkEach_notes _ _).looks h₂ hs⟩
    obtain ⟨rfl, rfl, hrest⟩ := Quiet.checkEach (by simpa using hl) ⟨h₂, hs⟩
    exact ⟨rfl, rfl, .cons hf hrest⟩

/-- There are as many as parameters, and each fits. -/
theorem Quiet.checkArgs {params : List Ty} {args : List Argument} {b : Bool}
    (h : Quiet (checkArgs ctx node params args) s b s') : s' = s ∧ b = true ∧ ctx.AdmitsAll params args := by
  obtain ⟨hr, hs⟩ := h
  unfold Check.checkArgs at hr
  split at hr
  · rename_i hl
    exact Quiet.checkEach hl ⟨hr, hs⟩
  · exact (not_quiet_reported ⟨hr, hs⟩).elim

/-- Either an argument is at fault, or the open type arguments were found, if there were any. -/
theorem Quiet.inferTypeArgs {params : List Ty} {args : List Argument} {r : Option FuncRef}
    (h : Quiet (inferTypeArgs node f params args) s r s') :
    s' = s ∧ ((r = none ∧ ∃ a ∈ args, a.ty = .unresolved) ∨ ∃ g, r = some g ∧ f.Completes params (args.map (·.ty)) g) := by
  obtain ⟨hr, hs⟩ := h
  unfold Check.inferTypeArgs at hr
  cases ho : f.openParam? with
  | none =>
    simp only [ho, pure_eq_ok] at hr
    obtain ⟨rfl, rfl⟩ := hr
    exact ⟨rfl, .inr ⟨f, rfl, ho, by rw [if_pos ho]⟩⟩
  | some param =>
    simp only [ho, bind_eq_ok, lift_eq_ok] at hr
    obtain ⟨g, _, ⟨hg, rfl⟩, h₂⟩ := hr
    cases hog : g.openParam? with
    | none =>
      simp only [hog, pure_eq_ok] at h₂
      obtain ⟨rfl, rfl⟩ := h₂
      exact ⟨rfl, .inr ⟨g, rfl, hog, by simpa [ho] using hg⟩⟩
    | some q =>
      simp only [hog] at h₂
      split at h₂
      · exact (not_quiet_reported ⟨h₂, hs⟩).elim
      · rename_i ha
        obtain ⟨rfl, rfl⟩ := pure_eq_ok.1 h₂
        simp only [Bool.not_eq_true, Bool.not_eq_false', List.any_eq_true, Ty.isUnresolved_eq_true_iff] at ha
        exact ⟨rfl, .inl ⟨rfl, ha⟩⟩

/-- A call of a named function: an argument is at fault, or a signature was found that lets all arguments through. -/
theorem Quiet.callFunc {callee : Node}
    (h : Quiet (callFunc ctx node callee f object argNodes analyse) s t s') :
    ∃ written types u, ctx.registry.funcType f = .ok written ∧ Quiet (analyse (f.hints written.params)) s types u ∧
      (((∃ a ∈ Argument.zip argNodes types, a.ty = .unresolved) ∧ t = .unresolved ∧ s' = u.setType callee .unresolved) ∨
        ∃ g sig, f.Completes written.params ((Argument.zip argNodes types).map (·.ty)) g ∧
          ctx.registry.funcType g = .ok sig ∧
          ctx.AdmitsAll sig.params (Argument.zip argNodes types) ∧
          t = sig.ret ∧
          s' = ((u.setType callee sig.ty).setInfo callee (.func g)).setInfo node (.call g object)) := by
  obtain ⟨hr, hs⟩ := h
  simp only [Check.callFunc, bind_eq_ok, lift_eq_ok] at hr
  obtain ⟨written, _, ⟨hw, rfl⟩, types, u, h₁, r, v, h₂, h₃⟩ := hr
  cases r with
  | none =>
    simp only [bind_eq_ok, noteType_apply, pure_eq_ok, ok_inj] at h₃
    obtain ⟨_, _, ⟨-, rfl⟩, rfl, rfl⟩ := h₃
    obtain ⟨rfl, ⟨-, ha⟩ | ⟨g, hg, -⟩⟩ := Quiet.inferTypeArgs ⟨h₂, hs⟩
    · exact ⟨written, types, _, hw, ⟨h₁, hs⟩, .inl ⟨ha, rfl, rfl⟩⟩
    · cases hg
  | some g =>
    simp only [bind_eq_ok, lift_eq_ok, noteType_apply, noteInfo_apply, pure_eq_ok, ok_inj] at h₃
    obtain ⟨sig, _, ⟨hsig, rfl⟩, b, w, h₃, _, _, ⟨-, rfl⟩, _, _, ⟨-, rfl⟩, _, _, ⟨-, rfl⟩, rfl, rfl⟩ := h₃
    obtain ⟨rfl, -, hfit⟩ := Quiet.checkArgs ⟨h₃, hs⟩
    obtain ⟨rfl, ⟨hg, -⟩ | ⟨_, ⟨⟩, hfound⟩⟩ := Quiet.inferTypeArgs ⟨h₂, hs⟩
    · cases hg
    · exact ⟨written, types, _, hw, ⟨h₁, hs⟩, .inr ⟨g, sig, hfound, hsig, hfit, rfl, rfl⟩⟩

/-- A call of a value: its type is not known, or it is a function type that lets all arguments through. -/
theorem Quiet.callValue {ty : Ty}
    (ha : ∀ hints, Keeps Adds (analyse hints)) (h : Quiet (callValue ctx node ty argNodes analyse) s t s') :
    (ty = .unresolved ∧ t = .unresolved ∧ ∃ types, Quiet (analyse []) s types s') ∨
      ∃ params types u, ty = .func t params ∧ Quiet (analyse (params.map some)) s types u ∧
        ctx.AdmitsAll params (Argument.zip argNodes types) ∧
        s' = u.setInfo node .callValue := by
  obtain ⟨hr, hs⟩ := h
  cases ty with
  | unresolved =>
    obtain ⟨types, u, h₁, h₂⟩ := bind_eq_ok.1 hr
    obtain ⟨rfl, rfl⟩ := pure_eq_ok.1 h₂
    exact .inl ⟨rfl, rfl, types, h₁, hs⟩
  | func ret params =>
    simp only [Check.callValue, bind_eq_ok, noteInfo_apply, pure_eq_ok, ok_inj] at hr
    obtain ⟨types, u, h₁, b, v, h₂, _, _, ⟨-, rfl⟩, rfl, rfl⟩ := hr
    obtain ⟨rfl, -, hfit⟩ := Quiet.checkArgs ⟨h₂, hs⟩
    exact .inr ⟨params, types, _, rfl, ⟨h₁, hs⟩, hfit, rfl⟩
  | _ => exact (not_quiet_report_bind (fun _ => (ha _).bind fun _ => .pure _) ⟨hr, hs⟩).elim

/-- An identifier that is called is a function or a value. -/
theorem Quiet.identifierCallable {c : Callable}
    (h : Quiet (identifierCallable ctx node name typeArgs) s c s') :
    ∃ args u meaning, Quiet (typeExprs ctx typeArgs) s args u ∧
      ctx.lookup u.frame u.globals name args true = .ok meaning ∧
      ((∃ f, meaning = .func f ∧ c = .func f none ∧ s' = u) ∨
        ∃ ty, c = .value ty ∧ Quiet (typed node (Check.identifierValue ctx node name meaning)) u ty s') := by
  obtain ⟨hr, hs⟩ := h
  simp only [Check.identifierCallable, bind_eq_ok] at hr
  obtain ⟨args, u, h₁, meaning, v, h₂, h₃⟩ := hr
  cases meaning with
  | func f =>
    obtain ⟨rfl, rfl⟩ := pure_eq_ok.1 h₃
    obtain ⟨hm, rfl, hu⟩ := quiet_lookup.1 ⟨h₂, hs⟩
    exact ⟨args, _, _, ⟨h₁, hu⟩, hm, .inl ⟨f, rfl, rfl, rfl⟩⟩
  | _ =>
    obtain ⟨ty, w, h₄, h₅⟩ := bind_eq_ok.1 h₃
    obtain ⟨rfl, rfl⟩ := pure_eq_ok.1 h₅
    obtain ⟨hm, rfl, hu⟩ := quiet_lookup.1 ⟨h₂, Keeps.silent (typedValue_gathers _ _) h₄ hs⟩
    exact ⟨args, v, _, ⟨h₁, hu⟩, hm, .inr ⟨ty, rfl, h₄, hs⟩⟩

/-- So is a member that is called. -/
theorem Quiet.memberCallable {use : Check MemberUse} {c : Callable} (h : Quiet (memberCallable node use) s c s') :
    ∃ m u, Quiet use s m u ∧ match m with
      | .func f object => c = .func f object ∧ s' = u
      | .storage storage ty => c = .value ty ∧ s' = (u.setInfo node (.storage storage)).setType node ty
      | .unresolved => c = .unresolved ∧ s' = u.setType node .unresolved := by
  obtain ⟨hr, hs⟩ := h
  obtain ⟨m, u, h₁, h₂⟩ := bind_eq_ok.1 hr
  cases m with
  | func f object =>
    obtain ⟨rfl, rfl⟩ := pure_eq_ok.1 h₂
    exact ⟨_, u, ⟨h₁, hs⟩, rfl, rfl⟩
  | storage storage ty =>
    simp only [bind_eq_ok, noteInfo_apply, noteType_apply, pure_eq_ok, ok_inj] at h₂
    obtain ⟨_, _, ⟨-, rfl⟩, _, _, ⟨-, rfl⟩, rfl, rfl⟩ := h₂
    exact ⟨_, u, ⟨h₁, hs⟩, rfl, rfl⟩
  | unresolved =>
    simp only [bind_eq_ok, noteType_apply, pure_eq_ok, ok_inj] at h₂
    obtain ⟨_, _, ⟨-, rfl⟩, rfl, rfl⟩ := h₂
    exact ⟨_, u, ⟨h₁, hs⟩, rfl, rfl⟩

/-- A call is one of a function or of a value. -/
theorem Quiet.call {callee : Node} {callable : Check Callable} (ha : ∀ hints, Keeps (ExprEffect ids) (analyse hints))
    (h : Quiet (call ctx node callee callable argNodes analyse) s t s') :
    ∃ c u, Quiet callable s c u ∧ match c with
      | .func f object => Quiet (Check.callFunc ctx node callee f object argNodes analyse) u t s'
      | .value ty => Quiet (Check.callValue ctx node ty argNodes analyse) u t s'
      | .unresolved => t = .unresolved ∧ ∃ types, Quiet (analyse []) u types s' := by
  obtain ⟨hr, hs⟩ := h
  obtain ⟨c, u, h₁, h₂⟩ := bind_eq_ok.1 hr
  cases c with
  | func f object =>
    exact ⟨_, u, ⟨h₁, Keeps.silent (callFunc_gathers _ _ _ ha) h₂ hs⟩, h₂, hs⟩
  | value ty => exact ⟨_, u, ⟨h₁, Keeps.silent (callValue_gathers _ _ ha) h₂ hs⟩, h₂, hs⟩
  | unresolved =>
    obtain ⟨types, v, h₃, h₄⟩ := bind_eq_ok.1 h₂
    obtain ⟨rfl, rfl⟩ := pure_eq_ok.1 h₄
    exact ⟨_, u, ⟨h₁, (ha _ h₃).silent hs⟩, rfl, types, h₃, hs⟩

/-- An element is read by the getter. -/
theorem Quiet.elementValue {indexNode : Node} {object index : Check Ty} (hi : Keeps Adds index)
    (h : Quiet (elementValue ctx node indexNode object index) s t s') :
    ∃ o u i v, Quiet object s o u ∧ Quiet index u i v ∧
      ((o = .unresolved ∧ t = .unresolved ∧ s' = v) ∨
        ∃ getter sig, ctx.method? o .indexerGet = .ok (some getter) ∧ ctx.registry.funcType getter = .ok sig ∧
          ctx.AdmitsAll sig.params [⟨i, indexNode⟩] ∧ t = sig.ret ∧
          s' = v.setInfo node (.indexer getter)) := by
  obtain ⟨hr, hs⟩ := h
  simp only [Check.elementValue, bind_eq_ok] at hr
  obtain ⟨o, u, h₁, i, v, h₂, r, w, h₃, h₄⟩ := hr
  have hparts : w.diagnostics = [] → Quiet object s o u ∧ Quiet index u i v ∧ Quiet (Check.indexerOf ctx node o) v r w := by
    intro hw
    have hv := Keeps.silent (indexerOf_gathers _ _) h₃ hw
    exact ⟨⟨h₁, (hi h₂).silent hv⟩, ⟨h₂, hv⟩, ⟨h₃, hw⟩⟩
  cases r with
  | none =>
    obtain ⟨rfl, rfl⟩ := pure_eq_ok.1 h₄
    obtain ⟨ho, hi, hx⟩ := hparts hs
    obtain ⟨rfl, ⟨hu, -⟩ | ⟨_, _, hr, -⟩⟩ := hx.indexerOf
    · exact ⟨o, u, i, _, ho, hi, .inl ⟨hu, rfl, rfl⟩⟩
    · cases hr
  | some r =>
    obtain ⟨getter, setter⟩ := r
    cases getter with
    | none => exact (not_quiet_reject ⟨h₄, hs⟩).elim
    | some getter =>
      simp only [bind_eq_ok, lift_eq_ok, noteInfo_apply, pure_eq_ok, ok_inj] at h₄
      obtain ⟨sig, _, ⟨hsig, rfl⟩, b, x, h₄, _, _, ⟨-, rfl⟩, rfl, rfl⟩ := h₄
      obtain ⟨rfl, -, hfit⟩ := Quiet.checkArgs ⟨h₄, hs⟩
      obtain ⟨ho, hi, hx⟩ := hparts hs
      obtain ⟨rfl, ⟨-, hr⟩ | ⟨_, _, ⟨⟩, hg, -⟩⟩ := hx.indexerOf
      · cases hr
      · exact ⟨o, u, i, _, ho, hi, .inr ⟨getter, sig, hg, hsig, hfit, rfl, rfl⟩⟩

/-! ### Assignments and steps -/

/-- What is not a place is not assigned to without a report. -/
theorem Quiet.target_isPlace {e : Expr} (h : Quiet (target ctx e asValue) s r s') : e.isPlace = true := by
  by_contra hp
  obtain ⟨hr, hs⟩ := h
  rw [target_of_not_place (Bool.eq_false_iff.2 hp)] at hr
  obtain ⟨_, u, -, h₂⟩ := bind_eq_ok.1 hr
  exact not_quiet_reported ⟨h₂, hs⟩

/-- Only a variable is assigned to by its name. -/
theorem Quiet.identifierTarget
    (h : Quiet (identifierTarget ctx node name typeArgs) s r s') :
    ∃ args u storage ty declared, Quiet (typeExprs ctx typeArgs) s args u ∧
      ctx.lookup u.frame u.globals name args false = .ok (.var storage ty declared) ∧
      r = some (.direct storage declared) ∧ s' = (u.setInfo node (.storage storage)).setType node ty := by
  obtain ⟨hr, hs⟩ := h
  simp only [Check.identifierTarget, bind_eq_ok] at hr
  obtain ⟨args, u, h₁, meaning, v, h₂, h₃⟩ := hr
  cases meaning with
  | var storage ty declared =>
    simp only [bind_eq_ok, noteInfo_apply, noteType_apply, pure_eq_ok, ok_inj] at h₃
    obtain ⟨_, _, ⟨-, rfl⟩, _, _, ⟨-, rfl⟩, rfl, rfl⟩ := h₃
    obtain ⟨hm, rfl, hu⟩ := quiet_lookup.1 ⟨h₂, hs⟩
    exact ⟨args, _, storage, ty, declared, ⟨h₁, hu⟩, hm, rfl, rfl⟩
  | func f =>
    obtain ⟨_, w, -, h₄⟩ := bind_eq_ok.1 h₃
    exact (not_quiet_reported ⟨h₄, hs⟩).elim
  | type ty =>
    obtain ⟨_, w, -, h₄⟩ := bind_eq_ok.1 h₃
    exact (not_quiet_reported ⟨h₄, hs⟩).elim
  | _ =>
    obtain ⟨ty, w, h₄, h₅⟩ := bind_eq_ok.1 h₃
    obtain ⟨-, rfl⟩ := pure_eq_ok.1 h₅
    obtain ⟨x, hx, rfl⟩ := quiet_typed.1 ⟨h₄, hs⟩
    exact (not_quiet_reject hx).elim

/-- A member that is assigned to is a place, unless nothing is known about it. -/
theorem Quiet.memberTarget {use : Check MemberUse} (h : Quiet (memberTarget node use) s r s') :
    ∃ m u, Quiet use s m u ∧
      ((∃ storage ty, m = .storage storage ty ∧ storage.writable = true ∧ r = some (.direct storage ty) ∧
          s' = (u.setInfo node (.storage storage)).setType node ty) ∨
        (m = .unresolved ∧ r = none ∧ s' = u.setType node .unresolved)) := by
  obtain ⟨hr, hs⟩ := h
  obtain ⟨m, u, h₁, h₂⟩ := bind_eq_ok.1 hr
  have hno : ¬(do noteType node .unresolved; notAssignable node) u = .ok (r, s') := fun h => by
    obtain ⟨_, w, -, h₄⟩ := bind_eq_ok.1 h
    exact not_quiet_reported ⟨h₄, hs⟩
  cases m with
  | storage storage ty =>
    cases hw : storage.writable with
    | true =>
      simp only [hw, if_true, bind_eq_ok, noteInfo_apply, noteType_apply, pure_eq_ok, ok_inj] at h₂
      obtain ⟨_, _, ⟨-, rfl⟩, _, _, ⟨-, rfl⟩, rfl, rfl⟩ := h₂
      exact ⟨_, u, ⟨h₁, hs⟩, .inl ⟨storage, ty, rfl, hw, rfl, rfl⟩⟩
    | false =>
      simp only [hw] at h₂
      exact (hno h₂).elim
  | func f object => exact (hno h₂).elim
  | unresolved =>
    simp only [bind_eq_ok, noteType_apply, pure_eq_ok, ok_inj] at h₂
    obtain ⟨_, _, ⟨-, rfl⟩, rfl, rfl⟩ := h₂
    exact ⟨_, u, ⟨h₁, hs⟩, .inr ⟨rfl, rfl, rfl⟩⟩

/-- The index fits the getter, and the setter takes one parameter more. -/
theorem Quiet.accessorTarget {objectNode indexNode : Node} {o i : Ty} {getter setter : FuncRef}
    (h : Quiet (accessorTarget ctx node objectNode indexNode o i getter setter) s r s') :
    ∃ reads writes, ctx.registry.funcType getter = .ok reads ∧ ctx.registry.funcType setter = .ok writes ∧
      ctx.AdmitsAll reads.params [⟨i, indexNode⟩] ∧ writes.params.length = reads.params.length + 1 ∧
      r = some (.callBased objectNode.id o getter setter [indexNode.id] reads.ret) ∧ s' = s.setType node reads.ret := by
  obtain ⟨hr, hs⟩ := h
  simp only [Check.accessorTarget, bind_eq_ok, lift_eq_ok] at hr
  obtain ⟨reads, _, ⟨hg, rfl⟩, writes, _, ⟨hw, rfl⟩, b, u, h₁, h₂⟩ := hr
  cases b with
  | false =>
    obtain ⟨-, rfl⟩ := pure_eq_ok.1 h₂
    obtain ⟨-, hb, -⟩ := Quiet.checkArgs ⟨h₁, hs⟩
    cases hb
  | true =>
    simp only [Bool.not_true, Bool.false_eq_true, if_false] at h₂
    split at h₂
    · exact (not_quiet_reported ⟨h₂, hs⟩).elim
    · rename_i hl
      simp only [bind_eq_ok, noteType_apply, pure_eq_ok, ok_inj] at h₂
      obtain ⟨_, _, ⟨-, rfl⟩, rfl, rfl⟩ := h₂
      obtain ⟨rfl, -, hfit⟩ := Quiet.checkArgs ⟨h₁, hs⟩
      exact ⟨reads, writes, hg, hw, hfit, not_not.1 hl, rfl, rfl⟩

/-- An element to be assigned to has both accessors. -/
theorem Quiet.elementTarget {objectNode indexNode : Node} {object index : Check Ty}
    (hi : Keeps Adds index) (h : Quiet (elementTarget ctx node objectNode indexNode object index) s r s') :
    ∃ o u i v, Quiet object s o u ∧ Quiet index u i v ∧
      ((o = .unresolved ∧ r = none ∧ s' = v.setType node .unresolved) ∨
        ∃ getter setter, ctx.method? o .indexerGet = .ok (some getter) ∧
          ctx.method? o .indexerSet = .ok (some setter) ∧
          Quiet (Check.accessorTarget ctx node objectNode indexNode o i getter setter) (v.setType node .unresolved) r
            s') := by
  obtain ⟨hr, hs⟩ := h
  simp only [Check.elementTarget, bind_eq_ok, noteType_apply, ok_inj] at hr
  obtain ⟨o, u, h₁, i, v, h₂, _, _, ⟨-, rfl⟩, x, w, h₃, h₄⟩ := hr
  have hparts : w.diagnostics = [] → Quiet object s o u ∧ Quiet index u i v ∧
      Quiet (Check.indexerOf ctx node o) (v.setType node .unresolved) x w := by
    intro hw
    have hv : (v.setType node .unresolved).diagnostics = [] := Keeps.silent (indexerOf_gathers _ _) h₃ hw
    exact ⟨⟨h₁, (hi h₂).silent hv⟩, ⟨h₂, hv⟩, ⟨h₃, hw⟩⟩
  cases x with
  | none =>
    obtain ⟨rfl, rfl⟩ := pure_eq_ok.1 h₄
    obtain ⟨ho, hi, hx⟩ := hparts hs
    obtain ⟨rfl, ⟨hu, -⟩ | ⟨_, _, hr, -⟩⟩ := hx.indexerOf
    · exact ⟨o, u, i, v, ho, hi, .inl ⟨hu, rfl, rfl⟩⟩
    · cases hr
  | some pair =>
    obtain ⟨getter, setter⟩ := pair
    cases getter with
    | none => exact (not_quiet_reported ⟨h₄, hs⟩).elim
    | some getter =>
      cases setter with
      | none => exact (not_quiet_reported ⟨h₄, hs⟩).elim
      | some setter =>
        obtain ⟨ho, hi, hx⟩ := hparts (Keeps.silent (accessorTarget_gathers _ _ _ _ _ _) h₄ hs)
        obtain ⟨rfl, ⟨-, hr⟩ | ⟨_, _, ⟨⟩, hg, hset⟩⟩ := hx.indexerOf
        · cases hr
        · exact ⟨o, u, i, v, ho, hi, .inr ⟨getter, setter, hg, hset, h₄, hs⟩⟩

/-- An assigned value fits its target. -/
theorem Quiet.assign {valueNode : Node} {target : Check (Option Target)} {value : Option Ty → Check Ty}
    (hv : ∀ hint, Keeps Adds (value hint)) (h : Quiet (assign ctx node valueNode target value) s t s') :
    ∃ r u, Quiet target s r u ∧ match r with
      | none => t = .unresolved ∧ ∃ found, Quiet (value none) u found s'
      | some target => ∃ expected found v, ctx.registry.storedType target = .ok expected ∧
          Quiet (value (some expected)) u found v ∧ ctx.Admits expected found ∧ t = target.ty ∧
          s' = (v.written target).setInfo node (.assign target) := by
  obtain ⟨hr, hs⟩ := h
  obtain ⟨r, u, h₁, h₂⟩ := bind_eq_ok.1 hr
  cases r with
  | none =>
    obtain ⟨found, v, h₃, h₄⟩ := bind_eq_ok.1 h₂
    obtain ⟨rfl, rfl⟩ := pure_eq_ok.1 h₄
    exact ⟨_, u, ⟨h₁, (hv _ h₃).silent hs⟩, rfl, found, h₃, hs⟩
  | some target =>
    simp only [bind_eq_ok, lift_eq_ok, written_apply, noteInfo_apply, pure_eq_ok, ok_inj] at h₂
    obtain ⟨expected, _, ⟨he, rfl⟩, found, v, h₃, b, w, h₄, _, _, ⟨-, rfl⟩, _, _, ⟨-, rfl⟩, rfl, rfl⟩ := h₂
    have hw : w.diagnostics = [] := by simpa using hs
    obtain ⟨rfl, -, ha⟩ := Quiet.checkAssignable ⟨h₄, hw⟩
    exact ⟨_, _, ⟨h₁, (hv _ h₃).silent hw⟩, expected, found, _, he, ⟨h₃, hw⟩, ha, rfl, rfl⟩

/-- A step of a target of known type found its operator, which fits. -/
theorem Quiet.stepTarget {op : StepOp} {before : Bool} {target : Target}
    (h : Quiet (stepTarget ctx node op before target) s t s') :
    (target.ty = .unresolved ∧ t = .unresolved ∧ s' = s) ∨
      ∃ operator ret, ctx.method? target.ty op.member = .ok (some operator) ∧
        ctx.registry.operatorSignature operator = .ok (0, ret) ∧
        ctx.registry.stepFits target target.ty ret = .ok true ∧ t = target.ty ∧
        s' = (s.written target).setInfo node (.step target operator before) := by
  obtain ⟨hr, hs⟩ := h
  unfold Check.stepTarget at hr
  dsimp only at hr
  split at hr
  · rename_i hu
    obtain ⟨rfl, rfl⟩ := pure_eq_ok.1 hr
    exact .inl ⟨(Ty.isUnresolved_eq_true_iff _).1 hu, rfl, rfl⟩
  · simp only [bind_eq_ok, lift_eq_ok] at hr
    obtain ⟨r, _, ⟨hm, rfl⟩, h₁⟩ := hr
    cases r with
    | none => exact (not_quiet_reject ⟨h₁, hs⟩).elim
    | some operator =>
      simp only [bind_eq_ok, lift_eq_ok] at h₁
      obtain ⟨⟨count, ret⟩, _, ⟨hsig, rfl⟩, h₂⟩ := h₁
      dsimp only at h₂
      split at h₂
      · exact (not_quiet_reject ⟨h₂, hs⟩).elim
      · rename_i hcount
        simp only [bind_eq_ok, lift_eq_ok] at h₂
        obtain ⟨fits, _, ⟨hfit, rfl⟩, h₃⟩ := h₂
        cases fits with
        | false => exact (not_quiet_reject ⟨h₃, hs⟩).elim
        | true =>
          simp only [if_true, bind_eq_ok, written_apply, noteInfo_apply, pure_eq_ok, ok_inj] at h₃
          obtain ⟨_, _, ⟨-, rfl⟩, _, _, ⟨-, rfl⟩, rfl, rfl⟩ := h₃
          rw [not_not.1 hcount] at hsig
          exact .inr ⟨operator, ret, hm, hsig, hfit, rfl, rfl⟩

/-- A step is made on a target. -/
theorem Quiet.step {op : StepOp} {before : Bool} {target : Check (Option Target)}
    (h : Quiet (step ctx node op before target) s t s') :
    ∃ r u, Quiet target s r u ∧ match r with
      | none => t = .unresolved ∧ s' = u
      | some target => Quiet (Check.stepTarget ctx node op before target) u t s' := by
  obtain ⟨hr, hs⟩ := h
  obtain ⟨r, u, h₁, h₂⟩ := bind_eq_ok.1 hr
  cases r with
  | none =>
    obtain ⟨rfl, rfl⟩ := pure_eq_ok.1 h₂
    exact ⟨_, u, ⟨h₁, hs⟩, rfl, rfl⟩
  | some target =>
    exact ⟨_, u, ⟨h₁, Keeps.silent (stepTarget_gathers _ _ _) h₂ hs⟩, h₂, hs⟩

end Check

end ScriptCheck
