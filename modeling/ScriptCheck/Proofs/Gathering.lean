import ScriptCheck.Proofs.TypeNodes

/-!
# What a run gathers

Several statements about runs have one form: a run through a part gathers a list that belongs to the part, and that of a whole
is that of its parts, in order (`Gathers`). Where a type or a note is written at a node, that may gather something by itself;
it is listed before what the parts gather, though it is written last. Most steps look something up and gather nothing. So the
rules for expressions and, where changes of a frame do not count either (`GathersAnywhere`), those for most statements can be
gone through for all such statements at once. Left to each of them are the rules for lambdas, tasks, loops and jumps.
-/

namespace ScriptCheck

/-- What is noted about a lambda or a task. -/
def NodeInfo.closure? : NodeInfo → Option ClosureInfo
  | .lambda c => some c
  | .task c => some c
  | _ => none

/-- The frames differ at most in what has been narrowed. -/
structure Frame.Widens (f g : Frame) : Prop where
  locals : g.locals = f.locals
  names : g.names = f.names
  ret : g.ret = f.ret
  seqElem : g.seqElem = f.seqElem
  loopDepth : g.loopDepth = f.loopDepth
  isThisCall : g.isThisCall = f.isThisCall

namespace Frame.Widens

theorem refl (f : Frame) : f.Widens f := ⟨rfl, rfl, rfl, rfl, rfl, rfl⟩

theorem trans {f g h : Frame} (a : f.Widens g) (b : g.Widens h) : f.Widens h :=
  ⟨b.locals.trans a.locals, b.names.trans a.names, b.ret.trans a.ret, b.seqElem.trans a.seqElem,
    b.loopDepth.trans a.loopDepth, b.isThisCall.trans a.isThisCall⟩

end Frame.Widens

/-- What is written at a node: its type, or what is noted besides that. -/
inductive NodeWrite where
  | type (node : Nat)
  | info (node : Nat)

/-- `R bs` relates the states before and after a run that gathers `bs`. -/
class Gathers {β : Type} (R : List β → State → State → Prop) where
  /-- What is gathered where this is written. -/
  cost : List NodeWrite → List β
  cost_append (vs ws : List NodeWrite) : cost (vs ++ ws) = cost vs ++ cost ws
  seq {bs cs : List β} {s t u : State} : R bs s t → R cs t u → R (bs ++ cs) s u
  /-- What is written may be listed before what was gathered first. -/
  swap {ws : List NodeWrite} {bs cs : List β} {s t : State} : R (bs ++ (cost ws ++ cs)) s t → R (cost ws ++ (bs ++ cs)) s t
  /-- More may be listed than was written. -/
  spare (ws : List NodeWrite) {bs : List β} {s t : State} : R bs s t → R (cost ws ++ bs) s t
  /-- A type may be written where a note is listed. -/
  typedInstead {n : Nat} {bs : List β} {s t : State} : R (cost [.type n] ++ bs) s t → R (cost [.info n] ++ bs) s t
  looks {s t : State} : Notes (fun _ => False) [] s t → R [] s t
  typed (node : Node) (ty : Ty) (s : State) : R (cost [.type node.id]) s { s with nodes := s.nodes.setType node.id ty }
  noted (node : Node) {info : NodeInfo} (h : info.closure? = none) (s : State) :
    R (cost [.info node.id]) s { s with nodes := s.nodes.setInfo node.id info }
  types {ids : List Nat} {s t : State} : NotesTypes ids s t → R (cost (ids.map .info)) s t
  widens {f : Frame} {s : State} : s.frame.Widens f → R [] s { s with frame := f }

open Gathers (cost)

/-- Whether something to call is a named function. -/
def Callable.isFunc : Callable → Bool
  | .func _ _ => true
  | _ => false

/-- What is listed for a node itself. -/
def own {β : Type} (R : List β → State → State → Prop) [Gathers R] (node : Node) : List β := cost R [.type node.id, .info node.id]

/-- What gathers `bs` gathers `cs`, whatever follows. -/
def Within {β : Type} (R : List β → State → State → Prop) (bs cs : List β) : Prop :=
  ∀ ds s t, R (bs ++ ds) s t → R (cs ++ ds) s t

/-- What fits within more is more. -/
theorem Within.run {β : Type} {R : List β → State → State → Prop} {bs cs : List β} {s t : State} (h : Within R bs cs)
    (hr : R bs s t) : R cs s t := by
  simpa using h [] s t (by simpa using hr)

namespace Check

variable {α γ β : Type} {R : List β → State → State → Prop} [Gathers R] {bs cs : List β} {ws : List NodeWrite}
  {ctx : Context} {node : Node}
variable {use : Check MemberUse} {analyse : List (Option Ty) → Check (List Ty)}

instance : Std.Refl (R []) := ⟨fun s => Gathers.looks (Std.Refl.refl s)⟩

/-! ### Steps in a row -/

namespace Keeps

variable {x : Check α} {f : α → Check γ}

/-- A step that only looks something up gathers nothing. -/
theorem looks (h : Keeps (Notes (fun _ => False) []) x) : Keeps (R []) x := h.weaken fun _ _ => Gathers.looks

/-- The types that a step finds out are written at their nodes. -/
theorem writesTypes {ids : List Nat} (h : Keeps (NotesTypes ids) x) : Keeps (R (cost R (ids.map .info))) x :=
  h.weaken fun _ _ => Gathers.types

/-- What two steps gather, one after the other. -/
theorem seq (hx : Keeps (R bs) x) (hf : ∀ a, Keeps (R cs) (f a)) : Keeps (R (bs ++ cs)) (x >>= f) := by
  intro s b s' h
  obtain ⟨a, t, h₁, h₂⟩ := bind_eq_ok.1 h
  exact Gathers.seq (hx h₁) (hf a h₂)

/-- A step, and after it one that gathers nothing. -/
theorem first (hx : Keeps (R bs) x) (hf : ∀ a, Keeps (R []) (f a)) : Keeps (R bs) (x >>= f) := by
  have h := hx.seq hf
  rwa [List.append_nil] at h

/-- A step after one that gathers nothing. -/
theorem last (hx : Keeps (R []) x) (hf : ∀ a, Keeps (R bs) (f a)) :
    Keeps (R bs) (x >>= f) := hx.seq hf

/-- A step, and after it one that writes something and gathers more. -/
theorem carry (hx : Keeps (R bs) x) (hf : ∀ a, Keeps (R (cost R ws ++ cs)) (f a)) :
    Keeps (R (cost R ws ++ (bs ++ cs))) (x >>= f) := (hx.seq hf).weaken fun _ _ => Gathers.swap

/-- A step, and after it something is written. -/
theorem write (hx : Keeps (R bs) x) (hf : ∀ a, Keeps (R (cost R ws)) (f a)) : Keeps (R (cost R ws ++ bs)) (x >>= f) := by
  have h : Keeps (R (cost R ws ++ (bs ++ []))) (x >>= f) := hx.carry fun a => by
    rw [List.append_nil]
    exact hf a
  rwa [List.append_nil] at h

/-- Something is written, and after it something else. -/
theorem join (vs : List NodeWrite) (hx : Keeps (R (cost R vs)) x) (hf : ∀ a, Keeps (R (cost R ws)) (f a)) :
    Keeps (R (cost R (vs ++ ws))) (x >>= f) := by
  rw [Gathers.cost_append]
  exact hx.seq hf

/-- Nothing has to be written. -/
theorem spare (ws : List NodeWrite) (h : Keeps (R bs) x) : Keeps (R (cost R ws ++ bs)) x :=
  h.weaken fun _ _ => Gathers.spare ws

/-- Notes that are never written cost nothing. -/
theorem idle (h : Keeps (R []) x) : Keeps (R (cost R ws)) x := by
  simpa using h.spare ws

/-- The type need not be noted. -/
theorem untyped (h : Keeps (R (cost R [.info node.id])) x) : Keeps (R (own R node)) x := by
  have h := h.spare [.type node.id]
  rwa [← Gathers.cost_append] at h

/-- Only the type need be noted. -/
theorem unnoted (h : Keeps (R (cost R [.type node.id])) x) : Keeps (R (own R node)) x := by
  rw [own, ← List.append_nil (cost R _),
    show [NodeWrite.type node.id, .info node.id] = [.type node.id] ++ [.info node.id] from rfl,
    Gathers.cost_append, List.append_assoc]
  exact h.weaken fun s t hr => Gathers.swap (Gathers.spare [.info node.id] (by simpa using hr))

omit [Gathers R] in
theorem within (h : Keeps (R bs) x) (hbs : Within R bs cs) : Keeps (R cs) x :=
  h.weaken fun _ _ => hbs.run

end Keeps

/-! ### Primitive steps -/

/-- A report gathers nothing. -/
theorem report_gathers {problem : Problem} (hp : problem.isJump = false) (node : Node) : Keeps (R []) (report problem node) :=
  (report_notes hp node).looks

theorem reject_gathers {problem : Problem} (hp : problem.isJump = false) (node : Node) : Keeps (R []) (reject problem node) :=
  (reject_notes hp node).looks

/-- The type of a node is one write. -/
theorem noteType_gathers (node : Node) (ty : Ty) : Keeps (R (cost R [.type node.id])) (noteType node ty) := by
  intro s a s' h
  cases h
  exact Gathers.typed node ty s

/-- A note that is no closure is one write. -/
theorem noteInfo_gathers {info : NodeInfo} (node : Node) (hinfo : info.closure? = none) :
    Keeps (R (cost R [.info node.id])) (noteInfo node info) := by
  intro s a s' h
  cases h
  exact Gathers.noted node hinfo s

/-- A note and a type are the own writes of a node. -/
theorem noteBoth_gathers {info : NodeInfo} (node : Node) (hinfo : info.closure? = none) (ty : Ty) :
    Keeps (R (own R node)) (do noteInfo node info; noteType node ty) := by
  rw [own, show [NodeWrite.type node.id, .info node.id] = [.type node.id] ++ [.info node.id] from rfl, Gathers.cost_append]
  exact (noteInfo_gathers node hinfo).write fun _ => noteType_gathers node ty

/-- What is noted for a node, and its type after that. -/
theorem typed_gathers {x : Check Ty} (hx : Keeps (R (cost R [.info node.id] ++ bs)) x) :
    Keeps (R (own R node ++ bs)) (typed node x) := by
  rw [own, show [NodeWrite.type node.id, .info node.id] = [.type node.id] ++ [.info node.id] from rfl, Gathers.cost_append,
    List.append_assoc]
  exact hx.write fun ty => (noteType_gathers node ty).first fun _ => .pure _

/-- A literal writes its type. -/
theorem literal_gathers (ty : Ty) : Keeps (R (own R node)) (typed node (return ty)) := by
  rw [← List.append_nil (own R node)]
  exact typed_gathers (Keeps.spare _ (.pure _))

/-- A written type is noted once it is known. -/
theorem resolved_gathers {x : Check Ty} (hx : Keeps (R bs) x) : Keeps (R (cost R [.info node.id] ++ bs)) (resolved node x) :=
  hx.write fun _ => (noteInfo_gathers node (by rfl)).first fun _ => .pure _

/-- Asking for a value adds nothing. -/
theorem valued_gathers {x : Check Ty} (hx : Keeps (R bs) x) : Keeps (R bs) (valued node x) := by
  refine hx.first fun ty => ?_
  split
  · exact reject_gathers rfl _
  · exact .pure _

/-- Comparing types gathers nothing. -/
theorem checkAssignable_gathers (expected found : Ty) (node : Node) :
    Keeps (R []) (checkAssignable ctx expected found node) := (checkAssignable_notes expected found node).looks

/-- Comparing a value with the expected type adds nothing to it. -/
theorem compared_gathers {expected : Ty} {x : Check Ty} (hx : Keeps (R bs) x) :
    Keeps (R bs) (do let found ← x; let _ ← checkAssignable ctx expected found node) :=
  hx.first fun _ => (checkAssignable_gathers _ _ _).last fun _ => .pure _

/-- A written type writes at each of its nodes. -/
theorem typeExpr_gathers (t : TypeExpr) : Keeps (R (cost R (t.ids.map .info))) (typeExpr ctx t) :=
  (typeExpr_typeNodes ctx t).writesTypes

theorem typeExprs_gathers (ts : List TypeExpr) : Keeps (R (cost R ((TypeExpr.idsOfList ts).map .info))) (typeExprs ctx ts) :=
  (typeExprs_typeNodes ctx ts).writesTypes

/-- A look-up gathers nothing. -/
theorem lookup_gathers (name : String) (args : List Ty) (allowPartial : Bool) :
    Keeps (R []) (lookup ctx name args allowPartial) := (lookup_notes name args allowPartial).looks

theorem funcValue_gathers (f : FuncRef) : Keeps (R (cost R [.info node.id])) (funcValue ctx node f) := by
  unfold funcValue
  split
  · exact (reject_gathers rfl _).idle
  · exact (Keeps.lift _).last fun _ => (noteInfo_gathers node (by rfl)).first fun _ => .pure _

/-- A name is noted for its node. -/
theorem identifierValue_gathers (name : String) (meaning : Meaning) :
    Keeps (R (cost R [.info node.id])) (identifierValue ctx node name meaning) := by
  unfold identifierValue
  split
  · exact (noteInfo_gathers node (by rfl)).first fun _ => .pure _
  · exact funcValue_gathers _
  · exact (reject_gathers rfl _).idle
  · exact (reject_gathers rfl _).idle
  · exact (reject_gathers rfl _).idle

/-- What an identifier gathers. -/
def nameCost (R : List β → State → State → Prop) [Gathers R] (node : Node) (typeArgs : List TypeExpr) : List β :=
  own R node ++ cost R ((TypeExpr.idsOfList typeArgs).map .info)

/-- A name with type arguments writes at all their nodes. -/
theorem identifier_gathers (name : String) (typeArgs : List TypeExpr) :
    Keeps (R (nameCost R node typeArgs)) (typed node (identifier ctx node name typeArgs)) :=
  typed_gathers <| (typeExprs_gathers typeArgs).write fun _ => (lookup_gathers _ _ _).last fun _ => identifierValue_gathers _ _

/-- The value of a name whose meaning is known. -/
theorem typedValue_gathers (name : String) (meaning : Meaning) :
    Keeps (R (own R node)) (typed node (identifierValue ctx node name meaning)) := by
  rw [← List.append_nil (own R node)]
  refine typed_gathers ?_
  rw [List.append_nil]
  exact identifierValue_gathers _ _

/-! ### Operators -/

/-- Operands are gathered in order. -/
theorem binary_gathers {left right : Check Ty} (op : BinaryOp) (hl : Keeps (R bs) left) (hr : Keeps (R cs) right) :
    Keeps (R (bs ++ cs)) (binary ctx node op left right) := by
  refine hl.seq fun l => hr.first fun r => ?_
  dsimp only
  split
  · exact .pure _
  · split
    · exact .pure _
    · exact (report_gathers rfl _).last fun _ => .pure _

theorem plainUnary_gathers {operand : Check Ty} (op : UnaryOp) (ho : Keeps (R bs) operand) :
    Keeps (R bs) (plainUnary node op operand) := by
  refine ho.first fun ty => ?_
  split
  · exact (report_gathers rfl _).last fun _ => .pure _
  · exact .pure _

/-- A test is noted after its value and its type. -/
theorem isTest_gathers {value : Check Ty} (ty : TypeExpr) (hv : Keeps (R bs) value) :
    Keeps (R (cost R [.info node.id] ++ (bs ++ cost R (ty.ids.map .info)))) (isTest ctx node value ty) := by
  refine hv.carry fun _ => (typeExpr_gathers ty).write fun tested => ?_
  split
  · exact (noteInfo_gathers node (by rfl)).first fun _ => .pure _
  · exact (Keeps.pure _).idle
  · exact ((report_gathers rfl _).last fun _ => .pure _).idle

/-! ### Members and elements -/

/-- A name before a dot is analysed by itself, whatever else is before a dot as a value. -/
theorem receiver_gathers {object : Expr} {asValue : Check Ty} (hv : Keeps (R bs) asValue)
    (hname : ∀ node name typeArgs, object = .identifier node name typeArgs → Within R (nameCost R node typeArgs) bs) :
    Keeps (R bs) (receiver ctx object asValue) := by
  unfold receiver
  split
  · refine Keeps.within ?_ (hname _ _ _ rfl)
    refine (typeExprs_gathers _).write fun args => (lookup_gathers _ _ _).last fun meaning => ?_
    split
    · exact ((noteInfo_gathers _ (by rfl)).first fun _ => .pure _).untyped
    · exact (typedValue_gathers _ _).first fun _ => .pure _
  · exact (valued_gathers hv).first fun _ => .pure _

theorem memberOf_gathers (node : Node) (object : Option Nat) (ty : Ty) (name : Name) (args : List Ty) :
    Keeps (R []) (memberOf ctx node object ty name args) := (memberOf_notes node object ty name args).looks

/-- Type arguments follow what stands before the dot. -/
theorem memberUse_gathers {receiver : Check Receiver} (node object : Node) (name : String) (typeArgs : List TypeExpr)
    (hr : Keeps (R bs) receiver) :
    Keeps (R (bs ++ cost R ((TypeExpr.idsOfList typeArgs).map .info)))
      (memberUse ctx node object receiver name typeArgs) := by
  refine hr.seq fun r => (typeExprs_gathers typeArgs).first fun args => ?_
  split
  · exact memberOf_gathers _ _ _ _ _
  · exact memberOf_gathers _ _ _ _ _

/-- A member is noted after what stands before it. -/
theorem memberValue_gathers (hu : Keeps (R bs) use) : Keeps (R (cost R [.info node.id] ++ bs)) (memberValue ctx node use) := by
  refine hu.write fun use => ?_
  split
  · exact (noteInfo_gathers node (by rfl)).first fun _ => .pure _
  · exact funcValue_gathers _
  · exact (Keeps.pure _).idle

theorem indexerOf_gathers (node : Node) (ty : Ty) : Keeps (R []) (indexerOf ctx node ty) := (indexerOf_notes node ty).looks

theorem checkArgs_gathers (node : Node) (params : List Ty) (args : List Argument) :
    Keeps (R []) (checkArgs ctx node params args) := (checkArgs_notes node params args).looks

/-- An element is noted after its object and its index. -/
theorem elementValue_gathers {object index : Check Ty} (indexNode : Node) (ho : Keeps (R bs) object)
    (hi : Keeps (R cs) index) :
    Keeps (R (cost R [.info node.id] ++ (bs ++ cs))) (elementValue ctx node indexNode object index) := by
  refine ho.carry fun objectTy => hi.write fun indexTy => (indexerOf_gathers _ _).last fun r => ?_
  split
  · exact (Keeps.pure _).idle
  · exact (reject_gathers rfl _).idle
  · exact (Keeps.lift _).last fun _ => (checkArgs_gathers _ _ _).last fun _ => (noteInfo_gathers node (by rfl)).first fun _ =>
      .pure _

/-! ### Calls -/

/-- A call notes its callee, and itself last. -/
theorem callFunc_gathers {callee : Node} (f : FuncRef) (object : Option Nat)
    (argNodes : List Node) (ha : ∀ hints, Keeps (R bs) (analyse hints)) :
    Keeps (R (own R callee ++ (cost R [.info node.id] ++ bs))) (callFunc ctx node callee f object argNodes analyse) := by
  rw [← List.append_assoc, own, ← Gathers.cost_append]
  refine (Keeps.lift _).last fun written => (ha _).write fun types => (inferTypeArgs_notes _ _ _ _).looks.last fun r => ?_
  split
  · refine Keeps.join [.type _] (noteType_gathers _ _) fun _ => ?_
    exact (Keeps.pure _).idle
  · refine (Keeps.lift _).last fun _ => (checkArgs_gathers _ _ _).last fun _ => Keeps.join [.type _]
      (noteType_gathers _ _) fun _ => Keeps.join [.info _] (noteInfo_gathers _ (by rfl)) fun _ => ?_
    exact (noteInfo_gathers _ (by rfl)).first fun _ => .pure _

/-- A call of a value is noted with its arguments. -/
theorem callValue_gathers (ty : Ty) (argNodes : List Node) (ha : ∀ hints, Keeps (R bs) (analyse hints)) :
    Keeps (R (cost R [.info node.id] ++ bs)) (callValue ctx node ty argNodes analyse) := by
  unfold callValue
  split
  · exact (ha _).write fun _ => (Keeps.pure _).idle
  · exact (ha _).write fun _ => (checkArgs_gathers _ _ _).last fun _ => (noteInfo_gathers _ (by rfl)).first fun _ => .pure _
  · exact (report_gathers rfl _).last fun _ => (ha _).write fun _ => (Keeps.pure _).idle

/-- Something to call that has a name: a function is noted with the call, anything else by itself. -/
def Finds (R : List β → State → State → Prop) [Gathers R] (node : Node) (bs : List β) (callable : Check Callable) : Prop :=
  ∀ ⦃s c s'⦄, callable s = .ok (c, s') → R (if c.isFunc then bs else own R node ++ bs) s s'

/-- Something to call: in the end it gathers `bs`, also if it is a function that has yet to be noted. -/
def Calls (R : List β → State → State → Prop) [Gathers R] (node : Node) (bs : List β) (callable : Check Callable) : Prop :=
  ∀ ⦃s c s'⦄, callable s = .ok (c, s') →
    if c.isFunc then ∃ cs, R cs s s' ∧ Within R (own R node ++ cs) bs else R bs s s'

/-- What is found may be called. -/
theorem Finds.calls {x : Check Callable} (hx : Finds R node cs x) (hbs : Within R (own R node ++ cs) bs) : Calls R node bs x := by
  intro s c s' h
  have hr := hx h
  cases hfunc : c.isFunc with
  | true =>
    rw [hfunc] at hr
    exact ⟨cs, hr, hbs⟩
  | false =>
    rw [hfunc] at hr
    exact hbs.run hr

/-- A step before what is found adds to it. -/
theorem Finds.bind {x : Check α} {f : α → Check Callable} (hx : Keeps (R bs) x) (hf : ∀ a, Finds R node [] (f a)) :
    Finds R node bs (x >>= f) := by
  intro s c s' h
  obtain ⟨a, t, hfirst, h⟩ := bind_eq_ok.1 h
  have hboth := Gathers.seq (hx hfirst) (hf a h)
  cases hfunc : c.isFunc with
  | true => simpa [hfunc] using hboth
  | false =>
    rw [hfunc] at hboth
    simpa [own] using Gathers.swap hboth

/-- A function is noted only when it is called. -/
theorem func_finds (f : FuncRef) (object : Option Nat) : Finds R node [] (return .func f object) := by
  intro s c s' h
  obtain ⟨rfl, rfl⟩ := pure_eq_ok.1 h
  exact Gathers.looks (Std.Refl.refl s)

/-- Anything else is noted when it is found. -/
theorem noted_finds {x : Check α} {c : α → Callable} (hx : Keeps (R (own R node)) x) (hc : ∀ a, (c a).isFunc = false) :
    Finds R node [] (do return c (← x)) := by
  intro s r s' h
  obtain ⟨a, t, hrun, h⟩ := bind_eq_ok.1 h
  obtain ⟨rfl, rfl⟩ := pure_eq_ok.1 h
  simpa [hc] using hx hrun

/-- A value may be called. -/
theorem value_calls {x : Check Ty} (hx : Keeps (R bs) x) : Calls R node bs (do return .value (← x)) := by
  intro s r s' h
  obtain ⟨ty, t, hrun, h⟩ := bind_eq_ok.1 h
  obtain ⟨rfl, rfl⟩ := pure_eq_ok.1 h
  exact hx hrun

/-- A name that is called finds what it means. -/
theorem identifierCallable_finds (name : String) (typeArgs : List TypeExpr) :
    Finds R node (cost R ((TypeExpr.idsOfList typeArgs).map .info)) (identifierCallable ctx node name typeArgs) := by
  refine .bind (typeExprs_gathers typeArgs) fun args => .bind (lookup_gathers _ _ _) fun meaning => ?_
  split
  · exact func_finds _ _
  · exact noted_finds (typedValue_gathers _ _) fun _ => rfl

/-- So does a member. -/
theorem memberCallable_finds (hu : Keeps (R bs) use) : Finds R node bs (memberCallable node use) := by
  refine .bind hu fun use => ?_
  split
  · exact func_finds _ _
  · rw [← bind_assoc]
    exact noted_finds (noteBoth_gathers _ rfl _) fun _ => rfl
  · exact noted_finds (noteType_gathers _ _).unnoted fun _ => rfl

/-- A call gathers what is called and its arguments. -/
theorem call_gathers {callee : Node} {callable : Check Callable}
    (argNodes : List Node) (hc : Calls R callee bs callable) (ha : ∀ hints, Keeps (R cs) (analyse hints)) :
    Keeps (R (cost R [.info node.id] ++ (bs ++ cs))) (call ctx node callee callable argNodes analyse) := by
  intro s a s' h
  obtain ⟨c, t, hcallable, h⟩ := bind_eq_ok.1 h
  have hfirst := hc hcallable
  cases c with
  | func f object =>
    obtain ⟨ds, hds, hbs⟩ := hfirst
    -- The callee is listed where it stands, though it is noted after the arguments.
    refine Gathers.swap (hbs _ _ _ ?_)
    rw [List.append_assoc]
    exact Gathers.swap (Gathers.seq hds (callFunc_gathers _ _ _ ha h))
  | value ty => exact Gathers.swap (Gathers.seq hfirst (callValue_gathers _ _ ha h))
  | unresolved =>
    have hargs : Keeps (R cs) (do let _ ← analyse []; return Ty.unresolved) := (ha _).first fun _ => .pure _
    exact Gathers.spare _ (Gathers.seq hfirst (hargs h))

/-! ### Assignments and steps -/

/-- What is written to is no longer narrowed. -/
theorem written_gathers (target : Target) : Keeps (R []) (written target) := by
  cases target with
  | direct storage ty =>
    intro s a s' h
    cases h
    exact Gathers.widens ⟨rfl, rfl, rfl, rfl, rfl, rfl⟩
  | callBased _ _ _ _ _ _ => exact .pure _

theorem notAssignable_gathers (node : Node) : Keeps (R []) (notAssignable node) :=
  (report_gathers rfl _).last fun _ => .pure _

/-- A name that is assigned to is noted. -/
theorem identifierTarget_gathers (name : String) (typeArgs : List TypeExpr) :
    Keeps (R (nameCost R node typeArgs)) (identifierTarget ctx node name typeArgs) := by
  refine (typeExprs_gathers typeArgs).write fun args => (lookup_gathers _ _ _).last fun meaning => ?_
  split
  · rw [← bind_assoc]
    exact (noteBoth_gathers _ rfl _).first fun _ => .pure _
  · exact ((noteType_gathers node _).first fun _ => notAssignable_gathers _).unnoted
  · exact ((noteType_gathers node _).first fun _ => notAssignable_gathers _).unnoted
  · exact (typedValue_gathers _ _).first fun _ => .pure _

/-- So is a member. -/
theorem memberTarget_gathers (hu : Keeps (R bs) use) : Keeps (R (own R node ++ bs)) (memberTarget node use) := by
  refine hu.write fun use => ?_
  split
  · split
    · rw [← bind_assoc]
      exact (noteBoth_gathers _ rfl _).first fun _ => .pure _
    · exact ((noteType_gathers node _).first fun _ => notAssignable_gathers _).unnoted
  · exact ((noteType_gathers node _).first fun _ => notAssignable_gathers _).unnoted
  · exact ((noteType_gathers node _).first fun _ => .pure _).unnoted

/-- The type of an element is written twice, and nothing is noted besides that. -/
theorem accessorTarget_gathers (objectNode indexNode : Node) (objectTy indexTy : Ty) (getter setter : FuncRef) :
    Keeps (R (cost R [.info node.id])) (accessorTarget ctx node objectNode indexNode objectTy indexTy getter setter) := by
  refine (Keeps.lift _).last fun reads => (Keeps.lift _).last fun writes => (checkArgs_gathers _ _ _).last fun fits => ?_
  split
  · exact (Keeps.pure _).idle
  · split
    · exact ((report_gathers rfl _).first fun _ => .pure _).idle
    · refine Keeps.weaken (R := R (cost R [.type node.id])) ?_ fun s t h => ?_
      · exact (noteType_gathers node _).first fun _ => .pure _
      · rw [← List.append_nil (cost R _)] at h ⊢
        exact Gathers.typedInstead h

/-- So is an element. -/
theorem elementTarget_gathers {object index : Check Ty} (objectNode indexNode : Node) (ho : Keeps (R bs) object)
    (hi : Keeps (R cs) index) :
    Keeps (R (own R node ++ (bs ++ cs))) (elementTarget ctx node objectNode indexNode object index) := by
  refine ho.carry fun objectTy => hi.write fun indexTy => Keeps.join [.type _] (noteType_gathers node _) fun _ =>
    (indexerOf_gathers _ _).last fun r => ?_
  split
  · exact (Keeps.pure _).idle
  · exact accessorTarget_gathers _ _ _ _ _ _
  · exact ((report_gathers rfl _).first fun _ => .pure _).idle
  · exact ((report_gathers rfl _).first fun _ => .pure _).idle

/-- An assignment gathers its target and its value. -/
theorem assign_gathers {target : Check (Option Target)} {value : Option Ty → Check Ty} (valueNode : Node)
    (ht : Keeps (R bs) target) (hv : ∀ hint, Keeps (R cs) (value hint)) :
    Keeps (R (cost R [.info node.id] ++ (bs ++ cs))) (assign ctx node valueNode target value) := by
  refine ht.carry fun r => ?_
  split
  · exact (hv _).write fun _ => (Keeps.pure _).idle
  · exact (Keeps.lift _).last fun _ => (hv _).write fun _ => (checkAssignable_gathers _ _ _).last fun _ =>
      (written_gathers _).last fun _ => (noteInfo_gathers node (by rfl)).first fun _ => .pure _

/-- A step notes its target. -/
theorem stepTarget_gathers (op : StepOp) (before : Bool) (target : Target) :
    Keeps (R (cost R [.info node.id])) (stepTarget ctx node op before target) := by
  unfold stepTarget
  dsimp only
  split
  · exact (Keeps.pure _).idle
  · refine (Keeps.lift _).last fun r => ?_
    split
    · exact (reject_gathers rfl _).idle
    · refine (Keeps.lift _).last fun signature => ?_
      split
      · exact (reject_gathers rfl _).idle
      · refine (Keeps.lift _).last fun fits => ?_
        split
        · exact (written_gathers _).last fun _ => (noteInfo_gathers node (by rfl)).first fun _ => .pure _
        · exact (reject_gathers rfl _).idle

/-- A unary operator gathers its operand. -/
theorem unary_gathers {target : Check (Option Target)} {operand : Check Ty} (op : UnaryOp) (ht : Keeps (R bs) target)
    (ho : Keeps (R bs) operand) : Keeps (R (cost R [.info node.id] ++ bs)) (unary ctx node op target operand) := by
  unfold unary
  split
  · refine ht.write fun r => ?_
    split
    · exact (Keeps.pure _).idle
    · exact stepTarget_gathers _ _ _
  · exact (plainUnary_gathers _ ho).spare _

/-! ### Conditions and declared types -/

/-- The types of parameters write at their nodes. -/
theorem lambdaParams_gathers (hints : Option (List Ty)) (params : List LambdaParam) :
    Keeps (R (cost R ((LambdaParam.typeIds params).map .info))) (lambdaParams ctx hints params) :=
  (lambdaParams_typeNodes hints params).writesTypes

theorem declaredResult_gathers (ret : Option TypeExpr) :
    Keeps (R (cost R ((TypeExpr.idsOfOption ret).map .info))) (ret.mapM (typeExpr ctx)) :=
  (declaredResult_typeNodes ret).writesTypes

/-- A condition gathers its value. -/
theorem condition_gathers {value : Check Ty} (hv : Keeps (R bs) value) : Keeps (R bs) (condition node value) := by
  refine hv.first fun ty => ?_
  split
  · exact report_gathers rfl _
  · exact .pure _

/-- A declaration gathers its type and its value. -/
theorem declaredType_gathers {init : Option Initial} (node : Node) (ty : TypeExpr) (name : String)
    (hsome : ∀ i ∈ init, ∀ hint, Keeps (R bs) (i.analyse hint)) (hnone : init = none → Within R [] bs) :
    Keeps (R (cost R (ty.ids.map .info) ++ bs)) (declaredType ctx node ty name init) := by
  unfold declaredType
  split
  · exact resolved_gathers (hsome _ rfl _)
  · exact resolved_gathers ((reject_gathers rfl _).within (hnone rfl))
  · exact (typeExpr_gathers _).seq fun _ => (hsome _ rfl _).first fun _ => (checkAssignable_gathers _ _ _).last fun _ =>
      .pure _
  · rw [← bind_pure (typeExpr ctx _)]
    exact (typeExpr_gathers _).seq fun _ => (Keeps.pure _).within (hnone rfl)

theorem reportCycles_gathers : ∀ es : List (ItemId × Node), Keeps (R []) (es.forM fun e => report (.cyclicBaseType e.1) e.2)
  | [] => .pure _
  | e :: rest => (report_gathers rfl e.2).last fun _ => reportCycles_gathers rest

/-- Cycles are reported and nothing else. -/
theorem rejectCycles_gathers (m : Module) : Keeps (R []) (rejectCycles ctx m) :=
  (reportCycles_gathers _).last fun _ => .pure _

end Check

/-! ### Frames that do not count -/

/-- Nothing was reported, noted or finished. -/
structure Still (s t : State) : Prop where
  diagnostics : t.diagnostics = s.diagnostics
  templates : t.templates = s.templates
  nodes : t.nodes = s.nodes

/-- Nothing is gathered by changes of a frame that have to do with neither loops nor what is yielded. -/
class GathersAnywhere {β : Type} (R : List β → State → State → Prop) extends Gathers R where
  still {s t : State} : Still s t → t.frame.loopDepth = s.frame.loopDepth → t.frame.seqElem = s.frame.seqElem → R [] s t

/-- Nothing is gathered by changes of a frame, nor by any report. -/
class GathersBlindly {β : Type} (R : List β → State → State → Prop) extends GathersAnywhere R where
  framed {s t : State} : Still s t → R [] s t
  reported (d : Diagnostic) (s : State) : R [] s { s with diagnostics := s.diagnostics ++ [d] }

namespace Check

variable {α β : Type} {R : List β → State → State → Prop} {bs cs : List β} {ctx : Context} {node : Node}
variable {x : Check α} {analyse : Option Ty → Check Ty}

section Anywhere

variable [GathersAnywhere R]

/-- Changes to the frame may be free. -/
theorem modifyFrame_gathers {f : Frame → Frame} (hf : ∀ g, (f g).loopDepth = g.loopDepth ∧ (f g).seqElem = g.seqElem) :
    Keeps (R []) (modifyFrame f) := by
  intro s a s' h
  cases h
  exact GathersAnywhere.still ⟨rfl, rfl, rfl⟩ (hf _).1 (hf _).2

/-- A local variable is no note. -/
theorem declareLocal_gathers (name : String) (ty : Ty) : Keeps (R []) (declareLocal name ty) := by
  intro s a s' h
  rw [declareLocal_apply] at h
  cases h
  exact GathersAnywhere.still ⟨rfl, rfl, rfl⟩ rfl rfl

/-- The storage of each parameter is noted. -/
theorem declareParams_gathers : ∀ (params : List (Node × String)) (types : List Ty),
    Keeps (R (cost R (params.map (.info ·.1.id)))) (declareParams params types)
  | [], types => by
    rw [declareParams.eq_def]
    exact (Keeps.pure _).idle
  | p :: ps, [] => by
    rw [declareParams.eq_def]
    exact (Keeps.pure _).idle
  | (node, name) :: ps, ty :: tys => by
    rw [declareParams, declareParam]
    exact Keeps.join [.info node.id] ((declareLocal_gathers _ _).last fun _ => noteInfo_gathers node (by rfl)) fun _ =>
      declareParams_gathers ps tys

theorem declareCaptures_gathers : ∀ pending : List PendingCapture, Keeps (R []) (declareCaptures pending)
  | [] => by
    rw [declareCaptures]
    exact .pure _
  | c :: cs => by
    rw [declareCaptures]
    exact (declareLocal_gathers _ _).last fun _ => (declareCaptures_gathers cs).last fun _ => .pure _

/-- An expression as a body gathers what it does. -/
theorem exprBody_gathers (declared : Option Ty)
    (ha : ∀ hint, Keeps (R bs) (analyse hint)) : Keeps (R bs) (exprBody ctx declared node analyse) := by
  unfold exprBody
  split
  · exact (ha _).first fun _ => .pure _
  · exact compared_gathers (valued_gathers (ha _))
  · refine (ha _).first fun found => ?_
    exact modifyFrame_gathers fun _ => ⟨rfl, rfl⟩

/-- A scope gathers what is in it. -/
theorem inScope_gathers (hx : Keeps (R bs) x) : Keeps (R bs) (inScope x) := by
  intro s a s' h
  obtain ⟨t, hr, rfl⟩ := inScope_eq_ok.1 h
  rw [← List.append_nil bs]
  exact Gathers.seq (hx hr) (GathersAnywhere.still ⟨rfl, rfl, rfl⟩ rfl rfl)

theorem inBlock_gathers (hx : Keeps (R bs) x) : Keeps (R bs) (inBlock x) := by
  refine inScope_gathers (Keeps.last ?_ fun _ => hx)
  intro s a s' h
  cases h
  exact GathersAnywhere.still ⟨rfl, rfl, rfl⟩ rfl rfl

/-- An `if` gathers its condition and its branches. -/
theorem ifThen_gathers {cond : Expr} {value : Check Ty} {branches : Check Unit} (hv : Keeps (R bs) value)
    (hb : Keeps (R cs) branches) : Keeps (R (bs ++ cs)) (ifThen cond value branches) := by
  refine (condition_gathers hv).seq fun _ => Keeps.get.last fun s => inScope_gathers ?_
  split
  · refine Keeps.last ?_ fun _ => hb
    exact modifyFrame_gathers fun _ => ⟨rfl, rfl⟩
  · exact hb

theorem declareVar_gathers (name : String) (ty : Ty) : Keeps (R []) (declareVar name ty) := by
  refine Keeps.get.last fun s => ?_
  split
  · refine Keeps.get.last fun t => Keeps.last ?_ fun _ => .pure _
    intro u a u' h
    cases h
    exact GathersAnywhere.still ⟨rfl, rfl, rfl⟩ rfl rfl
  · exact (declareLocal_gathers _ _).last fun _ => .pure _

theorem returnNothing_gathers (node : Node) : Keeps (R []) (returnNothing ctx node) := by
  refine Keeps.get.last fun s => ?_
  dsimp only
  split
  · exact .pure _
  · split
    · exact report_gathers rfl _
    · exact .pure _
  · exact modifyFrame_gathers fun _ => ⟨rfl, rfl⟩
  · exact (checkAssignable_gathers _ _ _).last fun _ => .pure _

end Anywhere

section Blindly

variable [GathersBlindly R]

/-- A body in a frame of its own gathers what it does. -/
theorem inFrame_gathers (frame : Frame) (hx : Keeps (R bs) x) : Keeps (R bs) (inFrame frame x) := by
  intro s r s' h
  obtain ⟨t, hr, -, rfl⟩ := inFrame_eq_ok.1 h
  have hinside : R ([] ++ bs) s t :=
    Gathers.seq (t := { s with frame := frame, globalScope := false }) (GathersBlindly.framed ⟨rfl, rfl, rfl⟩) (hx hr)
  rw [← List.append_nil bs]
  exact Gathers.seq hinside (GathersBlindly.framed ⟨rfl, rfl, rfl⟩)

theorem anyFrame_gathers (f : Frame → Frame) : Keeps (R []) (modifyFrame f) := by
  intro s a s' h
  cases h
  exact GathersBlindly.framed ⟨rfl, rfl, rfl⟩

theorem anyReport_gathers (problem : Problem) (node : Node) : Keeps (R []) (report problem node) := by
  intro s a s' h
  cases h
  exact GathersBlindly.reported _ s

/-- A loop gathers its condition and its body. -/
theorem whileDo_gathers {value : Check Ty} {body : Check Unit} (hv : Keeps (R bs) value) (hb : Keeps (R cs) body) :
    Keeps (R (bs ++ cs)) (whileDo node value body) :=
  (condition_gathers hv).seq fun _ => (anyFrame_gathers _).last fun _ => (inBlock_gathers hb).first fun _ =>
    anyFrame_gathers _

/-- A return gathers its value. -/
theorem returnValue_gathers (node : Node)
    (ha : ∀ hint, Keeps (R bs) (analyse hint)) : Keeps (R bs) (returnValue ctx node analyse) := by
  refine Keeps.get.last fun s => ?_
  dsimp only
  split
  · exact (valued_gathers (ha _)).first fun _ => anyReport_gathers _ _
  · split
    · refine (ha _).first fun found => ?_
      split
      · exact anyReport_gathers _ _
      · exact .pure _
    · exact compared_gathers (valued_gathers (ha _))
  · exact (ha _).first fun _ => anyFrame_gathers _
  · exact compared_gathers (ha _)

/-- So does a yield. -/
theorem yields_gathers (node valueNode : Node)
    (ha : ∀ hint, Keeps (R bs) (analyse hint)) : Keeps (R bs) (yields ctx node valueNode analyse) := by
  refine Keeps.get.last fun s => ?_
  split
  · exact (valued_gathers (ha _)).first fun _ => anyReport_gathers _ _
  · exact compared_gathers (valued_gathers (ha _))

/-- A jump gathers nothing. -/
theorem inLoop_gathers (problem : Problem) (node : Node) : Keeps (R []) (inLoop problem node) := by
  refine Keeps.get.last fun s => ?_
  split
  · exact anyReport_gathers _ _
  · exact .pure _

end Blindly

end Check

end ScriptCheck
