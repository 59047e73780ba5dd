import ScriptCheck.Proofs.AlikeLookups

/-!
# The rules stay in step

In contexts that are alike, each rule of the analysis keeps two runs in step, given that the steps for its parts do. The
look-ups give the same answers, and what is read from the state is the same where the states agree. Nodes at which something
may be reported, and those that a test asks about, have to be among the nodes that the runs agree on.
-/

namespace ScriptCheck.Check

variable {E : LookupError → LookupError → Prop} {N : Set Nat} {ctx ctx' : Context} {node : Node}

/-! ### Types -/

/-- Types are compared alike. -/
theorem checkAssignable_lockstep (h : ctx.Alike E ctx') (expected found : Ty) (hn : node.id ∈ N) :
    Lockstep E N Eq (checkAssignable ctx expected found node) (checkAssignable ctx' expected found node) := by
  unfold checkAssignable
  rw [h.assignable]
  split
  · exact .pure rfl
  split
  · exact (report_lockstep _ hn).next fun _ => .pure rfl
  split
  · exact .pure rfl
  · exact (report_lockstep _ hn).next fun _ => .pure rfl

/-- What was found is settled alike. -/
theorem settle_lockstep (hn : node.id ∈ N) (found : Except Fault (Except Problem Ty)) :
    Lockstep E N Eq (settle node found) (settle node found) := by
  refine (Lockstep.same found).next fun r => ?_
  cases r with
  | ok ty => exact .pure rfl
  | error problem => exact reject_lockstep problem hn

/-- The meaning of a written type is noted in both runs. -/
theorem resolved_lockstep (node : Node) {x y : Check Ty} (h : Lockstep E N Eq x y) :
    Lockstep E N Eq (resolved node x) (resolved node y) :=
  h.next fun _ => (noteInfo_lockstep node rfl).next fun _ => .pure rfl

mutual

/-- A written type means the same in both runs. -/
theorem typeExpr_lockstep (h : ctx.Alike E ctx') : ∀ t : TypeExpr, (∀ n ∈ t.ids, n ∈ N) →
    Lockstep E N Eq (typeExpr ctx t) (typeExpr ctx' t)
  | .named node name args, hN => by
    rw [TypeExpr.ids, List.forall_mem_cons] at hN
    rw [typeExpr, typeExpr, h.namedType]
    exact resolved_lockstep node ((typeExprs_lockstep h args hN.2).next fun _ => settle_lockstep hN.1 _)
  | .member node parent name args, hN => by
    rw [TypeExpr.ids, List.forall_mem_cons, List.forall_mem_append] at hN
    rw [typeExpr, typeExpr, h.memberType]
    exact resolved_lockstep node ((typeExpr_lockstep h parent hN.2.1).next fun _ =>
      (typeExprs_lockstep h args hN.2.2).next fun _ => settle_lockstep hN.1 _)
  | .func node ret params, hN => by
    rw [TypeExpr.ids, List.forall_mem_cons, List.forall_mem_append] at hN
    rw [typeExpr, typeExpr]
    exact resolved_lockstep node ((typeExpr_lockstep h ret hN.2.1).next fun _ =>
      (typeExprs_lockstep h params hN.2.2).next fun _ => .pure rfl)
  | .void node, _ => by
    rw [typeExpr, typeExpr]
    exact resolved_lockstep node (.pure rfl)
  | .var node, hN => by
    rw [typeExpr, typeExpr]
    exact resolved_lockstep node (reject_lockstep _ (hN _ (by simp [TypeExpr.ids])))

/-- So do several written types. -/
theorem typeExprs_lockstep (h : ctx.Alike E ctx') : ∀ ts : List TypeExpr, (∀ n ∈ TypeExpr.idsOfList ts, n ∈ N) →
    Lockstep E N Eq (typeExprs ctx ts) (typeExprs ctx' ts)
  | [], _ => by
    rw [typeExprs, typeExprs]
    exact .pure rfl
  | t :: ts, hN => by
    rw [TypeExpr.idsOfList, List.forall_mem_append] at hN
    rw [typeExprs, typeExprs]
    exact (typeExpr_lockstep h t hN.1).next fun _ => (typeExprs_lockstep h ts hN.2).next fun _ => .pure rfl

end

/-! ### Identifiers -/

/-- A name means the same, in frames that are the same. -/
theorem lookup_lockstep (h : ctx.Alike E ctx') (name : String) (args : List Ty) (allowPartial : Bool) :
    Lockstep E N Eq (lookup ctx name args allowPartial) (lookup ctx' name args allowPartial) := by
  refine Lockstep.get.bind fun s s' hs => ?_
  rw [hs.frame, hs.globals]
  exact .lift (h.lookup s.frame s.globals name args allowPartial)

/-- A function gives the same value. -/
theorem funcValue_lockstep (h : ctx.Alike E ctx') (hn : node.id ∈ N) (f : FuncRef) :
    Lockstep E N Eq (funcValue ctx node f) (funcValue ctx' node f) := by
  unfold funcValue
  rw [h.registry.funcType]
  cases f.openParam? with
  | some param => exact reject_lockstep _ hn
  | none => exact (Lockstep.same _).next fun _ => (noteInfo_lockstep node rfl).next fun _ => .pure rfl

/-- A meaning gives the same value. -/
theorem identifierValue_lockstep (h : ctx.Alike E ctx') (hn : node.id ∈ N) (name : String) (meaning : Meaning) :
    Lockstep E N Eq (identifierValue ctx node name meaning) (identifierValue ctx' node name meaning) := by
  cases meaning with
  | var storage ty declared => exact (noteInfo_lockstep node rfl).next fun _ => .pure rfl
  | func f => exact funcValue_lockstep h hn f
  | type ty => exact reject_lockstep _ hn
  | notFound => exact reject_lockstep _ hn
  | ambiguous count => exact reject_lockstep _ hn

/-- A name gives the same value. -/
theorem identifier_lockstep (h : ctx.Alike E ctx') (hn : node.id ∈ N) (name : String) {typeArgs : List TypeExpr}
    (ha : ∀ n ∈ TypeExpr.idsOfList typeArgs, n ∈ N) :
    Lockstep E N Eq (identifier ctx node name typeArgs) (identifier ctx' node name typeArgs) :=
  (typeExprs_lockstep h typeArgs ha).next fun args => (lookup_lockstep h name args false).next fun meaning =>
    identifierValue_lockstep h hn name meaning

/-! ### Members -/

/-- What stands before a dot is the same in both runs. -/
theorem receiver_lockstep (h : ctx.Alike E ctx') {object : Expr} (ho : ∀ n ∈ object.ids, n ∈ N) {x y : Check Ty}
    (hx : Lockstep E N Eq x y) : Lockstep E N Eq (receiver ctx object x) (receiver ctx' object y) := by
  cases object with
  | identifier node name typeArgs =>
    rw [Expr.ids, List.forall_mem_cons] at ho
    refine (typeExprs_lockstep h typeArgs ho.2).next fun args => (lookup_lockstep h name args false).next fun meaning => ?_
    cases meaning with
    | type ty => exact (noteInfo_lockstep node rfl).next fun _ => .pure rfl
    | _ => exact (typed_lockstep node (identifierValue_lockstep h ho.1 name _)).next fun _ => .pure rfl
  | _ => exact (valued_lockstep (ho _ (Expr.node_mem_ids _)) hx).next fun _ => .pure rfl

/-- A member is used alike. -/
theorem useMember_lockstep (h : ctx.Alike E ctx') (hn : node.id ∈ N) (object : Option Nat) (ty : Ty) (name : Name)
    (found : MemberRef) :
    Lockstep E N Eq (useMember ctx node object ty name found) (useMember ctx' node object ty name found) := by
  unfold useMember
  rw [h.registry.isStatic, h.registry.varType]
  refine (Lockstep.same _).next fun isStatic => ?_
  split
  · exact (report_lockstep _ hn).next fun _ => .pure rfl
  · cases found with
    | var v =>
      refine (Lockstep.same _).next fun varTy => ?_
      cases object with
      | some object => exact .pure rfl
      | none => exact .pure rfl
    | func f => exact .pure rfl

/-- Members are found alike, or are missing for reasons that `E` relates. -/
theorem memberOf_lockstep (h : ctx.Alike E ctx') (hn : node.id ∈ N) (object : Option Nat) (ty : Ty) (name : Name)
    (args : List Ty) : Lockstep E N Eq (memberOf ctx node object ty name args) (memberOf ctx' node object ty name args) := by
  unfold memberOf
  rw [h.registry.isEnumCase]
  cases ty with
  | unresolved => exact .pure rfl
  | nominal id levels =>
    dsimp only
    split
    · exact .pure rfl
    · refine (Lockstep.lift (h.member (.nominal id levels) name args)).bind fun found found' hfound => ?_
      cases hfound with
      | ok found => exact useMember_lockstep h hn object _ name found
      | error he => exact (report_problem_lockstep he _ name hn).next fun _ => .pure rfl
  | _ => exact (report_lockstep _ hn).next fun _ => .pure rfl

/-- A member after a dot is used alike. -/
theorem memberUse_lockstep (h : ctx.Alike E ctx') (hn : node.id ∈ N) (object : Node) (name : String)
    {typeArgs : List TypeExpr} (ha : ∀ n ∈ TypeExpr.idsOfList typeArgs, n ∈ N) {x y : Check Receiver}
    (hx : Lockstep E N Eq x y) :
    Lockstep E N Eq (memberUse ctx node object x name typeArgs) (memberUse ctx' node object y name typeArgs) := by
  refine hx.next fun found => (typeExprs_lockstep h typeArgs ha).next fun args => ?_
  cases found with
  | type ty => exact memberOf_lockstep h hn none ty _ args
  | value ty => exact memberOf_lockstep h hn _ ty _ args

/-- It gives the same value. -/
theorem memberValue_lockstep (h : ctx.Alike E ctx') (hn : node.id ∈ N) {x y : Check MemberUse} (hx : Lockstep E N Eq x y) :
    Lockstep E N Eq (memberValue ctx node x) (memberValue ctx' node y) := by
  refine hx.next fun use => ?_
  cases use with
  | storage storage ty => exact (noteInfo_lockstep node rfl).next fun _ => .pure rfl
  | func f object => exact funcValue_lockstep h hn f
  | unresolved => exact .pure rfl

/-- The accessors of an element are the same. -/
theorem indexerOf_lockstep (h : ctx.Alike E ctx') (hn : node.id ∈ N) (ty : Ty) :
    Lockstep E N Eq (indexerOf ctx node ty) (indexerOf ctx' node ty) := by
  cases ty with
  | unresolved => exact .pure rfl
  | nominal id levels =>
    refine (Lockstep.lift (h.method? _ _)).next fun getter => ?_
    refine (Lockstep.lift (h.method? _ _)).next fun setter => ?_
    cases getter with
    | some getter => exact .pure rfl
    | none =>
      cases setter with
      | some setter => exact .pure rfl
      | none => exact (report_lockstep _ hn).next fun _ => .pure rfl
  | _ => exact (report_lockstep _ hn).next fun _ => .pure rfl

/-! ### Operators -/

/-- An operator between operands in step. -/
theorem binary_lockstep (h : ctx.Alike E ctx') (hn : node.id ∈ N) (op : BinaryOp) {x x' y y' : Check Ty}
    (hx : Lockstep E N Eq x x') (hy : Lockstep E N Eq y y') :
    Lockstep E N Eq (binary ctx node op x y) (binary ctx' node op x' y') := by
  unfold binary
  rw [h.rule]
  refine hx.next fun left => hy.next fun right => ?_
  dsimp only
  split
  · exact .pure rfl
  split
  · exact .pure rfl
  · exact (report_lockstep _ hn).next fun _ => .pure rfl

/-- An operator before an operand in step. -/
theorem plainUnary_lockstep (hn : node.id ∈ N) (op : UnaryOp) {x y : Check Ty} (hx : Lockstep E N Eq x y) :
    Lockstep E N Eq (plainUnary node op x) (plainUnary node op y) := by
  refine hx.next fun ty => ?_
  dsimp only
  split
  · exact (report_lockstep _ hn).next fun _ => .pure rfl
  · exact .pure rfl

/-- A test of a value in step. -/
theorem isTest_lockstep (h : ctx.Alike E ctx') (node : Node) {ty : TypeExpr} (ht : ∀ n ∈ ty.ids, n ∈ N) {x y : Check Ty}
    (hx : Lockstep E N Eq x y) : Lockstep E N Eq (isTest ctx node x ty) (isTest ctx' node y ty) := by
  refine hx.next fun _ => (typeExpr_lockstep h ty ht).next fun tested => ?_
  cases tested with
  | nominal id levels => exact (noteInfo_lockstep node rfl).next fun _ => .pure rfl
  | unresolved => exact .pure rfl
  | _ => exact (report_lockstep _ (ht _ ty.node_mem_ids)).next fun _ => .pure rfl

/-! ### Calls -/

/-- Arguments are checked alike, one by one. -/
theorem checkEach_lockstep (h : ctx.Alike E ctx') : ∀ (params : List Ty) (args : List Argument),
    (∀ a ∈ args, a.node.id ∈ N) → Lockstep E N Eq (checkEach ctx params args) (checkEach ctx' params args)
  | [], args, _ => by
    rw [checkEach, checkEach]
    · exact .pure rfl
    · simp
    · simp
  | p :: ps, [], _ => by
    rw [checkEach, checkEach]
    · exact .pure rfl
    · simp
    · simp
  | p :: ps, a :: as, hN => by
    rw [List.forall_mem_cons] at hN
    rw [checkEach, checkEach]
    exact (checkAssignable_lockstep h p a.ty hN.1).next fun _ => (checkEach_lockstep h ps as hN.2).next fun _ => .pure rfl

/-- So is their number. -/
theorem checkArgs_lockstep (h : ctx.Alike E ctx') (hn : node.id ∈ N) (params : List Ty) {args : List Argument}
    (hN : ∀ a ∈ args, a.node.id ∈ N) : Lockstep E N Eq (checkArgs ctx node params args) (checkArgs ctx' node params args) := by
  unfold checkArgs
  split
  · exact checkEach_lockstep h params args hN
  · exact (report_lockstep _ hn).next fun _ => .pure rfl

/-- The same type arguments are inferred. -/
theorem inferTypeArgs_lockstep (hn : node.id ∈ N) (f : FuncRef) (params : List Ty) (args : List Argument) :
    Lockstep E N Eq (inferTypeArgs node f params args) (inferTypeArgs node f params args) := by
  unfold inferTypeArgs
  cases f.openParam? with
  | none => exact .pure rfl
  | some _ =>
    refine (Lockstep.same _).next fun inferred => ?_
    cases inferred.openParam? with
    | none => exact .pure rfl
    | some param =>
      dsimp only
      split
      · exact (report_lockstep _ hn).next fun _ => .pure rfl
      · exact .pure rfl

/-- Arguments stand at the nodes that were given. -/
theorem Argument.node_mem_zip {nodes : List Node} {types : List Ty} {a : Argument} (ha : a ∈ Argument.zip nodes types) :
    a.node ∈ nodes := by
  unfold Argument.zip at ha
  induction nodes generalizing types with
  | nil => simp at ha
  | cons n ns ih =>
    cases types with
    | nil => simp at ha
    | cons t ts =>
      rw [List.zipWith_cons_cons, List.mem_cons] at ha
      rcases ha with rfl | ha
      · exact List.mem_cons_self
      · exact List.mem_cons_of_mem _ (ih ha)

/-- A function is called alike. -/
theorem callFunc_lockstep (h : ctx.Alike E ctx') (hn : node.id ∈ N) (callee : Node) (f : FuncRef) (object : Option Nat)
    {argNodes : List Node} (hargs : ∀ n ∈ argNodes, n.id ∈ N) {x y : List (Option Ty) → Check (List Ty)}
    (hx : ∀ hints, Lockstep E N Eq (x hints) (y hints)) :
    Lockstep E N Eq (callFunc ctx node callee f object argNodes x) (callFunc ctx' node callee f object argNodes y) := by
  unfold callFunc
  rw [h.registry.funcType]
  refine (Lockstep.same _).next fun written => (hx _).next fun types => ?_
  refine (inferTypeArgs_lockstep hn f _ _).next fun inferred => ?_
  cases inferred with
  | none => exact (noteType_lockstep callee _).next fun _ => .pure rfl
  | some f =>
    refine (Lockstep.same _).next fun signature => ?_
    refine (checkArgs_lockstep h hn _ fun a ha => hargs _ (Argument.node_mem_zip ha)).next fun _ => ?_
    exact (noteType_lockstep callee _).next fun _ => (noteInfo_lockstep callee rfl).next fun _ =>
      (noteInfo_lockstep node rfl).next fun _ => .pure rfl

/-- A value is called alike. -/
theorem callValue_lockstep (h : ctx.Alike E ctx') (hn : node.id ∈ N) (ty : Ty) {argNodes : List Node}
    (hargs : ∀ n ∈ argNodes, n.id ∈ N) {x y : List (Option Ty) → Check (List Ty)}
    (hx : ∀ hints, Lockstep E N Eq (x hints) (y hints)) :
    Lockstep E N Eq (callValue ctx node ty argNodes x) (callValue ctx' node ty argNodes y) := by
  cases ty with
  | unresolved => exact (hx _).next fun _ => .pure rfl
  | func ret params =>
    refine (hx _).next fun types => ?_
    refine (checkArgs_lockstep h hn _ fun a ha => hargs _ (Argument.node_mem_zip ha)).next fun _ => ?_
    exact (noteInfo_lockstep node rfl).next fun _ => .pure rfl
  | _ => exact (report_lockstep _ hn).next fun _ => (hx _).next fun _ => .pure rfl

/-- A name is called alike. -/
theorem identifierCallable_lockstep (h : ctx.Alike E ctx') (hn : node.id ∈ N) (name : String) {typeArgs : List TypeExpr}
    (ha : ∀ n ∈ TypeExpr.idsOfList typeArgs, n ∈ N) :
    Lockstep E N Eq (identifierCallable ctx node name typeArgs) (identifierCallable ctx' node name typeArgs) := by
  refine (typeExprs_lockstep h typeArgs ha).next fun args => (lookup_lockstep h name args true).next fun meaning => ?_
  cases meaning with
  | func f => exact .pure rfl
  | _ => exact (typed_lockstep node (identifierValue_lockstep h hn name _)).next fun _ => .pure rfl

/-- A member is called alike. -/
theorem memberCallable_lockstep (node : Node) {x y : Check MemberUse} (hx : Lockstep E N Eq x y) :
    Lockstep E N Eq (memberCallable node x) (memberCallable node y) := by
  refine hx.next fun use => ?_
  cases use with
  | func f object => exact .pure rfl
  | storage storage ty =>
    exact (noteInfo_lockstep node rfl).next fun _ => (noteType_lockstep node ty).next fun _ => .pure rfl
  | unresolved => exact (noteType_lockstep node _).next fun _ => .pure rfl

/-- A call of what is in step. -/
theorem call_lockstep (h : ctx.Alike E ctx') (hn : node.id ∈ N) (callee : Node) {c d : Check Callable}
    (hc : Lockstep E N Eq c d) {argNodes : List Node} (hargs : ∀ n ∈ argNodes, n.id ∈ N)
    {x y : List (Option Ty) → Check (List Ty)} (hx : ∀ hints, Lockstep E N Eq (x hints) (y hints)) :
    Lockstep E N Eq (call ctx node callee c argNodes x) (call ctx' node callee d argNodes y) := by
  refine hc.next fun called => ?_
  cases called with
  | func f object => exact callFunc_lockstep h hn callee f object hargs hx
  | value ty => exact callValue_lockstep h hn ty hargs hx
  | unresolved => exact (hx _).next fun _ => .pure rfl

/-- An element of what is in step. -/
theorem elementValue_lockstep (h : ctx.Alike E ctx') (hn : node.id ∈ N) {indexNode : Node} (hi : indexNode.id ∈ N)
    {x x' y y' : Check Ty} (hx : Lockstep E N Eq x x') (hy : Lockstep E N Eq y y') :
    Lockstep E N Eq (elementValue ctx node indexNode x y) (elementValue ctx' node indexNode x' y') := by
  unfold elementValue
  rw [h.registry.funcType]
  refine hx.next fun objectTy => hy.next fun indexTy => (indexerOf_lockstep h hn objectTy).next fun found => ?_
  rcases found with _ | ⟨_ | getter, setter⟩
  · exact .pure rfl
  · exact reject_lockstep _ hn
  · refine (Lockstep.same _).next fun signature => ?_
    refine (checkArgs_lockstep h hn _ (by simpa using hi)).next fun _ => ?_
    exact (noteInfo_lockstep node rfl).next fun _ => .pure rfl

/-! ### Assignments and steps -/

/-- A write ends the same narrowings. -/
theorem written_lockstep (target : Target) : Lockstep E N Eq (written target) (written target) := by
  cases target with
  | direct storage ty => exact modifyFrame_lockstep (·.widen storage)
  | callBased _ _ _ _ _ _ => exact .pure rfl

/-- Both runs report that nothing can be assigned. -/
theorem notAssignable_lockstep (hn : node.id ∈ N) : Lockstep E N Eq (notAssignable node) (notAssignable node) :=
  (report_lockstep _ hn).next fun _ => .pure rfl

/-- A name is assigned to alike. -/
theorem identifierTarget_lockstep (h : ctx.Alike E ctx') (hn : node.id ∈ N) (name : String) {typeArgs : List TypeExpr}
    (ha : ∀ n ∈ TypeExpr.idsOfList typeArgs, n ∈ N) :
    Lockstep E N Eq (identifierTarget ctx node name typeArgs) (identifierTarget ctx' node name typeArgs) := by
  refine (typeExprs_lockstep h typeArgs ha).next fun args => (lookup_lockstep h name args false).next fun meaning => ?_
  cases meaning with
  | var storage ty declared =>
    exact (noteInfo_lockstep node rfl).next fun _ => (noteType_lockstep node ty).next fun _ => .pure rfl
  | func f => exact (noteType_lockstep node _).next fun _ => notAssignable_lockstep hn
  | type ty => exact (noteType_lockstep node _).next fun _ => notAssignable_lockstep hn
  | _ => exact (typed_lockstep node (identifierValue_lockstep h hn name _)).next fun _ => .pure rfl

/-- A member is assigned to alike. -/
theorem memberTarget_lockstep (hn : node.id ∈ N) {x y : Check MemberUse} (hx : Lockstep E N Eq x y) :
    Lockstep E N Eq (memberTarget node x) (memberTarget node y) := by
  refine hx.next fun use => ?_
  cases use with
  | storage storage ty =>
    dsimp only
    split
    · exact (noteInfo_lockstep node rfl).next fun _ => (noteType_lockstep node ty).next fun _ => .pure rfl
    · exact (noteType_lockstep node _).next fun _ => notAssignable_lockstep hn
  | func f object => exact (noteType_lockstep node _).next fun _ => notAssignable_lockstep hn
  | unresolved => exact (noteType_lockstep node _).next fun _ => .pure rfl

/-- The accessors are the same. -/
theorem accessorTarget_lockstep (h : ctx.Alike E ctx') (hn : node.id ∈ N) (objectNode : Node) {indexNode : Node}
    (hi : indexNode.id ∈ N) (objectTy indexTy : Ty) (getter setter : FuncRef) :
    Lockstep E N Eq (accessorTarget ctx node objectNode indexNode objectTy indexTy getter setter)
      (accessorTarget ctx' node objectNode indexNode objectTy indexTy getter setter) := by
  unfold accessorTarget
  rw [h.registry.funcType]
  refine (Lockstep.same _).next fun reads => (Lockstep.same _).next fun writes => ?_
  refine (checkArgs_lockstep h hn _ (by simpa using hi)).next fun fits => ?_
  split
  · exact .pure rfl
  split
  · exact (report_lockstep _ hn).next fun _ => .pure rfl
  · exact (noteType_lockstep node _).next fun _ => .pure rfl

/-- An element is assigned to alike. -/
theorem elementTarget_lockstep (h : ctx.Alike E ctx') (hn : node.id ∈ N) (objectNode : Node) {indexNode : Node}
    (hi : indexNode.id ∈ N) {x x' y y' : Check Ty} (hx : Lockstep E N Eq x x') (hy : Lockstep E N Eq y y') :
    Lockstep E N Eq (elementTarget ctx node objectNode indexNode x y) (elementTarget ctx' node objectNode indexNode x' y') := by
  refine hx.next fun objectTy => hy.next fun indexTy => (noteType_lockstep node _).next fun _ => ?_
  refine (indexerOf_lockstep h hn objectTy).next fun found => ?_
  rcases found with _ | ⟨_ | getter, _ | setter⟩
  · exact .pure rfl
  · exact (report_lockstep _ hn).next fun _ => .pure rfl
  · exact (report_lockstep _ hn).next fun _ => .pure rfl
  · exact (report_lockstep _ hn).next fun _ => .pure rfl
  · exact accessorTarget_lockstep h hn objectNode hi objectTy indexTy getter setter

/-- An assignment to what is in step. -/
theorem assign_lockstep (h : ctx.Alike E ctx') (node : Node) {valueNode : Node} (hv : valueNode.id ∈ N)
    {x x' : Check (Option Target)} {y y' : Option Ty → Check Ty} (hx : Lockstep E N Eq x x')
    (hy : ∀ hint, Lockstep E N Eq (y hint) (y' hint)) :
    Lockstep E N Eq (assign ctx node valueNode x y) (assign ctx' node valueNode x' y') := by
  unfold assign
  rw [h.registry.storedType]
  refine hx.next fun target => ?_
  cases target with
  | none => exact (hy none).next fun _ => .pure rfl
  | some target =>
    refine (Lockstep.same _).next fun expected => (hy _).next fun found => ?_
    refine (checkAssignable_lockstep h expected found hv).next fun _ => (written_lockstep target).next fun _ => ?_
    exact (noteInfo_lockstep node rfl).next fun _ => .pure rfl

/-- A place is stepped alike. -/
theorem stepTarget_lockstep (h : ctx.Alike E ctx') (hn : node.id ∈ N) (op : StepOp) (before : Bool) (target : Target) :
    Lockstep E N Eq (stepTarget ctx node op before target) (stepTarget ctx' node op before target) := by
  unfold stepTarget
  rw [h.registry.operatorSignature, h.registry.stepFits]
  dsimp only
  split
  · exact .pure rfl
  · refine (Lockstep.lift (h.method? _ _)).next fun operator => ?_
    cases operator with
    | none => exact reject_lockstep _ hn
    | some operator =>
      refine (Lockstep.same _).next fun sig => ?_
      split
      · exact reject_lockstep _ hn
      · refine (Lockstep.same _).next fun fits => ?_
        split
        · exact (written_lockstep target).next fun _ => (noteInfo_lockstep node rfl).next fun _ => .pure rfl
        · exact reject_lockstep _ hn

/-- A unary operator on what is in step. -/
theorem unary_lockstep (h : ctx.Alike E ctx') (hn : node.id ∈ N) (op : UnaryOp) {x x' : Check (Option Target)}
    {y y' : Check Ty} (hx : Lockstep E N Eq x x') (hy : Lockstep E N Eq y y') :
    Lockstep E N Eq (unary ctx node op x y) (unary ctx' node op x' y') := by
  cases op with
  | step op before =>
    refine hx.next fun target => ?_
    cases target with
    | none => exact .pure rfl
    | some target => exact stepTarget_lockstep h hn op before target
  | _ => exact plainUnary_lockstep hn _ hy

/-! ### Lambdas and tasks -/

/-- A parameter gets the same type. -/
theorem lambdaParam_lockstep (h : ctx.Alike E ctx') (hints : Option (List Ty)) {param : LambdaParam}
    (hp : ∀ n ∈ param.ids, n ∈ N) : Lockstep E N Eq (lambdaParam ctx hints param) (lambdaParam ctx' hints param) := by
  rw [LambdaParam.ids, List.forall_mem_cons] at hp
  unfold lambdaParam
  cases hty : param.ty with
  | some ty =>
    rw [hty] at hp
    exact typeExpr_lockstep h ty hp.2
  | none =>
    cases hints with
    | some types => exact Lockstep.same _
    | none => exact reject_lockstep _ hp.1

/-- So does each of several. -/
theorem lambdaParams_lockstep (h : ctx.Alike E ctx') : ∀ (hints : Option (List Ty)) (params : List LambdaParam),
    (∀ n ∈ LambdaParam.idsOfList params, n ∈ N) →
    Lockstep E N Eq (lambdaParams ctx hints params) (lambdaParams ctx' hints params)
  | _, [], _ => by
    rw [lambdaParams, lambdaParams]
    exact .pure rfl
  | hints, p :: ps, hp => by
    rw [LambdaParam.idsOfList, List.forall_mem_append] at hp
    rw [lambdaParams, lambdaParams]
    exact (lambdaParam_lockstep h hints hp.1).next fun _ => (lambdaParams_lockstep h _ ps hp.2).next fun _ => .pure rfl

/-- Parameters get the same slots. -/
theorem declareParams_lockstep : ∀ (params : List (Node × String)) (types : List Ty),
    Lockstep E N Eq (declareParams params types) (declareParams params types)
  | [], types => by
    rw [declareParams]
    · exact .pure rfl
    · simp
  | p :: ps, [] => by
    rw [declareParams]
    · exact .pure rfl
    · simp
  | (node, name) :: ps, ty :: tys => by
    rw [declareParams]
    exact ((declareLocal_lockstep name ty).next fun _ => noteInfo_lockstep node rfl).next fun _ =>
      declareParams_lockstep ps tys

/-- The same captures are wired. -/
theorem wireCaptures_lockstep (h : ctx.Alike E ctx') (hn : node.id ∈ N) : ∀ needs : List CaptureNeed,
    Lockstep E N Eq (wireCaptures ctx node needs) (wireCaptures ctx' node needs)
  | [] => by
    rw [wireCaptures, wireCaptures]
    exact .pure rfl
  | need :: needs => by
    have ih := wireCaptures_lockstep h hn needs
    rw [wireCaptures, wireCaptures]
    refine (lookup_lockstep h need.name [] true).next fun meaning => ?_
    cases meaning with
    | var storage ty declared =>
      cases storage with
      | localSlot slot => exact ih.next fun _ => .pure rfl
      | _ => exact ih
    | func f => exact ih
    | type ty => exact ih
    | notFound => exact (report_lockstep _ hn).next fun _ => ih.next fun _ => .pure rfl
    | ambiguous count => exact (report_lockstep _ hn).next fun _ => ih.next fun _ => .pure rfl

/-- Captures get the same slots. -/
theorem declareCaptures_lockstep : ∀ pending : List PendingCapture,
    Lockstep E N Eq (declareCaptures pending) (declareCaptures pending)
  | [] => by
    rw [declareCaptures]
    exact .pure rfl
  | c :: cs => by
    rw [declareCaptures]
    exact (declareLocal_lockstep c.name c.ty).next fun _ => (declareCaptures_lockstep cs).next fun _ => .pure rfl

/-- An expression in step as a body. -/
theorem exprBody_lockstep (h : ctx.Alike E ctx') (declared : Option Ty) (hn : node.id ∈ N) {x y : Option Ty → Check Ty}
    (hx : ∀ hint, Lockstep E N Eq (x hint) (y hint)) :
    Lockstep E N Eq (exprBody ctx declared node x) (exprBody ctx' declared node y) := by
  unfold exprBody
  split
  · exact (hx none).next fun _ => .pure rfl
  · exact (valued_lockstep hn (hx _)).next fun found => (checkAssignable_lockstep h _ found hn).next fun _ => .pure rfl
  · exact (hx none).next fun _ => modifyFrame_lockstep _

/-- A body in step, in a frame of its own. -/
theorem closure_lockstep (params : List (Node × String)) (types : List Ty) (pending : List PendingCapture) (ret : ReturnMode)
    {x y : Check Unit} (hx : Lockstep E N Eq x y) :
    Lockstep E N Eq (closure params types pending ret x) (closure params types pending ret y) :=
  inFrame_lockstep _ ((declareParams_lockstep params types).next fun _ => (declareCaptures_lockstep pending).next fun _ =>
    hx.next fun _ => .pure rfl)

/-- A lambda whose body is in step. -/
theorem lambda_lockstep (h : ctx.Alike E ctx') (hn : node.id ∈ N) {params : List LambdaParam}
    (hp : ∀ n ∈ LambdaParam.idsOfList params, n ∈ N) {ret : Option TypeExpr} (hr : ∀ n ∈ TypeExpr.idsOfOption ret, n ∈ N)
    (body : Body) (expected : Option Ty) {x y : Option Ty → Check Unit}
    (hx : ∀ declared, Lockstep E N Eq (x declared) (y declared)) :
    Lockstep E N Eq (lambda ctx node params ret body expected x) (lambda ctx' node params ret body expected y) := by
  have hret : Lockstep E N Eq (ret.mapM (typeExpr ctx)) (ret.mapM (typeExpr ctx')) := by
    cases ret with
    | none => exact .pure rfl
    | some t => exact (typeExpr_lockstep h t hr).next fun _ => .pure rfl
  unfold lambda
  rw [h.capturer]
  refine (lambdaParams_lockstep h _ params hp).next fun types => hret.next fun declared => ?_
  refine (wireCaptures_lockstep h hn _).next fun pending => ?_
  cases pending with
  | none => exact .pure rfl
  | some pending =>
    refine (closure_lockstep _ types pending _ (hx declared)).next fun closed => ?_
    refine (pushTemplate_lockstep _ _ _).bind fun _ _ _ => Lockstep.next ?_ fun _ => .pure rfl
    exact noteInfo_lockstep node rfl

/-- A task whose body is in step. -/
theorem task_lockstep (h : ctx.Alike E ctx') (hn : node.id ∈ N) (block : Block) {x y : Check Unit} (hx : Lockstep E N Eq x y) :
    Lockstep E N Eq (task ctx node block x) (task ctx' node block y) := by
  unfold task
  rw [h.capturer]
  refine (wireCaptures_lockstep h hn _).next fun pending => ?_
  cases pending with
  | none => exact .pure rfl
  | some pending =>
    refine (closure_lockstep [] [] pending _ hx).next fun closed => ?_
    exact (pushTemplate_lockstep _ _ _).bind fun _ _ _ => noteInfo_lockstep node rfl

/-! ### Statements -/

/-- A condition in step. -/
theorem condition_lockstep (hn : node.id ∈ N) {x y : Check Ty} (hx : Lockstep E N Eq x y) :
    Lockstep E N Eq (condition node x) (condition node y) := by
  refine hx.next fun ty => ?_
  split
  · exact report_lockstep _ hn
  · exact .pure rfl

/-- Both runs take the tested variable to have the same type. -/
theorem ifThen_lockstep {cond : Expr} (hc : ∀ n ∈ cond.ids, n ∈ N) {x x' : Check Ty} {y y' : Check Unit}
    (hx : Lockstep E N Eq x x') (hy : Lockstep E N Eq y y') : Lockstep E N Eq (ifThen cond x y) (ifThen cond x' y') := by
  refine (condition_lockstep (hc _ cond.node_mem_ids) hx).next fun _ => Lockstep.get.bind fun s s' hs => ?_
  rw [hs.narrowingOf hc]
  refine inScope_lockstep ?_
  cases narrowingOf s.nodes cond with
  | none => exact hy
  | some narrowing => exact (modifyFrame_lockstep _).next fun _ => hy

/-- A loop over a body in step. -/
theorem whileDo_lockstep (hn : node.id ∈ N) {x x' : Check Ty} {y y' : Check Unit} (hx : Lockstep E N Eq x x')
    (hy : Lockstep E N Eq y y') : Lockstep E N Eq (whileDo node x y) (whileDo node x' y') :=
  (condition_lockstep hn hx).next fun _ => (modifyFrame_lockstep _).next fun _ => (inBlock_lockstep hy).next fun _ =>
    modifyFrame_lockstep _

/-- The initial values are both missing, or stand at one node and are analysed in step. -/
inductive InitialInStep (E : LookupError → LookupError → Prop) (N : Set Nat) : Option Initial → Option Initial → Prop where
  | none : InitialInStep E N none none
  | some {node : Node} {x y : Option Ty → Check Ty} (hn : node.id ∈ N) (hx : ∀ hint, Lockstep E N Eq (x hint) (y hint)) :
      InitialInStep E N (some ⟨node, x⟩) (some ⟨node, y⟩)

/-- A variable gets the same type. -/
theorem declaredType_lockstep (h : ctx.Alike E ctx') (hn : node.id ∈ N) {ty : TypeExpr} (ht : ∀ n ∈ ty.ids, n ∈ N)
    (name : String) {init init' : Option Initial} (hi : InitialInStep E N init init') :
    Lockstep E N Eq (declaredType ctx node ty name init) (declaredType ctx' node ty name init') := by
  have hty := typeExpr_lockstep h ty ht
  cases hi with
  | none =>
    cases ty with
    | var tyNode => exact resolved_lockstep tyNode (reject_lockstep _ hn)
    | _ => exact hty
  | some hi hx =>
    cases ty with
    | var tyNode => exact resolved_lockstep tyNode (hx none)
    | _ =>
      exact hty.next fun declared => (hx _).next fun found => (checkAssignable_lockstep h declared found hi).next fun _ =>
        .pure rfl

/-- It gets the same slot. -/
theorem declareVar_lockstep (name : String) (ty : Ty) : Lockstep E N Eq (declareVar name ty) (declareVar name ty) := by
  refine Lockstep.get.bind fun s s' hs => ?_
  rw [hs.globalScope]
  split
  · refine Lockstep.get.bind fun t t' ht => ?_
    rw [ht.globals]
    refine Lockstep.bind (R := fun _ _ => True) ?_ fun _ _ _ => .pure rfl
    exact fun u u' hu => .ok ⟨trivial, ⟨hu.frame, hu.globalScope, congrArg (·.declare name ty) hu.globals, hu.nodes⟩,
      .of_eq ⟨rfl, rfl, rfl⟩ ⟨rfl, rfl, rfl⟩⟩
  · exact (declareLocal_lockstep name ty).next fun _ => .pure rfl

/-- A variable is declared alike. -/
theorem varDecl_lockstep (h : ctx.Alike E ctx') (hn : node.id ∈ N) {ty : TypeExpr} (ht : ∀ n ∈ ty.ids, n ∈ N)
    (name : String) {init init' : Option Initial} (hi : InitialInStep E N init init') :
    Lockstep E N Eq (varDecl ctx node ty name init) (varDecl ctx' node ty name init') :=
  (declaredType_lockstep h hn ht name hi).next fun ty => (declareVar_lockstep name ty).next fun _ =>
    noteInfo_lockstep node rfl

/-- A return without a value is judged alike. -/
theorem returnNothing_lockstep (h : ctx.Alike E ctx') (hn : node.id ∈ N) :
    Lockstep E N Eq (returnNothing ctx node) (returnNothing ctx' node) := by
  refine Lockstep.get.bind fun s s' hs => ?_
  rw [hs.frame]
  dsimp only
  split
  · exact .pure rfl
  · split
    · exact report_lockstep _ hn
    · exact .pure rfl
  · exact modifyFrame_lockstep _
  · exact (checkAssignable_lockstep h _ _ hn).next fun _ => .pure rfl

/-- A return of a value in step. -/
theorem returnValue_lockstep (h : ctx.Alike E ctx') (hn : node.id ∈ N) {x y : Option Ty → Check Ty}
    (hx : ∀ hint, Lockstep E N Eq (x hint) (y hint)) : Lockstep E N Eq (returnValue ctx node x) (returnValue ctx' node y) := by
  refine Lockstep.get.bind fun s s' hs => ?_
  rw [hs.frame]
  dsimp only
  split
  · exact (valued_lockstep hn (hx none)).next fun _ => report_lockstep _ hn
  · split
    · refine (hx none).next fun found => ?_
      split
      · exact report_lockstep _ hn
      · exact .pure rfl
    · exact (valued_lockstep hn (hx _)).next fun found => (checkAssignable_lockstep h _ found hn).next fun _ => .pure rfl
  · exact (hx none).next fun _ => modifyFrame_lockstep _
  · exact (hx _).next fun found => (checkAssignable_lockstep h _ found hn).next fun _ => .pure rfl

/-- A yield of a value in step. -/
theorem yields_lockstep (h : ctx.Alike E ctx') (hn : node.id ∈ N) {valueNode : Node} (hv : valueNode.id ∈ N)
    {x y : Option Ty → Check Ty} (hx : ∀ hint, Lockstep E N Eq (x hint) (y hint)) :
    Lockstep E N Eq (yields ctx node valueNode x) (yields ctx' node valueNode y) := by
  refine Lockstep.get.bind fun s s' hs => ?_
  rw [hs.frame]
  cases s.frame.seqElem with
  | none => exact (valued_lockstep hv (hx none)).next fun _ => report_lockstep _ hn
  | some elem =>
    exact (valued_lockstep hv (hx _)).next fun found => (checkAssignable_lockstep h elem found hv).next fun _ => .pure rfl

/-- A jump is judged by the same loop depth. -/
theorem inLoop_lockstep (problem : Problem) (hn : node.id ∈ N) :
    Lockstep E N Eq (inLoop problem node) (inLoop problem node) := by
  refine Lockstep.get.bind fun s s' hs => ?_
  rw [hs.frame]
  split
  · exact report_lockstep _ hn
  · exact .pure rfl

end ScriptCheck.Check
