import ScriptCheck.Analysis.Script
import ScriptCheck.Proofs.NodeIds
import ScriptCheck.Proofs.Runs

/-!
# Steps that only note something

Most steps of the analysis look something up and note or report what they found. They leave the frame, the variables of the
script and the templates alone, whether or not they report (`Notes`), and what they report is never that a statement stands in
a wrong place.
-/

namespace ScriptCheck

/-- The note is about a type. -/
def NodeInfo.IsType (info : NodeInfo) : Prop := ∃ ty, info = .type ty

/-- Whether a problem is that of a statement in a wrong place. -/
def Problem.isJump (problem : Problem) : Bool :=
  match problem with
  | invalidBreak | invalidContinue | yieldOutsideSequence | returnValueInSequence => true
  | _ => false

/-- The reports about statements in a wrong place. -/
def State.jumpReports (s : State) : List Diagnostic := s.diagnostics.filter (·.problem.isJump)

/-- How often something was noted for a node besides its type. -/
def NodeMap.noted (m : NodeMap) (n : Nat) : Nat := (m.history n).length

/-- Noting a type is no other note. -/
@[simp] theorem NodeMap.noted_setType (m : NodeMap) (n k : Nat) (ty : Ty) : (m.setType n ty).noted k = m.noted k := by
  simp [noted]

/-- A note counts for its own node. -/
@[simp] theorem NodeMap.noted_setInfo (m : NodeMap) (n k : Nat) (info : NodeInfo) :
    (m.setInfo n info).noted k = m.noted k + if n = k then 1 else 0 := by
  by_cases h : n = k <;> simp [noted, h]

/-- Nothing was added but diagnostics of other problems than these and, for the nodes `ids`, such notes as `P` says. -/
structure Notes (P : NodeInfo → Prop) (ids : List Nat) (s s' : State) : Prop where
  diagnostics : s.diagnostics <+: s'.diagnostics
  jumps : s'.jumpReports = s.jumpReports
  templates : s'.templates = s.templates
  frame : s'.frame = s.frame
  globals : s'.globals = s.globals
  globalScope : s'.globalScope = s.globalScope
  nodes : ∀ n, n ∉ ids → s'.nodes.find? n = s.nodes.find? n
  infos : ∀ n info, s'.nodes.info? n = some info → s.nodes.info? n = some info ∨ P info
  noted : (∀ info, ¬P info) → s'.nodes.noted = s.nodes.noted

namespace Notes

variable {P Q : NodeInfo → Prop} {ids ids' : List Nat} {s t u : State}

/-- Steps that only note something compose. -/
theorem trans (a : Notes P ids s t) (b : Notes P ids t u) : Notes P ids s u where
  diagnostics := a.diagnostics.trans b.diagnostics
  jumps := b.jumps.trans a.jumps
  templates := b.templates.trans a.templates
  frame := b.frame.trans a.frame
  globals := b.globals.trans a.globals
  globalScope := b.globalScope.trans a.globalScope
  nodes n hn := (b.nodes n hn).trans (a.nodes n hn)
  infos n info h := (b.infos n info h).elim (a.infos n info) .inr
  noted h := (b.noted h).trans (a.noted h)

instance : Std.Refl (Notes P ids) :=
  ⟨fun _ => ⟨List.prefix_refl _, rfl, rfl, rfl, rfl, rfl, fun _ _ => rfl, fun _ _ h => .inl h, fun _ => rfl⟩⟩

instance : IsTrans State (Notes P ids) := ⟨fun _ _ _ => trans⟩

/-- More kinds of notes, for more nodes. -/
theorem weaken (h : Notes P ids s t) (hP : ∀ info, P info → Q info) (hs : ids ⊆ ids') : Notes Q ids' s t :=
  ⟨h.diagnostics, h.jumps, h.templates, h.frame, h.globals, h.globalScope, fun n hn => h.nodes n fun hm => hn (hs hm),
    fun n info hi => (h.infos n info hi).imp_right (hP info), fun hnone => h.noted fun info hi => hnone info (hP info hi)⟩

end Notes

/-- The node numbers of the types that are written for a lambda's parameters. -/
def LambdaParam.typeIds (params : List LambdaParam) : List Nat := params.flatMap fun p => TypeExpr.idsOfOption p.ty

/-- The node numbers of parameters are those of the names and those of the types. -/
theorem LambdaParam.idsOfList_perm : ∀ params : List LambdaParam,
    (LambdaParam.idsOfList params).Perm (params.map (·.node.id) ++ LambdaParam.typeIds params)
  | [] => .refl _
  | p :: ps => by
    have ih := LambdaParam.idsOfList_perm ps
    rw [LambdaParam.idsOfList, LambdaParam.ids, List.map_cons, List.cons_append, List.cons_append, typeIds,
      List.flatMap_cons]
    refine .cons _ ((ih.append_left _).trans ?_)
    exact List.perm_append_comm_assoc _ _ _

/-- The types written for parameters are parts of them. -/
theorem LambdaParam.typeIds_subset (params : List LambdaParam) : LambdaParam.typeIds params ⊆ LambdaParam.idsOfList params :=
  fun _ hn => (LambdaParam.idsOfList_perm params).mem_iff.2 (List.mem_append_right _ hn)

namespace Check

variable {α : Type} {P : NodeInfo → Prop} {ctx : Context} {ids ids' : List Nat} {node : Node}

/-! ### Primitive steps -/

/-- The same for a step. -/
theorem Keeps.notes {Q : NodeInfo → Prop} {x : Check α} (h : Keeps (Notes P ids) x) (hP : ∀ info, P info → Q info)
    (hs : ids ⊆ ids') : Keeps (Notes Q ids') x := h.weaken fun _ _ hn => hn.weaken hP hs

/-- Notes for more nodes. -/
theorem Keeps.notesIn {x : Check α} (h : Keeps (Notes P ids) x) (hs : ids ⊆ ids') : Keeps (Notes P ids') x :=
  h.notes (fun _ => id) hs

/-- A report notes nothing. -/
theorem report_notes {problem : Problem} (hp : problem.isJump = false) (node : Node) :
    Keeps (Notes P ids) (report problem node) := by
  intro s a s' h
  cases h
  refine ⟨List.prefix_append _ _, ?_, rfl, rfl, rfl, rfl, fun _ _ => rfl, fun _ _ h => .inl h, fun _ => rfl⟩
  simp [State.jumpReports, hp]

/-- A rejection notes nothing. -/
theorem reject_notes {problem : Problem} (hp : problem.isJump = false) (node : Node) :
    Keeps (Notes P ids) (reject problem node) := (report_notes hp node).bind fun _ => .pure _

/-- The type of a node is noted for it. -/
theorem noteType_notes (hn : node.id ∈ ids) (ty : Ty) : Keeps (Notes P ids) (noteType node ty) := by
  intro s a s' h
  cases h
  refine ⟨List.prefix_refl _, rfl, rfl, rfl, rfl, rfl, fun n hm => ?_, fun n info h => .inl ?_, fun _ => ?_⟩
  · have hne : node.id ≠ n := fun h => hm (h ▸ hn)
    simp [NodeMap.setType, hne]
  · rwa [NodeMap.info?_setType] at h
  · exact funext fun n => NodeMap.noted_setType _ _ n _

/-- One note is made for the node. -/
theorem noteInfo_notes {info : NodeInfo} (hn : node.id ∈ ids) (hP : P info) : Keeps (Notes P ids) (noteInfo node info) := by
  intro s a s' h
  cases h
  refine ⟨List.prefix_refl _, rfl, rfl, rfl, rfl, rfl, fun n hm => ?_, fun n new h => ?_, fun hnone => absurd hP (hnone _)⟩
  · have hne : node.id ≠ n := fun h => hm (h ▸ hn)
    simp [NodeMap.setInfo, hne]
  · rw [NodeMap.info?_setInfo] at h
    split at h
    · cases h
      exact .inr hP
    · exact .inl h

/-- The type of an expression is noted for its node. -/
theorem typed_notes {x : Check Ty} (hn : node.id ∈ ids) (hx : Keeps (Notes P ids) x) : Keeps (Notes P ids) (typed node x) :=
  hx.bind fun ty => (noteType_notes hn ty).bind fun _ => .pure _

/-- A check between types notes nothing. -/
theorem checkAssignable_notes (expected found : Ty) (node : Node) :
    Keeps (Notes P ids) (checkAssignable ctx expected found node) := by
  unfold checkAssignable
  split
  · exact .pure _
  · split
    · exact (report_notes rfl _).bind fun _ => .pure _
    · split
      · exact .pure _
      · exact (report_notes rfl _).bind fun _ => .pure _

/-! ### Written types -/

/-- The problem that may have been found instead of a type is none of a statement in a wrong place. -/
def NoJump (found : Except Fault (Except Problem Ty)) : Prop := ∀ problem, found = .ok (.error problem) → problem.isJump = false

/-- Making a type finds no jump. -/
theorem noJump_make (id : ItemId) (levels : Levels) : NoJump ((Ty.make id levels).map .ok) := by
  intro problem h
  cases hmade : Ty.make id levels <;> rw [hmade] at h <;> cases h

/-- Looking up the type of a name finds no jump. -/
theorem namedType_noJump (ctx : Context) (name : String) (args : List Ty) : NoJump (ctx.namedType name args) := by
  unfold Context.namedType
  split
  · intro problem h
    cases h
  · split
    · exact noJump_make _ _
    · unfold Context.globalType
      split
      · exact noJump_make _ _
      · intro problem h
        split at h <;> cases h
        rfl
      · intro problem h
        cases h
        rfl

/-- Looking up a member type finds no jump. -/
theorem memberType_noJump (ctx : Context) (parent : Ty) (name : String) (args : List Ty) :
    NoJump (ctx.memberType parent name args) := by
  unfold Context.memberType
  dsimp only
  split
  · intro problem h
    cases h
  · split
    · exact noJump_make _ _
    · intro problem h
      cases h
      rfl
  · intro problem h
    cases h
    rfl

/-- Settling a look-up notes nothing. -/
theorem settle_notes {found : Except Fault (Except Problem Ty)} (hf : NoJump found) (node : Node) :
    Keeps (Notes P ids) (settle node found) := by
  intro s a s' h
  obtain ⟨r, t, hr, h⟩ := bind_eq_ok.1 h
  obtain ⟨rfl, rfl⟩ := lift_eq_ok.1 hr
  cases r with
  | ok ty => exact Keeps.pure ty h
  | error problem => exact reject_notes (hf problem rfl) node h

/-- What a written type means is noted for it. -/
theorem resolved_notes {x : Check Ty} (hn : node.id ∈ ids) (hx : Keeps (Notes NodeInfo.IsType ids) x) :
    Keeps (Notes NodeInfo.IsType ids) (resolved node x) :=
  hx.bind fun ty => (noteInfo_notes hn ⟨ty, rfl⟩).bind fun _ => .pure _

/-! ### Look-ups and checks -/

/-- A look-up of a name notes nothing. -/
theorem lookup_notes (name : String) (args : List Ty) (allowPartial : Bool) :
    Keeps (Notes P ids) (lookup ctx name args allowPartial) := Keeps.get.bind fun _ => .lift _

/-- A function used as a value is noted. -/
theorem funcValue_notes (hP : ∀ f, P (.func f)) (hn : node.id ∈ ids) (f : FuncRef) :
    Keeps (Notes P ids) (funcValue ctx node f) := by
  unfold funcValue
  split
  · exact reject_notes rfl _
  · exact (Keeps.lift _).bind fun _ => (noteInfo_notes hn (hP f)).bind fun _ => .pure _

/-- Taking a member notes nothing. -/
theorem useMember_notes (node : Node) (object : Option Nat) (ty : Ty) (name : Name) (found : MemberRef) :
    Keeps (Notes P ids) (useMember ctx node object ty name found) := by
  refine (Keeps.lift _).bind fun isStatic => ?_
  split
  · exact (report_notes rfl _).bind fun _ => .pure _
  · split
    · refine (Keeps.lift _).bind fun varTy => ?_
      split <;> exact .pure _
    · exact .pure _

/-- Looking up a member notes nothing. -/
theorem memberOf_notes (node : Node) (object : Option Nat) (ty : Ty) (name : Name) (args : List Ty) :
    Keeps (Notes P ids) (memberOf ctx node object ty name args) := by
  unfold memberOf
  split
  · exact .pure _
  · split
    · exact .pure _
    · refine (Keeps.lift _).bind fun r => ?_
      split
      · exact useMember_notes _ _ _ _ _
      · rename_i e
        exact (report_notes (by cases e <;> rfl) _).bind fun _ => .pure _
  · exact (report_notes rfl _).bind fun _ => .pure _

/-- Looking up an indexer notes nothing. -/
theorem indexerOf_notes (node : Node) (ty : Ty) : Keeps (Notes P ids) (indexerOf ctx node ty) := by
  unfold indexerOf
  split
  · exact .pure _
  · refine (Keeps.lift _).bind fun getter => (Keeps.lift _).bind fun setter => ?_
    split
    · exact (report_notes rfl _).bind fun _ => .pure _
    · exact .pure _
  · exact (report_notes rfl _).bind fun _ => .pure _

/-- Checking arguments one by one notes nothing. -/
theorem checkEach_notes : ∀ (params : List Ty) (args : List Argument), Keeps (Notes P ids) (checkEach ctx params args)
  | [], args => by
    rw [checkEach.eq_def]
    exact .pure _
  | p :: ps, [] => by
    rw [checkEach.eq_def]
    exact .pure _
  | p :: ps, a :: as => by
    rw [checkEach]
    exact (checkAssignable_notes _ _ _).bind fun _ => (checkEach_notes ps as).bind fun _ => .pure _

/-- Checking arguments notes nothing. -/
theorem checkArgs_notes (node : Node) (params : List Ty) (args : List Argument) :
    Keeps (Notes P ids) (checkArgs ctx node params args) := by
  unfold checkArgs
  split
  · exact checkEach_notes _ _
  · exact (report_notes rfl _).bind fun _ => .pure _

/-- Inferring type arguments notes nothing. -/
theorem inferTypeArgs_notes (node : Node) (f : FuncRef) (params : List Ty) (args : List Argument) :
    Keeps (Notes P ids) (inferTypeArgs node f params args) := by
  unfold inferTypeArgs
  split
  · exact .pure _
  · refine (Keeps.lift _).bind fun inferred => ?_
    split
    · exact .pure _
    · split
      · exact (report_notes rfl _).bind fun _ => .pure _
      · exact .pure _

/-- Reporting that nothing can be assigned notes nothing. -/
theorem notAssignable_notes (node : Node) : Keeps (Notes P ids) (notAssignable node) :=
  (report_notes rfl _).bind fun _ => .pure _

/-- An element target notes its type and no more. -/
theorem accessorTarget_notes (hn : node.id ∈ ids) (objectNode indexNode : Node) (objectTy indexTy : Ty)
    (getter setter : FuncRef) :
    Keeps (Notes P ids) (accessorTarget ctx node objectNode indexNode objectTy indexTy getter setter) := by
  refine (Keeps.lift _).bind fun reads => (Keeps.lift _).bind fun writes => (checkArgs_notes _ _ _).bind fun fits => ?_
  split
  · exact .pure _
  · split
    · exact (report_notes rfl _).bind fun _ => .pure _
    · exact (noteType_notes hn _).bind fun _ => .pure _

/-! ### Lambdas and tasks -/

/-- Wiring captures notes nothing. -/
theorem wireCaptures_notes (node : Node) : ∀ needs : List CaptureNeed,
    Keeps (Notes P ids) (wireCaptures ctx node needs)
  | [] => by
    rw [wireCaptures]
    exact .pure _
  | need :: needs => by
    rw [wireCaptures]
    refine (lookup_notes _ _ _).bind fun meaning => ?_
    split
    · exact (wireCaptures_notes node needs).bind fun _ => .pure _
    · exact wireCaptures_notes node needs
    · exact wireCaptures_notes node needs
    · exact wireCaptures_notes node needs
    · exact (report_notes rfl _).bind fun _ => (wireCaptures_notes node needs).bind fun _ => .pure _
    · exact (report_notes rfl _).bind fun _ => (wireCaptures_notes node needs).bind fun _ => .pure _

end Check

end ScriptCheck
