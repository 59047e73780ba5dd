import ScriptCheck.Proofs.DeclarationRuns
import ScriptCheck.Proofs.Notes

/-!
# The nodes of written types

Finding out what a written type means notes a type at each of its nodes, whether or not there are problems, and nothing at any
other node (`NotesTypes`). The same holds of the records that are made before bodies are analysed: they note a type at each
node of the types that the declarations mention, which `Script.types` lists, and nothing else is noted before the bodies are.
-/

namespace ScriptCheck

/-- A type is noted for the node. -/
def NodeMap.NamesType (m : NodeMap) (node : Nat) : Prop := ∃ ty, m.info? node = some (.type ty)

/-- Nothing was noted but types, one for each of the nodes `ids`, and none more often than it is listed there. -/
structure NotesTypes (ids : List Nat) (s s' : State) : Prop extends Notes NodeInfo.IsType ids s s' where
  made : ∀ n ∈ ids, s'.nodes.NamesType n
  once : ∀ n, s'.nodes.noted n ≤ s.nodes.noted n + ids.count n

namespace NotesTypes

variable {ids ids' : List Nat} {s t u : State}

/-- A note of a type does not become another note. -/
theorem kept (h : NotesTypes ids s t) {n : Nat} (hn : s.nodes.NamesType n) : t.nodes.NamesType n := by
  by_cases hmem : n ∈ ids
  · exact h.made n hmem
  · rwa [NodeMap.NamesType, NodeMap.info?, NodeMap.dataOf, h.nodes n hmem]

/-- Written types, one after the other. -/
theorem append (h : NotesTypes ids s t) (h' : NotesTypes ids' t u) : NotesTypes (ids ++ ids') s u where
  toNotes := (h.toNotes.weaken (fun _ => id) (List.subset_append_left _ _)).trans
    (h'.toNotes.weaken (fun _ => id) (List.subset_append_right _ _))
  made := List.forall_mem_append.2 ⟨fun n hn => h'.kept (h.made n hn), h'.made⟩
  once n := by
    have hfirst := h.once n
    have hsecond := h'.once n
    rw [List.count_append]
    omega

/-- Where no node is written to, no type is noted. -/
theorem of_notes (h : Notes NodeInfo.IsType [] s t) : NotesTypes [] s t :=
  ⟨h, by simp, fun n => by simp [NodeMap.noted, NodeMap.history, NodeMap.dataOf, h.nodes n]⟩

instance : Std.Refl (NotesTypes []) := ⟨fun s => of_notes (Std.Refl.refl s)⟩

end NotesTypes

theorem TypeExpr.idsOfList_append : ∀ ts us : List TypeExpr,
    TypeExpr.idsOfList (ts ++ us) = TypeExpr.idsOfList ts ++ TypeExpr.idsOfList us
  | [], us => by rw [TypeExpr.idsOfList, List.nil_append, List.nil_append]
  | t :: ts, us => by
    rw [List.cons_append, TypeExpr.idsOfList, TypeExpr.idsOfList, TypeExpr.idsOfList_append ts us, List.append_assoc]

@[simp] theorem TypeExpr.idsOfList_singleton (t : TypeExpr) : TypeExpr.idsOfList [t] = t.ids := by
  rw [TypeExpr.idsOfList, TypeExpr.idsOfList, List.append_nil]

theorem TypeExpr.idsOfList_toList (t : Option TypeExpr) : TypeExpr.idsOfList t.toList = TypeExpr.idsOfOption t := by
  cases t with
  | none => rfl
  | some t => exact TypeExpr.idsOfList_singleton t

/-- The types that are written for a lambda's parameters. -/
def LambdaParam.types (params : List LambdaParam) : List TypeExpr := params.flatMap fun p => p.ty.toList

theorem LambdaParam.idsOfList_types : ∀ params : List LambdaParam,
    TypeExpr.idsOfList (LambdaParam.types params) = LambdaParam.typeIds params
  | [] => rfl
  | p :: ps => by
    have ih := LambdaParam.idsOfList_types ps
    rw [LambdaParam.types, List.flatMap_cons, TypeExpr.idsOfList_append, TypeExpr.idsOfList_toList, ← LambdaParam.types, ih]
    rfl

/-- A node of one of several written types is a node of them. -/
theorem TypeExpr.mem_idsOfList {n : Nat} {t : TypeExpr} (hn : n ∈ t.ids) : ∀ {ts : List TypeExpr}, t ∈ ts →
    n ∈ TypeExpr.idsOfList ts
  | u :: us, h => by
    rw [TypeExpr.idsOfList, List.mem_append]
    rcases List.mem_cons.1 h with rfl | h
    · exact .inl hn
    · exact .inr (TypeExpr.mem_idsOfList hn h)

namespace Check

variable {α β : Type} {ctx : Context} {ids ids' : List Nat} {node : Node}

namespace Keeps

variable {x : Check α}

theorem notesNoTypes (h : Keeps (Notes NodeInfo.IsType []) x) : Keeps (NotesTypes []) x :=
  h.weaken fun _ _ => .of_notes

theorem toNotes (h : Keeps (NotesTypes ids) x) : Keeps (Notes NodeInfo.IsType ids) x :=
  h.weaken fun _ _ hn => hn.toNotes

/-- The types of two steps, one after the other. -/
theorem types {f : α → Check β} (hx : Keeps (NotesTypes ids) x) (hf : ∀ a, Keeps (NotesTypes ids') (f a)) :
    Keeps (NotesTypes (ids ++ ids')) (x >>= f) := by
  intro s b s' h
  obtain ⟨a, t, h₁, h₂⟩ := bind_eq_ok.1 h
  exact (hx h₁).append (hf a h₂)

/-- The types of a step after which no type is noted. -/
theorem typesOnly {f : α → Check β} (hx : Keeps (NotesTypes ids) x) (hf : ∀ a, Keeps (NotesTypes []) (f a)) :
    Keeps (NotesTypes ids) (x >>= f) := by
  have h := hx.types hf
  rwa [List.append_nil] at h

end Keeps

/-- A written type is noted after its parts. -/
theorem resolved_typeNodes {x : Check Ty} (hx : Keeps (NotesTypes ids) x) :
    Keeps (NotesTypes (node.id :: ids)) (resolved node x) := by
  intro s a s' h
  have hnotes := resolved_notes List.mem_cons_self (hx.toNotes.notesIn (List.subset_cons_self _ _)) h
  simp only [resolved, bind_eq_ok, noteInfo_apply, pure_eq_ok, ok_inj] at h
  obtain ⟨ty, u, h₁, _, _, ⟨-, rfl⟩, -, rfl⟩ := h
  refine ⟨hnotes, List.forall_mem_cons.2 ⟨⟨ty, by simp⟩, fun n hn => ?_⟩, fun n => ?_⟩
  · obtain ⟨t, ht⟩ := (hx h₁).made n hn
    rw [NodeMap.NamesType, NodeMap.info?_setInfo]
    split
    · exact ⟨ty, rfl⟩
    · exact ⟨t, ht⟩
  · have hinside := (hx h₁).once n
    simp only [NodeMap.noted_setInfo, List.count_cons, beq_iff_eq]
    omega

mutual

/-- Finding out what a written type means notes a type at each of its nodes. -/
theorem typeExpr_typeNodes (ctx : Context) : ∀ t : TypeExpr, Keeps (NotesTypes t.ids) (typeExpr ctx t)
  | .named node name args => by
    rw [typeExpr, TypeExpr.ids]
    exact resolved_typeNodes ((typeExprs_typeNodes ctx args).typesOnly fun _ =>
      (settle_notes (namedType_noJump ctx _ _) _).notesNoTypes)
  | .member node parent name args => by
    rw [typeExpr, TypeExpr.ids]
    exact resolved_typeNodes ((typeExpr_typeNodes ctx parent).types fun _ => (typeExprs_typeNodes ctx args).typesOnly fun _ =>
      (settle_notes (memberType_noJump ctx _ _ _) _).notesNoTypes)
  | .func node ret params => by
    rw [typeExpr, TypeExpr.ids]
    exact resolved_typeNodes ((typeExpr_typeNodes ctx ret).types fun _ => (typeExprs_typeNodes ctx params).typesOnly fun _ =>
      .pure _)
  | .void node => by
    rw [typeExpr, TypeExpr.ids]
    exact resolved_typeNodes (.pure _)
  | .var node => by
    rw [typeExpr, TypeExpr.ids]
    exact resolved_typeNodes (reject_notes rfl _).notesNoTypes

/-- Each of several written types is noted. -/
theorem typeExprs_typeNodes (ctx : Context) : ∀ ts : List TypeExpr,
    Keeps (NotesTypes (TypeExpr.idsOfList ts)) (typeExprs ctx ts)
  | [] => by
    rw [typeExprs, TypeExpr.idsOfList]
    exact .pure _
  | t :: ts => by
    rw [typeExprs, TypeExpr.idsOfList]
    exact (typeExpr_typeNodes ctx t).types fun _ => (typeExprs_typeNodes ctx ts).typesOnly fun _ => .pure _

end

theorem lambdaParam_typeNodes (hints : Option (List Ty)) (p : LambdaParam) :
    Keeps (NotesTypes (TypeExpr.idsOfOption p.ty)) (lambdaParam ctx hints p) := by
  obtain ⟨node, name, ty⟩ := p
  cases ty with
  | none =>
    rw [TypeExpr.idsOfOption]
    unfold lambdaParam
    split
    · rename_i t heq
      cases heq
    · exact .lift _
    · exact (reject_notes rfl _).notesNoTypes
  | some t => exact typeExpr_typeNodes ctx t

/-- So are those of parameters. -/
theorem lambdaParams_typeNodes : ∀ (hints : Option (List Ty)) (params : List LambdaParam),
    Keeps (NotesTypes (LambdaParam.typeIds params)) (lambdaParams ctx hints params)
  | hints, [] => by
    rw [lambdaParams, LambdaParam.typeIds, List.flatMap_nil]
    exact .pure _
  | hints, p :: ps => by
    rw [lambdaParams, LambdaParam.typeIds, List.flatMap_cons]
    exact (lambdaParam_typeNodes hints p).types fun _ => (lambdaParams_typeNodes _ ps).typesOnly fun _ => .pure _

theorem declaredResult_typeNodes (ret : Option TypeExpr) :
    Keeps (NotesTypes (TypeExpr.idsOfOption ret)) (ret.mapM (typeExpr ctx)) := by
  cases ret with
  | none =>
    rw [TypeExpr.idsOfOption]
    exact .pure _
  | some t =>
    rw [Option.mapM_some, map_eq_pure_bind]
    exact (typeExpr_typeNodes ctx t).typesOnly fun _ => .pure _

theorem typeExpr_notes (ctx : Context) (t : TypeExpr) : Keeps (Notes NodeInfo.IsType t.ids) (typeExpr ctx t) :=
  (typeExpr_typeNodes ctx t).toNotes

theorem typeExprs_notes (ctx : Context) (ts : List TypeExpr) :
    Keeps (Notes NodeInfo.IsType (TypeExpr.idsOfList ts)) (typeExprs ctx ts) := (typeExprs_typeNodes ctx ts).toNotes

theorem lambdaParams_notes (hints : Option (List Ty)) (params : List LambdaParam) :
    Keeps (Notes NodeInfo.IsType (LambdaParam.typeIds params)) (lambdaParams ctx hints params) :=
  (lambdaParams_typeNodes hints params).toNotes

theorem declaredResult_notes (ret : Option TypeExpr) :
    Keeps (Notes NodeInfo.IsType (TypeExpr.idsOfOption ret)) (ret.mapM (typeExpr ctx)) := (declaredResult_typeNodes ret).toNotes

end Check

/-! ### The types that declarations mention -/

/-- The types of a function's parameters and of what it gives. -/
def FuncDecl.types (decl : FuncDecl) : List TypeExpr := decl.params.map (·.ty) ++ [decl.ret]

mutual

/-- The types that the declaration of a type mentions outside of bodies. -/
def TypeDecl.types : TypeDecl → List TypeExpr
  | .mk _ _ _ _ base members => base.toList ++ Member.typesOfList members

/-- The types that several members mention outside of bodies. -/
def Member.typesOfList : List Member → List TypeExpr
  | [] => []
  | m :: ms => m.types ++ Member.typesOfList ms

/-- The types that a member mentions outside of bodies. -/
def Member.types : Member → List TypeExpr
  | .type decl => decl.types
  | .func decl => decl.types
  | .field decl => [decl.ty]
  | .case _ => []

end

/-- The types that a declaration at the top level mentions outside of bodies. -/
def Element.types : Element → List TypeExpr
  | .type decl => decl.types
  | .func decl => decl.types
  | .stmt _ => []

/-- The types that the declarations of a script mention outside of bodies. -/
def Script.types (script : Script) : List TypeExpr := script.flatMap Element.types

namespace Check

/-- A base is noted whether or not it can be one. -/
theorem baseType_typeNodes (ctx : Context) (written : TypeExpr) : Keeps (NotesTypes written.ids) (baseType ctx written) := by
  refine (typeExpr_typeNodes ctx written).typesOnly fun ty => ?_
  have hreport : Keeps (NotesTypes []) (report (.invalidBaseType ty) written.node) :=
    (report_notes rfl _).notesNoTypes
  split
  · exact .pure _
  · split
    · exact .pure _
    · exact hreport.typesOnly fun _ => .pure _
  · exact hreport.typesOnly fun _ => .pure _

theorem declaredBase_typeNodes (ctx : Context) : ∀ base : Option TypeExpr,
    Keeps (NotesTypes (TypeExpr.idsOfOption base)) (declaredBase ctx base)
  | none => by
    rw [TypeExpr.idsOfOption]
    exact .pure _
  | some written => baseType_typeNodes ctx written

/-- The types of parameters are noted. -/
theorem paramRecords_typeNodes (ctx : Context) : ∀ params : List FuncParam,
    Keeps (NotesTypes (TypeExpr.idsOfList (params.map (·.ty)))) (paramRecords ctx params)
  | [] => by
    rw [paramRecords, List.map_nil, TypeExpr.idsOfList]
    exact .pure _
  | p :: ps => by
    rw [paramRecords, List.map_cons, TypeExpr.idsOfList]
    exact (typeExpr_typeNodes ctx p.ty).types fun _ => (paramRecords_typeNodes ctx ps).typesOnly fun _ => .pure _

/-- The types of a function are noted. -/
theorem declareFunc_typeNodes (ctx : Context) (outer : ItemId) (decl : FuncDecl) (isStatic : Bool) (m : Module) :
    Keeps (NotesTypes (TypeExpr.idsOfList decl.types)) (declareFunc ctx outer decl isStatic m) := by
  rw [FuncDecl.types, TypeExpr.idsOfList_append, TypeExpr.idsOfList_singleton]
  exact (paramRecords_typeNodes _ decl.params).types fun _ => (typeExpr_typeNodes _ decl.ret).typesOnly fun _ =>
    (Keeps.lift _).typesOnly fun _ => .lift _

theorem declareField_typeNodes (ctx : Context) (outer : ItemId) (decl : FieldDecl) (m : Module) :
    Keeps (NotesTypes decl.ty.ids) (declareField ctx outer decl m) :=
  (typeExpr_typeNodes _ _).typesOnly fun _ => (Keeps.lift _).typesOnly fun _ => .lift _

/-- The types that declarations mention. -/
def typeLists : DeclLists TypeExpr where
  func _ _ := FuncDecl.types
  type _ _ := TypeDecl.types
  members _ _ := Member.typesOfList
  member _ _ := Member.types

/-- So are those of a type and its members, and of a script. -/
theorem typesWalk : DeclWalk typeLists (fun _ ts a b => NotesTypes (TypeExpr.idsOfList ts) a.2 b.2) where
  refl _ a := .of_notes (Std.Refl.refl a.2)
  trans h h' := by
    rw [TypeExpr.idsOfList_append]
    exact h.append h'
  func_run h := declareFunc_typeNodes _ _ _ _ _ h
  field_run h := by
    simp only [typeLists, Member.types, TypeExpr.idsOfList_singleton]
    exact declareField_typeNodes _ _ _ _ h
  case_run _ _ _ a := .of_notes (Std.Refl.refl a.2)
  stmt_run _ _ a := .of_notes (Std.Refl.refl a.2)
  type_run hbase hmembers _ _ := by
    simp only [typeLists, TypeDecl.types, TypeExpr.idsOfList_append, TypeExpr.idsOfList_toList]
    exact (declaredBase_typeNodes _ _ hbase).append hmembers

/-- Making the records of a script notes a type at each node of the types that they mention, and nothing else. -/
theorem declareElements_typeNodes (ctx : Context) (script : Script) (m : Module) :
    Keeps (NotesTypes (TypeExpr.idsOfList script.types)) (declareElements ctx script m) :=
  fun s _ _ h => typesWalk.script_keeps (a := (m, s)) {} h

/-- The records of a script only note types. -/
theorem declareElements_notes (ctx : Context) (script : Script) (m : Module) :
    Keeps (Notes NodeInfo.IsType (TypeExpr.idsOfList script.types)) (declareElements ctx script m) :=
  (declareElements_typeNodes ctx script m).toNotes

end Check

end ScriptCheck
