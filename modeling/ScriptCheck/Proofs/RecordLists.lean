import ScriptCheck.Proofs.BaseChains
import ScriptCheck.Proofs.LockstepBodies

/-!
# The records of a script as a list

Records are added to the script's module one by one as its declarations are gone through. No declaration looks at what was
added before it, so the records can as well be listed first (`Check.elementRecords`) and then be put into the module
(`declareElements_eq`). Where their ids differ, the order in which they are put into it decides only in which order they are
found there (`Module.Alike`).
-/

namespace ScriptCheck

/-- A record of a declaration of any kind. -/
inductive Record where
  | type (r : TypeRecord)
  | func (r : FuncRecord)
  | var (r : VarRecord)

namespace Record

/-- The id that the record is put under. -/
def id : Record → ItemId
  | type r => r.id
  | func r => r.id
  | var r => r.id

/-- The record, if it is one of a type, under its id. -/
def type? : Record → Option (ItemId × TypeRecord)
  | type r => some (r.id, r)
  | _ => none

/-- The id of the record, and whether it is one of a type. -/
def head (r : Record) : ItemId × Bool := (r.id, r.type?.isSome)

/-- The record, if it is one of a function, under its id. -/
def func? : Record → Option (ItemId × FuncRecord)
  | func r => some (r.id, r)
  | _ => none

/-- The record, if it is one of a variable, under its id. -/
def var? : Record → Option (ItemId × VarRecord)
  | var r => some (r.id, r)
  | _ => none

end Record

namespace Module

/-- Puts a record under its id. -/
def put (m : Module) : Record → Module
  | .type r => m.putType r
  | .func r => m.putFunc r
  | .var r => m.putVar r

/-- Puts several records under their ids. -/
def putAll (m : Module) (rs : List Record) : Module := rs.foldl put m

/-- Records do not change the name of a module. -/
@[simp] theorem name_put (m : Module) (r : Record) : (m.put r).name = m.name := by
  cases r <;> rfl

/-- Nor do several. -/
@[simp] theorem name_putAll (m : Module) (rs : List Record) : (m.putAll rs).name = m.name := by
  induction rs generalizing m with
  | nil => rfl
  | cons r rs ih => exact (ih (m.put r)).trans (name_put m r)

/-- Records of two lists, one after the other. -/
theorem putAll_append (m : Module) (rs rs' : List Record) : m.putAll (rs ++ rs') = (m.putAll rs).putAll rs' :=
  List.foldl_append

end Module

/-! ### Records without a module -/

namespace Check

/-- The record of a function under `outer`. -/
def funcRecords (ctx : Context) (outer : ItemId) (decl : FuncDecl) (isStatic : Bool) : Check (List Record) := do
  let id := decl.idUnder outer
  let typeParams := decl.typeParams.map Name.text
  let inside := ctx.within ⟨id, typeParams, false⟩
  let params ← paramRecords inside decl.params
  let ret ← typeExpr inside decl.ret
  return [.func ⟨id, typeParams, params, ret, decl.isSequence, isStatic⟩]

/-- The record of a variable under `outer`. -/
def fieldRecords (ctx : Context) (outer : ItemId) (decl : FieldDecl) : Check (List Record) := do
  let ty ← typeExpr ctx decl.ty
  return [.var ⟨decl.idUnder outer, ty, decl.isStatic⟩]

mutual

/-- The records of a type under `outer` and of everything in it. -/
def typeRecords (ctx : Context) (outer : ItemId) : TypeDecl → Check (List Record)
  | .mk _ kind name typeParams base members => do
    let id := outer.child (.text name) typeParams.length
    let inside := ctx.within ⟨id, typeParams.map .text, true⟩
    let base ← declaredBase inside base
    let rs ← membersRecords inside id members
    return rs ++ [.type ⟨id, kind.typeKind, typeParams.map .text, base, enumCases members⟩]

/-- The records of the members of a type. -/
def membersRecords (ctx : Context) (id : ItemId) : List Member → Check (List Record)
  | [] => return []
  | member :: members => do
    let rs ← memberRecords ctx id member
    let rest ← membersRecords ctx id members
    return rs ++ rest

/-- The records of one member of a type. -/
def memberRecords (ctx : Context) (id : ItemId) : Member → Check (List Record)
  | .type decl => typeRecords ctx id decl
  | .func decl => funcRecords ctx id decl decl.isStatic
  | .field decl => fieldRecords ctx id decl
  | .case _ => return []

end

/-- The records of a declaration at the top level. -/
def elementRecords (ctx : Context) : Element → Check (List Record)
  | .type decl => typeRecords ctx ctx.root decl
  | .func decl => funcRecords ctx ctx.root decl true
  | .stmt _ => return []

variable {ctx : Context}

/-! ### The module that the records make -/

variable {m : Module}

/-- A record that is in order is put into the module. -/
theorem put_checked {ρ : Type} {r : ρ} {x : Except Fault ρ} {add : ρ → Except Fault Module} {m' : Module} (hx : x = .ok r)
    (hadd : add r = .ok m') :
    (do
      let record ← (liftM x : Check ρ)
      liftM (add record) : Check Module) = pure m' := by
  rw [hx]
  exact congrArg (liftM : Except Fault Module → Check Module) hadd

/-- A function is declared by putting its record. -/
theorem declareFunc_eq {outer : ItemId} (decl : FuncDecl) (isStatic : Bool) (hm : outer.moduleName = m.name) :
    declareFunc ctx outer decl isStatic m = m.putAll <$> funcRecords ctx outer decl isStatic := by
  unfold declareFunc funcRecords
  simp only [map_bind, map_pure]
  exact bind_congr fun params => bind_congr fun ret =>
    put_checked (FuncRecord.check_eq_ok.2 ⟨by simp [FuncDecl.idUnder], rfl⟩) (Module.addFunc_eq_ok.2 ⟨hm, rfl⟩)

/-- So is a field. -/
theorem declareField_eq {outer : ItemId} (decl : FieldDecl) (hm : outer.moduleName = m.name) :
    declareField ctx outer decl m = m.putAll <$> fieldRecords ctx outer decl := by
  unfold declareField fieldRecords
  simp only [map_bind, map_pure]
  exact bind_congr fun ty =>
    put_checked (VarRecord.check_eq_ok.2 ⟨by simp [FieldDecl.idUnder], rfl⟩) (Module.addVar_eq_ok.2 ⟨hm, rfl⟩)

mutual

/-- A type is declared by putting the records of its members and then its own. -/
theorem declareType_eq (ctx : Context) (outer : ItemId) : ∀ (decl : TypeDecl) (m : Module), outer.moduleName = m.name →
    declareType ctx outer decl m = m.putAll <$> typeRecords ctx outer decl
  | .mk node kind name typeParams base members, m, hm => by
    rw [declareType, typeRecords]
    simp only [map_bind, map_pure]
    refine bind_congr fun base => ?_
    rw [declareMembers_eq _ (outer.child (.text name) typeParams.length) members m hm, map_eq_pure_bind, bind_assoc]
    refine bind_congr fun rs => ?_
    rw [pure_bind, Module.putAll_append]
    exact put_checked (TypeRecord.check_eq_ok.2 ⟨by simp, rfl⟩) (Module.addType_eq_ok.2 ⟨by simpa using hm, rfl⟩)

/-- Members are declared in order. -/
theorem declareMembers_eq (ctx : Context) (id : ItemId) : ∀ (members : List Member) (m : Module), id.moduleName = m.name →
    declareMembers ctx id members m = m.putAll <$> membersRecords ctx id members
  | [], m, hm => by
    rw [declareMembers, membersRecords, map_pure]
    rfl
  | member :: members, m, hm => by
    rw [declareMembers, membersRecords, declareMember_eq ctx id member m hm, map_eq_pure_bind, bind_assoc]
    simp only [map_bind, map_pure]
    refine bind_congr fun rs => ?_
    rw [pure_bind, declareMembers_eq ctx id members _ (by simpa using hm), map_eq_pure_bind]
    exact bind_congr fun rest => by rw [Module.putAll_append]

/-- Each by its own rule. -/
theorem declareMember_eq (ctx : Context) (id : ItemId) : ∀ (member : Member) (m : Module), id.moduleName = m.name →
    declareMember ctx id member m = m.putAll <$> memberRecords ctx id member
  | .type decl, m, hm => by
    rw [declareMember, memberRecords]
    exact declareType_eq ctx id decl m hm
  | .func decl, m, hm => by
    rw [declareMember, memberRecords]
    exact declareFunc_eq decl _ hm
  | .field decl, m, hm => by
    rw [declareMember, memberRecords]
    exact declareField_eq decl hm
  | .case decl, m, hm => by
    rw [declareMember, memberRecords, map_pure]
    rfl

end

/-- The records of the declarations at the top level can be listed first and put into the module afterwards. -/
theorem declareElements_eq (ctx : Context) : ∀ (script : Script) (m : Module), ctx.moduleName = m.name →
    declareElements ctx script m = (fun rss => m.putAll rss.flatten) <$> script.mapM (elementRecords ctx)
  | [], m, hm => by
    rw [declareElements, List.mapM_nil, map_pure]
    rfl
  | e :: rest, m, hm => by
    have hfirst : declareElements ctx (e :: rest) m =
        elementRecords ctx e >>= fun rs => declareElements ctx rest (m.putAll rs) := by
      cases e with
      | type decl =>
        rw [declareElements, declareType_eq ctx ctx.root decl m hm, map_eq_pure_bind, bind_assoc]
        simp only [pure_bind, elementRecords]
      | func decl =>
        rw [declareElements, declareFunc_eq decl true hm, map_eq_pure_bind, bind_assoc]
        simp only [pure_bind, elementRecords]
      | stmt s =>
        rw [declareElements, elementRecords, pure_bind]
        rfl
    rw [hfirst, List.mapM_cons]
    simp only [map_bind, map_pure]
    refine bind_congr fun rs => ?_
    rw [declareElements_eq ctx rest _ (by simpa using hm), map_eq_pure_bind]
    exact bind_congr fun rss => by rw [List.flatten_cons, Module.putAll_append]

/-! ### What the records depend on -/

section Lockstep

variable {E : LookupError → LookupError → Prop} {N : Set Nat} {ctx ctx' : Context}

/-- A base is judged alike in contexts that are alike. -/
theorem baseType_lockstep (h : ctx.Alike E ctx') {written : TypeExpr} (hN : ∀ n ∈ written.ids, n ∈ N) :
    Lockstep E N Eq (baseType ctx written) (baseType ctx' written) := by
  refine (typeExpr_lockstep h written hN).next fun ty => ?_
  rw [h.typeKind?]
  have hreport := report_lockstep (E := E) (.invalidBaseType ty) (hN _ written.node_mem_ids)
  split
  · exact .pure rfl
  · split
    · exact .pure rfl
    · exact hreport.next fun _ => .pure rfl
  · exact hreport.next fun _ => .pure rfl

/-- So is the base of a declared type, if it has one. -/
theorem declaredBase_lockstep (h : ctx.Alike E ctx') : ∀ base : Option TypeExpr,
    (∀ n ∈ TypeExpr.idsOfOption base, n ∈ N) → Lockstep E N Eq (declaredBase ctx base) (declaredBase ctx' base)
  | none, _ => .pure rfl
  | some _, hN => baseType_lockstep h hN

/-- So are parameters. -/
theorem paramRecords_lockstep (h : ctx.Alike E ctx') : ∀ params : List FuncParam,
    (∀ n ∈ FuncParam.idsOfList params, n ∈ N) → Lockstep E N Eq (paramRecords ctx params) (paramRecords ctx' params)
  | [], _ => by
    rw [paramRecords, paramRecords]
    exact .pure rfl
  | p :: ps, hN => by
    rw [paramRecords, paramRecords]
    refine (typeExpr_lockstep h p.ty fun n hn => hN n (by simp [FuncParam.idsOfList, hn])).next fun ty => ?_
    exact (paramRecords_lockstep h ps fun n hn => hN n (by simp [FuncParam.idsOfList, hn])).next fun rest => .pure rfl

/-- So are functions. -/
theorem funcRecords_lockstep (h : ctx.Alike E ctx') (outer : ItemId) {decl : FuncDecl} (isStatic : Bool)
    (hN : ∀ n ∈ decl.ids, n ∈ N) :
    Lockstep E N Eq (funcRecords ctx outer decl isStatic) (funcRecords ctx' outer decl isStatic) := by
  refine (paramRecords_lockstep (h.within _) decl.params fun n hn => hN n (by simp [FuncDecl.ids, hn])).next fun params => ?_
  exact (typeExpr_lockstep (h.within _) decl.ret fun n hn => hN n (by simp [FuncDecl.ids, hn])).next fun ret => .pure rfl

mutual

/-- So are types, with everything in them. -/
theorem typeRecords_lockstep {ctx ctx' : Context} (h : ctx.Alike E ctx') (outer : ItemId) : ∀ decl : TypeDecl,
    (∀ n ∈ decl.ids, n ∈ N) → Lockstep E N Eq (typeRecords ctx outer decl) (typeRecords ctx' outer decl)
  | .mk node kind name typeParams base members, hN => by
    rw [TypeDecl.ids, List.forall_mem_cons, List.forall_mem_append] at hN
    rw [typeRecords, typeRecords]
    refine (declaredBase_lockstep (h.within _) base hN.2.1).next fun base => ?_
    exact (membersRecords_lockstep (h.within _) _ members hN.2.2).next fun rs => .pure rfl

/-- So are members. -/
theorem membersRecords_lockstep {ctx ctx' : Context} (h : ctx.Alike E ctx') (id : ItemId) : ∀ members : List Member,
    (∀ n ∈ Member.idsOfList members, n ∈ N) → Lockstep E N Eq (membersRecords ctx id members) (membersRecords ctx' id members)
  | [], _ => by
    rw [membersRecords, membersRecords]
    exact .pure rfl
  | m :: ms, hN => by
    rw [Member.idsOfList, List.forall_mem_append] at hN
    rw [membersRecords, membersRecords]
    refine (memberRecords_lockstep h id m hN.1).next fun rs => ?_
    exact (membersRecords_lockstep h id ms hN.2).next fun rest => .pure rfl

/-- So is a single member. -/
theorem memberRecords_lockstep {ctx ctx' : Context} (h : ctx.Alike E ctx') (id : ItemId) : ∀ m : Member,
    (∀ n ∈ m.ids, n ∈ N) → Lockstep E N Eq (memberRecords ctx id m) (memberRecords ctx' id m)
  | .type decl, hN => by
    rw [Member.ids] at hN
    rw [memberRecords, memberRecords]
    exact typeRecords_lockstep h id decl hN
  | .func decl, hN => by
    rw [Member.ids] at hN
    rw [memberRecords, memberRecords]
    exact funcRecords_lockstep h id _ hN
  | .field decl, hN => by
    rw [Member.ids, List.forall_mem_cons] at hN
    rw [memberRecords, memberRecords]
    exact (typeExpr_lockstep h decl.ty hN.2).next fun ty => .pure rfl
  | .case decl, _ => by
    rw [memberRecords, memberRecords]
    exact .pure rfl

end

/-- So is what stands at the top level. -/
theorem elementRecords_lockstep (h : ctx.Alike E ctx') : ∀ e : Element, (∀ n ∈ e.ids, n ∈ N) →
    Lockstep E N Eq (elementRecords ctx e) (elementRecords ctx' e)
  | .type decl, hN => by
    rw [elementRecords, elementRecords, h.root]
    exact typeRecords_lockstep h ctx.root decl hN
  | .func decl, hN => by
    rw [elementRecords, elementRecords, h.root]
    exact funcRecords_lockstep h ctx.root true hN
  | .stmt _, _ => .pure rfl

end Lockstep

/-! ### What they describe -/

end Check

namespace Declaration

/-- The record is of the declaration's sort and has its id and what is declared: the kind, type parameters and cases of a
type, the type parameters of a function and whether it is a sequence function, and whether a function or variable is static.
A function at the top level is static whatever it says. -/
def Describes : Declaration → Record → Prop
  | type outer (.mk _ kind name typeParams _ members), .type r =>
    r.id = outer.child (.text name) typeParams.length ∧ r.kind = kind.typeKind ∧ r.typeParams = typeParams.map .text ∧
      r.cases = (members.filterMap Member.caseName?).map .text
  | func outer decl, .func r =>
    r.id = decl.idUnder outer ∧ r.typeParams = decl.typeParams.map .text ∧ r.isSequence = decl.isSequence ∧
      r.isStatic = (outer.isRoot || decl.isStatic)
  | field outer decl, .var r => r.id = decl.idUnder outer ∧ r.isStatic = decl.isStatic
  | _, _ => False

/-- A record has the head of the declaration it describes. -/
theorem Describes.head_eq {d : Declaration} {r : Record} (h : d.Describes r) : r.head = d.head := by
  cases d with
  | type outer decl =>
    cases decl
    cases r with
    | type r => exact congrArg (·, true) h.1
    | _ => cases h
  | func outer decl =>
    cases r with
    | func r => exact congrArg (·, false) h.1
    | _ => cases h
  | field outer decl =>
    cases r with
    | var r => exact congrArg (·, false) h.1
    | _ => cases h

/-- So have several. -/
theorem Describes.heads_eq {ds : List Declaration} {rs : List Record} (h : List.Forall₂ Describes ds rs) :
    rs.map Record.head = ds.map head := by
  induction h with
  | nil => rfl
  | cons hd _ ih => rw [List.map_cons, List.map_cons, hd.head_eq, ih]

end Declaration

/-- The cases of a type's record are those that the type declares. -/
theorem Check.enumCases_eq (members : List Member) : enumCases members = (members.filterMap Member.caseName?).map .text := by
  rw [enumCases, List.map_filterMap]
  refine List.filterMap_congr fun m _ => ?_
  cases m <;> rfl

/-- The root is no declaration. -/
@[simp] theorem ItemId.isRoot_root (name : String) : (ItemId.root name).isRoot = true := rfl

/-- What is declared is not the root. -/
@[simp] theorem ItemId.isRoot_child (id : ItemId) (n : Name) (k : Nat) : (id.child n k).isRoot = false := by
  simp [isRoot]

namespace Check

variable {ctx : Context} {s t : State} {rs : List Record}
variable {script : Script} {rss : List (List Record)}

/-- The record of a function describes it. -/
theorem funcRecords_describes {outer : ItemId} {decl : FuncDecl} {isStatic : Bool}
    (hstatic : isStatic = (outer.isRoot || decl.isStatic)) (h : funcRecords ctx outer decl isStatic s = .ok (rs, t)) :
    List.Forall₂ Declaration.Describes [.func outer decl] rs := by
  simp only [funcRecords, bind_eq_ok, pure_eq_ok] at h
  obtain ⟨params, u, -, ret, v, -, rfl, rfl⟩ := h
  exact .cons ⟨rfl, rfl, rfl, hstatic⟩ .nil

mutual

/-- Those of a type describe what is declared in it, and the type. -/
theorem typeRecords_describes (outer : ItemId) : ∀ {decl : TypeDecl} {ctx : Context} {s t : State} {rs : List Record},
    typeRecords ctx outer decl s = .ok (rs, t) → List.Forall₂ Declaration.Describes (decl.declarations outer) rs
  | .mk node kind name typeParams base members, ctx, s, t, rs, h => by
    simp only [typeRecords, bind_eq_ok, pure_eq_ok] at h
    obtain ⟨base, u, -, rs, v, hrs, rfl, rfl⟩ := h
    have hmembers := membersRecords_describes (outer.child (.text name) typeParams.length) (by simp) hrs
    rw [TypeDecl.declarations]
    exact List.rel_append hmembers (.cons ⟨rfl, rfl, rfl, enumCases_eq members⟩ .nil)

/-- Those of members describe what they declare. -/
theorem membersRecords_describes (id : ItemId) (hid : id.isRoot = false) :
    ∀ {members : List Member} {ctx : Context} {s t : State} {rs : List Record},
      membersRecords ctx id members s = .ok (rs, t) →
        List.Forall₂ Declaration.Describes (Member.declarationsOfList id members) rs
  | [], ctx, s, t, rs, h => by
    rw [membersRecords, pure_eq_ok] at h
    rw [← h.1, Member.declarationsOfList]
    exact .nil
  | m :: ms, ctx, s, t, rs, h => by
    simp only [membersRecords, bind_eq_ok, pure_eq_ok] at h
    obtain ⟨rs, u, hrs, rest, v, hrest, rfl, rfl⟩ := h
    rw [Member.declarationsOfList]
    exact List.rel_append (memberRecords_describes id hid hrs) (membersRecords_describes id hid hrest)

/-- So do those of a single member. -/
theorem memberRecords_describes (id : ItemId) (hid : id.isRoot = false) :
    ∀ {m : Member} {ctx : Context} {s t : State} {rs : List Record},
      memberRecords ctx id m s = .ok (rs, t) → List.Forall₂ Declaration.Describes (m.declarations id) rs
  | .type decl, ctx, s, t, rs, h => by
    rw [memberRecords] at h
    rw [Member.declarations]
    exact typeRecords_describes id h
  | .func decl, ctx, s, t, rs, h => by
    rw [memberRecords] at h
    rw [Member.declarations]
    exact funcRecords_describes (by simp [hid]) h
  | .field decl, ctx, s, t, rs, h => by
    simp only [memberRecords, fieldRecords, bind_eq_ok, pure_eq_ok] at h
    obtain ⟨ty, u, -, rfl, rfl⟩ := h
    rw [Member.declarations]
    exact .cons ⟨rfl, rfl⟩ .nil
  | .case decl, ctx, s, t, rs, h => by
    rw [memberRecords, pure_eq_ok] at h
    rw [← h.1, Member.declarations]
    exact .nil

end

/-- So do those of what stands at the top level. -/
theorem elementRecords_describes {e : Element} (h : elementRecords ctx e s = .ok (rs, t)) :
    List.Forall₂ Declaration.Describes (e.declarations ctx.root) rs := by
  cases e with
  | type decl => exact typeRecords_describes ctx.root h
  | func decl => exact funcRecords_describes (by simp [Context.root]) h
  | stmt st =>
    rw [elementRecords, pure_eq_ok] at h
    rw [← h.1]
    exact .nil

/-- The records of a script are those of its declarations, in this order. -/
theorem records_describe (h : script.mapM (elementRecords ctx) s = .ok (rss, t)) :
    List.Forall₂ Declaration.Describes (script.declarations ctx.root) rss.flatten := by
  induction script generalizing s rss with
  | nil =>
    rw [List.mapM_nil, pure_eq_ok] at h
    rw [← h.1]
    exact .nil
  | cons e rest ih =>
    simp only [List.mapM_cons, bind_eq_ok, pure_eq_ok] at h
    obtain ⟨rs, u, hrs, rss, v, hrss, rfl, rfl⟩ := h
    rw [Script.declarations, List.flatMap_cons, List.flatten_cons]
    exact List.rel_append (elementRecords_describes hrs) (ih hrss)

/-- The records of a script are those of what it declares. -/
theorem heads_records {s t : State} (h : script.mapM (elementRecords ctx) s = .ok (rss, t)) :
    (rss.flatten.map Record.head).Perm ((script.declared ctx.root).map declaredHead) := by
  rw [Declaration.Describes.heads_eq (records_describe h)]
  exact script.heads_declarations ctx.root

/-- The records of a script have the ids that it declares. -/
theorem ids_records {s t : State} (h : script.mapM (elementRecords ctx) s = .ok (rss, t)) :
    (rss.flatten.map Record.id).Perm ((script.declared ctx.root).map (·.1)) := by
  have hheads := (heads_records h).map (·.1)
  rw [List.map_map, List.map_map] at hheads
  exact hheads

/-- The module of a script that declares different ids is made of records with different ids. -/
theorem exists_records {s t : State} (h : declareElements ctx script (.empty ctx.moduleName) s = .ok (m, t))
    (hdeclared : ((script.declared ctx.root).map (·.1)).Nodup) :
    ∃ rss, script.mapM (elementRecords ctx) s = .ok (rss, t) ∧ m = (Module.empty ctx.moduleName).putAll rss.flatten ∧
      (rss.flatten.map Record.id).Nodup := by
  rw [declareElements_eq ctx script _ rfl, map_eq_pure_bind] at h
  obtain ⟨rss, u, hrss, hm⟩ := bind_eq_ok.1 h
  obtain ⟨rfl, rfl⟩ := pure_eq_ok.1 hm
  exact ⟨rss, hrss, rfl, (ids_records hrss).nodup_iff.2 hdeclared⟩

end Check

/-! ### Records in any order -/

namespace Table

variable {κ ν : Type} [DecidableEq κ]

/-- A new key is put at the end. -/
theorem insertIn_new {k : κ} {l : List (κ × ν)} (h : k ∉ l.map (·.1)) (v : ν) : insertIn k v l = l ++ [(k, v)] := by
  induction l with
  | nil => rfl
  | cons e rest ih =>
    obtain ⟨k', v'⟩ := e
    rw [List.map_cons, List.mem_cons, not_or] at h
    rw [insertIn, if_neg (Ne.symm h.1), ih h.2, List.cons_append]

/-- Keys that are new and differ from each other come to stand in the order in which they are inserted. -/
theorem entries_foldl_insert {es : List (κ × ν)} {t : Table κ ν} (h : ((t.entries ++ es).map (·.1)).Nodup) :
    (es.foldl (fun t e => t.insert e.1 e.2) t).entries = t.entries ++ es := by
  induction es generalizing t with
  | nil => simp
  | cons e es ih =>
    have hnew : e.1 ∉ t.entries.map (·.1) := by
      intro hmem
      rw [List.map_append, List.nodup_append] at h
      exact h.2.2 _ hmem e.1 (by simp) rfl
    have hentries : (t.insert e.1 e.2).entries = t.entries ++ [e] := insertIn_new hnew e.2
    rw [List.foldl_cons, ih (by rw [hentries]; simpa using h), hentries, List.append_assoc]
    rfl

end Table

namespace Module

/-- Whether a function is directly under `outer` and has this name. -/
def isNamed (outer : ItemId) (name : Name) (id : ItemId) : Bool := id.outer? = some outer ∧ id.last?.map (·.name) = some name

/-- A function is listed under its name. -/
theorem listed_indexFunc (index : Table (ItemId × Name) (List ItemId)) (id outer : ItemId) (name : Name) :
    ((indexFunc index id).find? (outer, name)).getD [] =
      (index.find? (outer, name)).getD [] ++ if isNamed outer name id then [id] else [] := by
  unfold indexFunc isNamed
  cases ho : id.outer? with
  | none => simp
  | some o =>
    cases hl : id.last? with
    | none => simp
    | some l =>
      dsimp only
      rw [Table.find?_insert]
      by_cases heq : (o, l.name) = (outer, name)
      · cases heq
        simp
      · rw [if_neg heq, if_neg, List.append_nil]
        simpa using heq

/-- After several records, those of functions are listed in order. -/
theorem listed_putAll (m : Module) (rs : List Record) (outer : ItemId) (name : Name) :
    ((m.putAll rs).funcIndex.find? (outer, name)).getD [] = (m.funcIndex.find? (outer, name)).getD [] ++
      ((rs.filterMap Record.func?).map (·.1)).filter (isNamed outer name) := by
  induction rs generalizing m with
  | nil => simp [putAll]
  | cons r rs ih =>
    cases r with
    | type r => exact ih _
    | var r => exact ih _
    | func r =>
      refine (ih _).trans ?_
      have hlisted := listed_indexFunc m.funcIndex r.id outer name
      rw [put, putFunc, hlisted, List.append_assoc]
      congr 1
      simp only [List.filterMap_cons, Record.func?, List.map_cons, List.filter_cons]
      split <;> rfl

/-- Of the records that are put into a module, the table `get` has those that `pick` takes. -/
structure Holds {ν : Type} (get : Module → Table ItemId ν) (pick : Record → Option (ItemId × ν)) : Prop where
  empty : ∀ name, get (empty name) = .empty
  put : ∀ m r, get (m.put r) = ((pick r).map fun e => (get m).insert e.1 e.2).getD (get m)
  id : ∀ r, ∀ e ∈ pick r, e.1 = r.id

/-- A module has the types that were put into it. -/
theorem holds_types : Holds Module.types Record.type? :=
  ⟨fun _ => rfl, fun _ r => by cases r <;> rfl, fun r e he => by cases r <;> cases he; rfl⟩

/-- It has the functions. -/
theorem holds_funcs : Holds Module.funcs Record.func? :=
  ⟨fun _ => rfl, fun _ r => by cases r <;> rfl, fun r e he => by cases r <;> cases he; rfl⟩

/-- It has the variables. -/
theorem holds_vars : Holds Module.vars Record.var? :=
  ⟨fun _ => rfl, fun _ r => by cases r <;> rfl, fun r e he => by cases r <;> cases he; rfl⟩

namespace Holds

variable {ν : Type} {get : Module → Table ItemId ν} {pick : Record → Option (ItemId × ν)} {rs rs' : List Record}

/-- What a table has after several records. -/
theorem putAll (h : Holds get pick) (m : Module) (rs : List Record) :
    get (m.putAll rs) = (rs.filterMap pick).foldl (fun t e => t.insert e.1 e.2) (get m) := by
  induction rs generalizing m with
  | nil => rfl
  | cons r rs ih =>
    refine (ih _).trans ?_
    rw [h.put]
    cases hr : pick r with
    | none => rw [List.filterMap_cons_none hr, Option.map_none, Option.getD_none]
    | some e => rw [List.filterMap_cons_some hr, List.foldl_cons, Option.map_some, Option.getD_some]

/-- The keys of what is picked differ where the ids do. -/
theorem nodup (h : Holds get pick) (hids : (rs.map Record.id).Nodup) : ((rs.filterMap pick).map (·.1)).Nodup :=
  hids.sublist (Table.keys_filterMap_sublist h.id rs)

/-- What an empty module has after records with different ids were put into it. -/
theorem entries (h : Holds get pick) (hids : (rs.map Record.id).Nodup) (name : String) :
    (get ((Module.empty name).putAll rs)).entries = rs.filterMap pick := by
  rw [h.putAll, h.empty]
  exact Table.entries_foldl_insert (h.nodup hids)

/-- So do the keys of the table. -/
theorem keys (h : Holds get pick) (hids : (rs.map Record.id).Nodup) (name : String) :
    (get ((Module.empty name).putAll rs)).keys.Nodup := by
  rw [Table.keys, h.entries hids]
  exact h.nodup hids

/-- The order of records does not matter for what the table has. -/
theorem perm (h : Holds get pick) (hids : (rs.map Record.id).Nodup) (hperm : rs.Perm rs') (name : String) :
    (get ((Module.empty name).putAll rs)).entries.Perm (get ((Module.empty name).putAll rs')).entries := by
  rw [h.entries hids, h.entries ((hperm.map _).nodup_iff.1 hids)]
  exact hperm.filterMap _

end Holds

/-- The functions of a name are those that were put under it. -/
theorem funcsNamed_putAll {rs : List Record} (hids : (rs.map Record.id).Nodup) (moduleName : String) (outer : ItemId)
    (name : Name) : ((empty moduleName).putAll rs).funcsNamed outer name =
      ((rs.filterMap Record.func?).filter fun e => isNamed outer name e.1).map (·.2) := by
  have hentries := holds_funcs.entries hids moduleName
  have hkeys := holds_funcs.keys hids moduleName
  have hfind : ∀ e ∈ rs.filterMap Record.func?, ((empty moduleName).putAll rs).funcs.find? e.1 = some e.2 := by
    intro e he
    rw [← hentries] at he
    exact (Table.mem_entries_iff hkeys).1 he
  rw [funcsNamed, listed_putAll, empty, Table.find?_empty, Option.getD_none, List.nil_append, List.filter_map,
    List.filterMap_map]
  rw [← List.filterMap_eq_map]
  refine List.filterMap_congr fun e he => ?_
  exact hfind e (List.mem_of_mem_filter he)

/-- The modules have the same records, each under an id of its own, and differ at most in their order. -/
structure Alike (m m' : Module) : Prop where
  name : m'.name = m.name
  types : m.types.entries.Perm m'.types.entries
  funcs : m.funcs.entries.Perm m'.funcs.entries
  vars : m.vars.entries.Perm m'.vars.entries
  typeIds : m.types.keys.Nodup
  funcIds : m.funcs.keys.Nodup
  varIds : m.vars.keys.Nodup
  named : ∀ outer name, (m.funcsNamed outer name).Perm (m'.funcsNamed outer name)

/-- In which order records with different ids are put into a module does not matter. -/
theorem alike_putAll {rs rs' : List Record} (hids : (rs.map Record.id).Nodup) (h : rs.Perm rs') (name : String) :
    ((empty name).putAll rs).Alike ((empty name).putAll rs') where
  name := by simp
  types := holds_types.perm hids h name
  funcs := holds_funcs.perm hids h name
  vars := holds_vars.perm hids h name
  typeIds := holds_types.keys hids name
  funcIds := holds_funcs.keys hids name
  varIds := holds_vars.keys hids name
  named outer n := by
    rw [funcsNamed_putAll hids, funcsNamed_putAll ((h.map _).nodup_iff.1 hids)]
    exact ((h.filterMap _).filter _).map _

/-- What a base leads to depends only on the bases found. -/
theorem leadsTo_congr {bases bases' : Table ItemId ItemId} (h : ∀ id, bases'.find? id = bases.find? id) (start : ItemId) :
    ∀ n current, leadsTo bases' start n current = leadsTo bases start n current
  | 0, _ => rfl
  | _ + 1, none => rfl
  | n + 1, some id => by rw [leadsTo, leadsTo, h, leadsTo_congr h start n]

namespace Alike

variable {m m' : Module}

/-- The modules have the same root. -/
theorem root (h : m.Alike m') : m'.root = m.root := by rw [Module.root, Module.root, h.name]

/-- The same types are found. -/
theorem type? (h : m.Alike m') (id : ItemId) : m'.types.find? id = m.types.find? id := Table.findIn_perm h.types h.typeIds id

/-- The same functions are found. -/
theorem func? (h : m.Alike m') (id : ItemId) : m'.funcs.find? id = m.funcs.find? id := Table.findIn_perm h.funcs h.funcIds id

/-- The same variables are found. -/
theorem var? (h : m.Alike m') (id : ItemId) : m'.vars.find? id = m.vars.find? id := Table.findIn_perm h.vars h.varIds id

/-- The same types are derived from themselves. -/
theorem cyclicTypes (h : m.Alike m') : m.cyclicTypes.Perm m'.cyclicTypes := by
  have hids : m.baseIds.Perm m'.baseIds := h.types.filterMap _
  have hfind : ∀ id, m'.bases.find? id = m.bases.find? id := by
    intro id
    rw [find?_bases h.typeIds, find?_bases ((h.types.map _).nodup_iff.1 h.typeIds), h.type?]
  have hsize : m'.bases.size = m.bases.size := hids.length_eq.symm
  have hleads : (fun id => leadsTo m'.bases id m'.bases.size (m'.bases.find? id)) =
      fun id => leadsTo m.bases id m.bases.size (m.bases.find? id) := by
    funext id
    rw [hsize, hfind, leadsTo_congr hfind]
  have hkeys : m.bases.keys.Perm m'.bases.keys := hids.map _
  change (m.bases.keys.filter _).Perm (m'.bases.keys.filter fun id => leadsTo m'.bases id m'.bases.size (m'.bases.find? id))
  rw [hleads]
  exact hkeys.filter _

/-- What is looked up in the modules together with others is alike. -/
theorem registry (h : m.Alike m') (refs : Registry) : Registry.Alike (fun _ _ => True) (m :: refs) (m' :: refs) := by
  have hmembers : ∀ outer name,
      (Registry.memberFuncs (m :: refs) outer name).Perm (Registry.memberFuncs (m' :: refs) outer name) :=
    fun outer name => (h.named outer name).append_right _
  exact {
    reasons := fun _ => trivial
    type? := fun id => by rw [Registry.type?, Registry.type?, List.findSome?_cons, List.findSome?_cons, h.type?]
    func? := fun id => by rw [Registry.func?, Registry.func?, List.findSome?_cons, List.findSome?_cons, h.func?]
    var? := fun id => by rw [Registry.var?, Registry.var?, List.findSome?_cons, List.findSome?_cons, h.var?]
    weight := by
      have hcomm : LeftCommutative fun (r : TypeRecord) (n : Nat) => (r.base.map Ty.size).getD 0 + n := ⟨by intros; omega⟩
      exact (((h.types.map _).append_right _).foldr_eq 0).symm
    members := fun outer name => by rw [← List.length_eq_zero_iff, ← List.length_eq_zero_iff, (hmembers outer name).length_eq]
    pick := fun outer name count => pickByArity_perm (hmembers outer name) count
    globalTypes := fun name arity => by
      rw [Registry.globalTypes, Registry.globalTypes, List.filterMap_cons, List.filterMap_cons, h.root, h.type?]
    globalFuncs := fun name => by
      rw [Registry.globalFuncs, Registry.globalFuncs, List.flatMap_cons, List.flatMap_cons, h.root]
      exact (h.named _ name).append_right _
    globalVars := fun name => by
      rw [Registry.globalVars, Registry.globalVars, List.filterMap_cons, List.filterMap_cons, h.root, h.var?] }

end Alike

end Module

end ScriptCheck
