import ScriptCheck.Proofs.DeclaredIds
import ScriptCheck.Proofs.QuietStmts

/-!
# The records of a script's functions

A script in which no declaration is reported twice has functions with different ids, so the record that is kept under the id
of a function is the one that was made for it. `Script.funcs` lists the functions of a script, each with the id of the
declaration around it. What is put into the script's module on the way is said once (`Module.Grows`), so that what holds of the
finished module can be shown record by record.
-/

namespace ScriptCheck

mutual

/-- The functions of a type that is declared under `outer`. -/
def TypeDecl.funcs (outer : ItemId) : TypeDecl → List (ItemId × FuncDecl)
  | .mk _ _ name typeParams _ members => Member.funcsOfList (outer.child (.text name) typeParams.length) members

/-- The functions among several members. -/
def Member.funcsOfList (id : ItemId) : List Member → List (ItemId × FuncDecl)
  | [] => []
  | m :: ms => m.funcs id ++ Member.funcsOfList id ms

/-- The functions of a member. -/
def Member.funcs (id : ItemId) : Member → List (ItemId × FuncDecl)
  | .type decl => decl.funcs id
  | .func decl => [(id, decl)]
  | .field _ => []
  | .case _ => []

end

/-- The functions of a declaration or statement at the top level. -/
def Element.funcs (root : ItemId) : Element → List (ItemId × FuncDecl)
  | .type decl => decl.funcs root
  | .func decl => [(root, decl)]
  | .stmt _ => []

/-- The functions of a script whose module has this root. -/
def Script.funcs (root : ItemId) : Script → List (ItemId × FuncDecl)
  | [] => []
  | e :: rest => e.funcs root ++ Script.funcs root rest

/-- The functions of declarations. -/
def funcLists : DeclLists (ItemId × FuncDecl) where
  func outer _ decl := [(outer, decl)]
  type outer _ := TypeDecl.funcs outer
  members id _ := Member.funcsOfList id
  member id _ := Member.funcs id

/-- The functions of a declaration are those of its sites. -/
theorem funcs_related : funcLists.Related funcSiteLists (fun _ _ ds fs => ds = fs.map fun f => (f.outer, f.decl)) where
  nil _ _ := rfl
  append h h' := by rw [h, h', List.map_append]
  func _ _ _ := rfl
  field _ _ _ := rfl
  case _ _ _ := rfl
  stmt _ _ _ := rfl
  type h := h

/-- The functions are those whose bodies are analysed, in the same order. -/
theorem Script.funcs_eq (root : ItemId) (around : List DeclScope) (script : Script) :
    script.funcs root = (script.funcSites root around).map fun f => (f.outer, f.decl) :=
  funcs_related.of_script root around {} {} script

/-- The ids of functions. -/
def funcIds (ds : List (ItemId × FuncDecl)) : List ItemId := ds.map fun d => d.2.idUnder d.1

@[simp] theorem funcIds_nil : funcIds [] = [] := rfl

@[simp] theorem funcIds_append (ds es : List (ItemId × FuncDecl)) : funcIds (ds ++ es) = funcIds ds ++ funcIds es :=
  List.map_append

/-! ### The ids of the functions -/

/-- Functions are among what is declared. -/
theorem funcIds_related : funcLists.Related declaredLists (fun _ _ ds es => (funcIds ds).Sublist (es.map (·.1))) where
  nil _ _ := .slnil
  append h h' := by
    rw [funcIds_append, List.map_append]
    exact h.append h'
  func _ _ _ := .refl _
  field _ _ _ := List.nil_sublist _
  case _ _ _ := .slnil
  stmt _ _ _ := .slnil
  type h := h.cons _

/-- Where no declaration was reported twice, the functions of a script have different ids. -/
theorem Script.funcs_nodup {root : ItemId} {script : Script} (h : (script.collect root).diagnostics = []) :
    (funcIds (script.funcs root)).Nodup :=
  ((collect_silent_iff root script).1 h).2.sublist (funcIds_related.of_script root [] {} {} script)

/-! ### Making the records -/

/-- The record is made of this function. -/
structure FuncRecord.IsOf (r : FuncRecord) (d : ItemId × FuncDecl) : Prop where
  id : r.id = d.2.idUnder d.1
  params : r.params.length = d.2.params.length
  typeParams : r.typeParams = d.2.typeParams.map .text
  isSequence : r.isSequence = d.2.isSequence

/-- Records that passed their checks were put into `m`, among them those of these functions, in this order, and of no others.
What types are derived from are declared types. -/
inductive Module.Grows (m : Module) : List (ItemId × FuncDecl) → Module → Prop where
  | refl : m.Grows [] m
  | type {ds : List (ItemId × FuncDecl)} {m' : Module} {r : TypeRecord} (h : m.Grows ds m')
      (hr : r.id.arity = r.typeParams.length) (hm : r.id.moduleName = m'.name) (hbase : ∀ b, r.base = some b → b.param? = none) :
      m.Grows ds (m'.putType r)
  | func {ds : List (ItemId × FuncDecl)} {d : ItemId × FuncDecl} {m' : Module} {r : FuncRecord} (h : m.Grows ds m')
      (hr : r.id.arity = r.typeParams.length) (hm : r.id.moduleName = m'.name) (hd : r.IsOf d) :
      m.Grows (ds ++ [d]) (m'.putFunc r)
  | var {ds : List (ItemId × FuncDecl)} {m' : Module} {r : VarRecord} (h : m.Grows ds m') (hr : r.id.arity = 0)
      (hm : r.id.moduleName = m'.name) : m.Grows ds (m'.putVar r)

/-- From `m` to `m'` the records of these functions were added, and no other. -/
structure Module.Declares (ds : List (ItemId × FuncDecl)) (m m' : Module) : Prop where
  other : ∀ id, id ∉ funcIds ds → m'.funcs.find? id = m.funcs.find? id
  made : (funcIds ds).Nodup → ∀ d ∈ ds, ∃ r, m'.funcs.find? (d.2.idUnder d.1) = some r ∧ r.IsOf d

namespace Module.Declares

variable {ds es : List (ItemId × FuncDecl)} {m m' m'' : Module}

/-- A function that is put is declared. -/
theorem putFunc {d : ItemId × FuncDecl} {r : FuncRecord} (hr : r.IsOf d) : Declares [d] m (m.putFunc r) where
  other := by
    intro id hid
    have hne : ¬r.id = id := fun he => hid (by simp [funcIds, ← he, hr.id])
    simp [Module.putFunc, hne]
  made := by
    intro _ d' hd
    rw [List.mem_singleton.1 hd]
    exact ⟨r, by simp [Module.putFunc, hr.id], hr⟩

/-- Declarations add up. -/
theorem trans (h : Declares ds m m') (h' : Declares es m' m'') : Declares (ds ++ es) m m'' where
  other := by
    intro id hid
    rw [funcIds_append, List.mem_append, not_or] at hid
    rw [h'.other id hid.2, h.other id hid.1]
  made := by
    intro hn d hd
    rw [funcIds_append, List.nodup_append] at hn
    rcases List.mem_append.1 hd with hd | hd
    · obtain ⟨r, hr, hlike⟩ := h.made hn.1 d hd
      have hmem : d.2.idUnder d.1 ∈ funcIds ds := List.mem_map.2 ⟨d, hd, rfl⟩
      exact ⟨r, (h'.other _ fun he => hn.2.2 _ hmem _ he rfl).trans hr, hlike⟩
    · exact h'.made hn.2.1 d hd

end Module.Declares

namespace Module.Grows

variable {ds es : List (ItemId × FuncDecl)} {m m' m'' : Module}

theorem trans (h : m.Grows ds m') (h' : m'.Grows es m'') : m.Grows (ds ++ es) m'' := by
  induction h' with
  | refl => rwa [List.append_nil]
  | type _ hr hm hbase ih => exact ih.type hr hm hbase
  | func _ hr hm hd ih =>
    rw [← List.append_assoc]
    exact ih.func hr hm hd
  | var _ hr hm ih => exact ih.var hr hm

theorem declares (h : m.Grows ds m') : Declares ds m m' := by
  induction h with
  | refl => exact ⟨fun _ _ => rfl, fun _ d hd => absurd hd List.not_mem_nil⟩
  | type _ _ _ _ ih => exact ⟨ih.other, ih.made⟩
  | func _ _ _ hd ih => exact ih.trans (.putFunc hd)
  | var _ _ _ ih => exact ⟨ih.other, ih.made⟩

end Module.Grows

namespace Check

variable {ctx : Context} {s s' : State} {m m' : Module} {outer : ItemId}

/-- There is a record for each parameter. -/
theorem paramRecords_length : ∀ {params : List FuncParam} {records : List ParamRecord} {s s' : State},
    paramRecords ctx params s = .ok (records, s') → records.length = params.length
  | [], records, s, s', h => by
    rw [paramRecords] at h
    rw [← (pure_eq_ok.1 h).1]
    rfl
  | p :: ps, records, s, s', h => by
    simp only [paramRecords, bind_eq_ok, pure_eq_ok] at h
    obtain ⟨ty, u, -, rest, v, h₂, rfl, rfl⟩ := h
    simp [paramRecords_length h₂]

/-- The base of a type that is declared is a declared type. -/
theorem declaredBase_derives {written : Option TypeExpr} {base : Option Ty} (h : declaredBase ctx written s = .ok (base, s')) :
    ∀ b, base = some b → b.param? = none := by
  cases written with
  | none =>
    obtain ⟨rfl, -⟩ := pure_eq_ok.1 h
    intro b hb
    cases hb
  | some written =>
    obtain ⟨ty, u, -, h⟩ := bind_eq_ok.1 h
    have hreject : ∀ {x : Check Unit}, (do x; return none : Check (Option Ty)) u = .ok (base, s') → base = none := by
      intro x h
      obtain ⟨_, _, -, h⟩ := bind_eq_ok.1 h
      exact (pure_eq_ok.1 h).1.symm
    intro b hb
    subst hb
    cases ty with
    | nominal id levels =>
      simp only at h
      split at h
      · obtain ⟨hb, -⟩ := pure_eq_ok.1 h
        cases hb
        rfl
      · cases hreject h
    | unresolved => cases (pure_eq_ok.1 h).1
    | _ => cases hreject h

/-- A function is added. -/
theorem declareFunc_grows {decl : FuncDecl} {isStatic : Bool} (h : declareFunc ctx outer decl isStatic m s = .ok (m', s')) :
    m.Grows [(outer, decl)] m' := by
  obtain ⟨params, ret, u, hparams, -, harity, hname, rfl⟩ := declareFunc_run h
  exact Module.Grows.refl.func harity hname ⟨rfl, paramRecords_length hparams, rfl, rfl⟩

/-- So are the functions of a type and its members, and of a script. -/
theorem growsWalk : DeclWalk funcLists (fun _ ds a b => a.1.Grows ds b.1) where
  refl _ _ := .refl
  trans := .trans
  func_run := declareFunc_grows
  field_run h := by
    obtain ⟨ty, -, harity, hname, hb⟩ := declareField_run h
    exact hb ▸ Module.Grows.refl.var harity hname
  case_run _ _ _ _ := .refl
  stmt_run _ _ _ := .refl
  type_run hbase hmembers harity hname := hmembers.type harity hname (declaredBase_derives hbase)

/-- What a script adds to its module. -/
theorem declareElements_grows {script : Script} (h : declareElements ctx script m s = .ok (m', s')) :
    m.Grows (script.funcs ctx.root) m' :=
  growsWalk.script_keeps (a := (m, s)) {} h

end Check

section Analysis

variable {setup : Setup} {script : Script} {m : Module} {s : State} {d : ItemId × FuncDecl} {r : FuncRecord} {reg : Registry}

theorem Analysed.func_made (h : Analysed setup script m s) (hs : s.diagnostics = [])
    (hd : d ∈ script.funcs (.root setup.moduleName)) (hr : Registry.func? (m :: reg) (d.2.idUnder d.1) = some r) :
    r.params.length = d.2.params.length ∧ r.typeParams = d.2.typeParams.map .text := by
  obtain ⟨u, hdecl, -⟩ := Check.Quiet.script ⟨h.run, hs⟩
  obtain ⟨r', hr', hlike⟩ := (Check.declareElements_grows hdecl.run).declares.made (Script.funcs_nodup h.collected) d hd
  simp only [Registry.func?, List.findSome?_cons, hr', Option.some.injEq] at hr
  exact hr ▸ ⟨hlike.params, hlike.typeParams⟩

/-- The record that is found for a function of the script has as many parameters as the function. -/
theorem Analysed.func_record (h : Analysed setup script m s) (hs : s.diagnostics = [])
    (hd : d ∈ script.funcs (.root setup.moduleName)) (hr : Registry.func? (m :: reg) (d.2.idUnder d.1) = some r) :
    r.params.length = d.2.params.length := (h.func_made hs hd hr).1

/-- The record that is found for a function of the script has the type parameters of the function. -/
theorem Analysed.func_typeParams (h : Analysed setup script m s) (hs : s.diagnostics = [])
    (hd : d ∈ script.funcs (.root setup.moduleName)) (hr : Registry.func? (m :: reg) (d.2.idUnder d.1) = some r) :
    r.typeParams = d.2.typeParams.map .text := (h.func_made hs hd hr).2

end Analysis

end ScriptCheck
