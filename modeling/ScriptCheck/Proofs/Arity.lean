import ScriptCheck.Proofs.Inherited

/-!
# Arguments that fit

A type is well formed when every declared type in it, at any depth, has one level of arguments per segment of its id, each as
long as the segment says. A module is consistent when each record stands under its own id and names as many type parameters as
the id says; modules are put together from checked records, so they all are. Look-ups in consistent modules whose types are
well formed never end in a fault, and the functions and variables they find have records and fitting arguments.
-/

namespace ScriptCheck

/-! ### Well-formed types -/

/-- The levels of a declared type fit its id. -/
def Ty.HeadFits : Ty → Prop
  | .nominal id levels => Levels.fits levels id = true
  | _ => True

/-- Every declared type that occurs in the type has the arguments that its id asks for. -/
def Ty.WellFormed (t : Ty) : Prop := ∀ p ∈ t.parts, p.HeadFits

instance : DecidablePred Ty.HeadFits
  | .nominal id levels => inferInstanceAs (Decidable (Levels.fits levels id = true))
  | .void | .unresolved | .func _ _ | .param _ => inferInstanceAs (Decidable True)

instance (t : Ty) : Decidable t.WellFormed := inferInstanceAs (Decidable (∀ p ∈ t.parts, _))

namespace Ty

@[simp] theorem wellFormed_void : Ty.void.WellFormed := by simp [WellFormed, parts, HeadFits]

@[simp] theorem wellFormed_unresolved : Ty.unresolved.WellFormed := by simp [WellFormed, parts, HeadFits]

@[simp] theorem wellFormed_param (ref : ParamRef) : (Ty.param ref).WellFormed := by simp [WellFormed, parts, HeadFits]

/-- A type is well-formed if its arguments fit and are. -/
theorem wellFormed_nominal {id : ItemId} {levels : Levels} :
    (Ty.nominal id levels).WellFormed ↔ levels.fits id = true ∧ ∀ t ∈ levels.flatten, t.WellFormed := by
  simp only [WellFormed, parts, List.mem_cons, mem_partsOfLevels, List.mem_flatten]
  constructor
  · intro h
    refine ⟨h _ (.inl rfl), fun t hm p hp => ?_⟩
    obtain ⟨l, hl, ht⟩ := hm
    exact h p (.inr ⟨l, hl, t, ht, hp⟩)
  · rintro ⟨h, hs⟩ p (rfl | ⟨l, hl, t, ht, hp⟩)
    · exact h
    · exact hs t ⟨l, hl, ht⟩ p hp

/-- A function type is well-formed if all its types are. -/
theorem wellFormed_func {ret : Ty} {params : List Ty} :
    (Ty.func ret params).WellFormed ↔ ret.WellFormed ∧ ∀ t ∈ params, t.WellFormed := by
  simp only [WellFormed, parts, List.mem_cons, List.mem_append, mem_partsOfList]
  constructor
  · intro h
    exact ⟨fun p hp => h p (.inr (.inl hp)), fun t ht p hp => h p (.inr (.inr ⟨t, ht, hp⟩))⟩
  · rintro ⟨hr, hs⟩ p (rfl | hp | ⟨t, ht, hp⟩)
    · trivial
    · exact hr p hp
    · exact hs t ht p hp

end Ty

instance : Ty.Inherited Ty.WellFormed where
  void := Ty.wellFormed_void
  param := Ty.wellFormed_param
  func := Ty.wellFormed_func
  args h := (Ty.wellFormed_nominal.1 h).2
  made hf hl := Ty.wellFormed_nominal.2 ⟨hf, hl⟩
  replaced h hlen hl := by
    have hf := (Ty.wellFormed_nominal.1 h).1
    simp only [Levels.fits, decide_eq_true_eq] at hf
    exact Ty.wellFormed_nominal.2 ⟨by simp [Levels.fits, hlen, hf], hl⟩

namespace Builtin

@[simp] theorem int_wellFormed : int.WellFormed := by decide

@[simp] theorem bool_wellFormed : bool.WellFormed := by decide

@[simp] theorem string_wellFormed : string.WellFormed := by decide

end Builtin

/-! ### The functions and variables that are mentioned somewhere -/

/-- The variables that a place mentions, each as its id and its levels of arguments. -/
def Storage.refs : Storage → List (ItemId × Levels)
  | .staticMember _ var => [(var.id, var.levels)]
  | _ => []

/-- The functions and variables that a target mentions. -/
def Target.refs : Target → List (ItemId × Levels)
  | .direct storage _ => storage.refs
  | .callBased _ _ getter setter _ _ => [(getter.id, getter.levels), (setter.id, setter.levels)]

/-- The functions and variables that a note mentions. -/
def NodeInfo.refs : NodeInfo → List (ItemId × Levels)
  | .storage place => place.refs
  | .func f => [(f.id, f.levels)]
  | .type _ => []
  | .call f _ => [(f.id, f.levels)]
  | .callValue => []
  | .indexer getter => [(getter.id, getter.levels)]
  | .assign target => target.refs
  | .step target operator _ => target.refs ++ [(operator.id, operator.levels)]
  | .lambda closure => closure.captures.flatMap fun c => c.storage.refs
  | .task closure => closure.captures.flatMap fun c => c.storage.refs
  | .varDecl place => place.refs
  | .isTest _ => []

/-- The functions and variables that are noted for a node. -/
def NodeData.refs (d : NodeData) : List (ItemId × Levels) := (d.info.map NodeInfo.refs).getD []

/-- Types and arguments that a note mentions are in order. -/
structure NodeInfo.WellFormed (info : NodeInfo) : Prop where
  types : ∀ t ∈ info.types, t.WellFormed
  refs : ∀ r ∈ info.refs, r.2.fits r.1 = true

/-- Types and arguments that a place mentions are in order. -/
structure Storage.WellFormed (storage : Storage) : Prop where
  types : ∀ t ∈ storage.types, t.WellFormed
  refs : ∀ r ∈ storage.refs, r.2.fits r.1 = true

/-! ### Ids and levels -/

@[simp] theorem ItemId.arity_child (id : ItemId) (n : Name) (k : Nat) : (id.child n k).arity = k := by
  simp [arity]

/-- An id is the child of the declaration around it with its own name. -/
theorem ItemId.eq_child {id outer : ItemId} {last : Segment} (ho : id.outer? = some outer) (hl : id.last? = some last) :
    id = outer.child last.name last.arity := by
  obtain ⟨name, path⟩ := id
  obtain ⟨around, rfl⟩ := List.getLast?_eq_some_iff.1 hl
  simp only [outer?, List.dropLast_concat] at ho
  split at ho
  · cases ho
  · cases ho
    rfl

/-- The way to a child is the way to the declaration around it, and the child. -/
theorem ItemId.enclosing_child (id : ItemId) (n : Name) (k : Nat) :
    (id.child n k).enclosing = id.enclosing ++ [id.child n k] := by
  simp only [enclosing, child_path, List.length_append, List.length_singleton, List.range_succ, List.map_append,
    List.map_cons, List.map_nil]
  congr 1
  · refine List.map_congr_left fun i hi => ?_
    rw [List.take_append_of_le_length (List.mem_range.1 hi)]
    rfl
  · rw [List.take_of_length_le (by simp)]
    rfl

/-- One more level of as many arguments as the child's segment says. -/
theorem Levels.fits_nest {levels : Levels} {id : ItemId} {args : List Ty} (h : levels.fits id = true) (n : Name) :
    (Levels.nest levels args).fits (id.child n args.length) = true := by
  simp only [Levels.fits, decide_eq_true_eq] at h ⊢
  simp [Levels.nest, h]

/-- A global type has one level. -/
theorem Levels.fits_root (name : String) (n : Name) (args : List Ty) :
    Levels.fits [args] ((ItemId.root name).child n args.length) = true := by
  simp [Levels.fits, ItemId.arities, ItemId.root]

/-! ### Consistent modules -/

/-- The modules that are put together by adding records that have passed their checks. -/
inductive Module.Built : Module → Prop where
  | empty (name : String) : Built (.empty name)
  | type {m m' : Module} {r r' : TypeRecord} (h : Built m) (hr : r.check = .ok r') (hm : m.addType r' = .ok m') : Built m'
  | func {m m' : Module} {r r' : FuncRecord} (h : Built m) (hr : r.check = .ok r') (hm : m.addFunc r' = .ok m') : Built m'
  | var {m m' : Module} {r r' : VarRecord} (h : Built m) (hr : r.check = .ok r') (hm : m.addVar r' = .ok m') : Built m'

/-- Records stand under their own ids and name as many type parameters as these say, and functions are listed under the
declaration around them and their name. -/
structure Module.Consistent (m : Module) : Prop where
  types : ∀ {id r}, m.types.find? id = some r → r.id = id ∧ r.typeParams.length = id.arity
  funcs : ∀ {id r}, m.funcs.find? id = some r → r.id = id ∧ r.typeParams.length = id.arity
  vars : ∀ {id r}, m.vars.find? id = some r → id.arity = 0
  index : ∀ {outer name ids}, m.funcIndex.find? (outer, name) = some ids → ∀ id ∈ ids, ∃ k, id = outer.child name k

/-- A record has as many parameters as its id says. -/
theorem checkParameterCount_eq_ok {id : ItemId} {count : Nat} {u : Unit} :
    checkParameterCount id count = .ok u ↔ id.arity = count := by
  unfold checkParameterCount
  split <;> simp_all

theorem TypeRecord.check_eq_ok {r r' : TypeRecord} : r.check = .ok r' ↔ r.id.arity = r.typeParams.length ∧ r = r' := by
  simp only [TypeRecord.check, Except.bind_eq_ok, checkParameterCount_eq_ok, Except.pure_eq_ok, exists_const]

theorem FuncRecord.check_eq_ok {r r' : FuncRecord} : r.check = .ok r' ↔ r.id.arity = r.typeParams.length ∧ r = r' := by
  simp only [FuncRecord.check, Except.bind_eq_ok, checkParameterCount_eq_ok, Except.pure_eq_ok, exists_const]

theorem VarRecord.check_eq_ok {r r' : VarRecord} : r.check = .ok r' ↔ r.id.arity = 0 ∧ r = r' := by
  simp only [VarRecord.check, Except.bind_eq_ok, checkParameterCount_eq_ok, Except.pure_eq_ok, exists_const]

namespace Module

variable {m m' : Module}

/-- A record belongs to the module of its id. -/
theorem checkHome_eq_ok {id : ItemId} {u : Unit} : m.checkHome id = .ok u ↔ id.moduleName = m.name := by
  unfold checkHome
  split <;> simp_all

theorem addType_eq_ok {r : TypeRecord} : m.addType r = .ok m' ↔ r.id.moduleName = m.name ∧ m.putType r = m' := by
  simp only [addType, Except.bind_eq_ok, checkHome_eq_ok, Except.pure_eq_ok, exists_const]

theorem addFunc_eq_ok {r : FuncRecord} : m.addFunc r = .ok m' ↔ r.id.moduleName = m.name ∧ m.putFunc r = m' := by
  simp only [addFunc, Except.bind_eq_ok, checkHome_eq_ok, Except.pure_eq_ok, exists_const]

theorem addVar_eq_ok {r : VarRecord} : m.addVar r = .ok m' ↔ r.id.moduleName = m.name ∧ m.putVar r = m' := by
  simp only [addVar, Except.bind_eq_ok, checkHome_eq_ok, Except.pure_eq_ok, exists_const]

namespace Consistent

theorem empty (name : String) : (Module.empty name).Consistent :=
  ⟨by simp [Module.empty], by simp [Module.empty], by simp [Module.empty], by simp [Module.empty]⟩

/-- A checked type keeps the module consistent. -/
theorem putType (h : m.Consistent) {r : TypeRecord} (hr : r.id.arity = r.typeParams.length) : (m.putType r).Consistent := by
  refine ⟨fun {id r'} hfind => ?_, h.funcs, h.vars, h.index⟩
  simp only [Module.putType, Table.find?_insert] at hfind
  split at hfind
  · rename_i hid
    cases hfind
    exact ⟨hid, hid ▸ hr.symm⟩
  · exact h.types hfind

/-- So does a checked variable. -/
theorem putVar (h : m.Consistent) {r : VarRecord} (hr : r.id.arity = 0) : (m.putVar r).Consistent := by
  refine ⟨h.types, h.funcs, fun {id r'} hfind => ?_, h.index⟩
  simp only [Module.putVar, Table.find?_insert] at hfind
  split at hfind
  · rename_i hid
    exact hid ▸ hr
  · exact h.vars hfind

/-- So does a checked function. -/
theorem putFunc (h : m.Consistent) {r : FuncRecord} (hr : r.id.arity = r.typeParams.length) : (m.putFunc r).Consistent := by
  refine ⟨h.types, fun {id r'} hfind => ?_, h.vars, fun {outer name ids} hfind id hid => ?_⟩
  · simp only [Module.putFunc, Table.find?_insert] at hfind
    split at hfind
    · rename_i hid
      cases hfind
      exact ⟨hid, hid ▸ hr.symm⟩
    · exact h.funcs hfind
  · simp only [Module.putFunc, Module.indexFunc] at hfind
    split at hfind
    · rename_i around last ho hl
      rw [Table.find?_insert] at hfind
      split at hfind
      · rename_i hkey
        obtain ⟨rfl, rfl⟩ := Prod.mk.inj hkey
        cases hfind
        rcases List.mem_append.1 hid with hid | hid
        · cases hold : m.funcIndex.find? (around, last.name) with
          | none => simp [hold] at hid
          | some ids =>
            rw [hold] at hid
            exact h.index hold id hid
        · rw [List.mem_singleton.1 hid]
          exact ⟨last.arity, ItemId.eq_child ho hl⟩
      · exact h.index hfind id hid
    · exact h.index hfind id hid

end Consistent

/-- What is put together from checked records is consistent. -/
theorem Built.consistent (h : m.Built) : m.Consistent := by
  induction h with
  | empty name => exact .empty name
  | type _ hr hm ih =>
    obtain ⟨harity, rfl⟩ := TypeRecord.check_eq_ok.1 hr
    obtain ⟨-, rfl⟩ := addType_eq_ok.1 hm
    exact ih.putType harity
  | func _ hr hm ih =>
    obtain ⟨harity, rfl⟩ := FuncRecord.check_eq_ok.1 hr
    obtain ⟨-, rfl⟩ := addFunc_eq_ok.1 hm
    exact ih.putFunc harity
  | var _ hr hm ih =>
    obtain ⟨harity, rfl⟩ := VarRecord.check_eq_ok.1 hr
    obtain ⟨-, rfl⟩ := addVar_eq_ok.1 hm
    exact ih.putVar harity

end Module

/-- The built-in module keeps the rules that others are checked against. -/
theorem Builtin.declarations_consistent : Builtin.declarations.Consistent := by
  have hempty := Module.Consistent.empty Builtin.moduleName
  refine .putFunc (.putType (.putVar (.putFunc (.putFunc (.putFunc (.putType (.putType (.putType (.putFunc (.putFunc
    (.putType hempty ?_) ?_) ?_) ?_) ?_) ?_) ?_) ?_) ?_) ?_) ?_) ?_ <;> decide

/-- The types that the built-in module mentions have the arguments that they need. -/
theorem Builtin.declarations_wellFormed : ∀ t ∈ Builtin.declarations.recordTypes, t.WellFormed := by decide +kernel

end ScriptCheck
