import ScriptCheck.Analysis.Script
import ScriptCheck.Proofs.Substitution

/-!
# Properties that types inherit

A property of types is inherited when it passes from a type to its parts and, where the outermost form is in order, from the
parts back to the type. Everything that computes types keeps such a property: replacing type parameters, matching, looking up
a declaration in modules whose records have it, climbing to a base, and finding out what a written type or an identifier means.
Two properties of this kind matter: that a type has no holes, and that declared types have the arguments that their ids ask
for.
-/

namespace ScriptCheck

/-- A property of types that passes from a type to its parts, and back to every type whose outermost form is in order: a
declared type is where its levels fit its id, and stays so while the levels keep their lengths. -/
class Ty.Composed (Q : Ty → Prop) : Prop where
  void : Q .void
  func {ret : Ty} {params : List Ty} : Q (.func ret params) ↔ Q ret ∧ ∀ t ∈ params, Q t
  args {id : ItemId} {levels : Levels} (h : Q (.nominal id levels)) : ∀ t ∈ levels.flatten, Q t
  made {id : ItemId} {levels : Levels} (hf : levels.fits id = true) (hl : ∀ t ∈ levels.flatten, Q t) : Q (.nominal id levels)
  replaced {id : ItemId} {levels levels' : Levels} (h : Q (.nominal id levels))
    (hlen : levels'.map List.length = levels.map List.length) (hl : ∀ t ∈ levels'.flatten, Q t) : Q (.nominal id levels')

/-- A property of this kind that every type parameter has. -/
class Ty.Inherited (Q : Ty → Prop) : Prop extends Ty.Composed Q where
  param (ref : ParamRef) : Q (.param ref)

/-! ### The types that are mentioned somewhere -/

/-- The types that a function with its arguments mentions. -/
def FuncRef.types (f : FuncRef) : List Ty := f.levels.flatten

/-- The types that a variable with its arguments mentions. -/
def VarRef.types (v : VarRef) : List Ty := v.levels.flatten

/-- The types of a signature. -/
def Signature.types (s : Signature) : List Ty := s.ret :: s.params

/-- The types that a place mentions. -/
def Storage.types : Storage → List Ty
  | .staticMember object var => (object.map (·.1)).toList ++ var.types
  | .instanceMember _ objectType _ => [objectType]
  | _ => []

/-- The types that a target mentions. -/
def Target.types : Target → List Ty
  | .direct storage ty => ty :: storage.types
  | .callBased _ objectType getter setter _ ty => objectType :: ty :: (getter.types ++ setter.types)

/-- The types that a capture mentions. -/
def CaptureInfo.types (c : CaptureInfo) : List Ty := c.ty :: c.storage.types

/-- The types that a note mentions. -/
def NodeInfo.types : NodeInfo → List Ty
  | .storage place => place.types
  | .func f => f.types
  | .type ty => [ty]
  | .call f _ => f.types
  | .callValue => []
  | .indexer getter => getter.types
  | .assign target => target.types
  | .step target operator _ => target.types ++ operator.types
  | .lambda closure => closure.captures.flatMap CaptureInfo.types
  | .task closure => closure.captures.flatMap CaptureInfo.types
  | .varDecl place => place.types
  | .isTest ty => [ty]

/-- The types that are noted for a node. -/
def NodeData.types (d : NodeData) : List Ty := d.ty.toList ++ (d.info.map NodeInfo.types).getD []

/-- The functions that a target refers to. -/
def Target.funcs : Target → List FuncRef
  | .direct _ _ => []
  | .callBased _ _ getter setter _ _ => [getter, setter]

/-- The functions that a note refers to. -/
def NodeInfo.funcs : NodeInfo → List FuncRef
  | .func f => [f]
  | .call f _ => [f]
  | .indexer getter => [getter]
  | .assign target => target.funcs
  | .step target operator _ => target.funcs ++ [operator]
  | _ => []

/-- The functions that are noted for a node. -/
def NodeData.funcs (d : NodeData) : List FuncRef := (d.info.map NodeInfo.funcs).getD []

/-- The types that a template mentions. -/
def Template.types (t : Template) : List Ty := t.seqElem.toList

/-- The types of a record. -/
def TypeRecord.types (r : TypeRecord) : List Ty := r.base.toList

/-- The types of a record. -/
def FuncRecord.types (r : FuncRecord) : List Ty := r.ret :: r.params.map (·.ty)

/-- The types of a record. -/
def VarRecord.types (r : VarRecord) : List Ty := [r.ty]

/-- The types of all records of a module. -/
def Module.recordTypes (m : Module) : List Ty :=
  m.types.values.flatMap TypeRecord.types ++ m.funcs.values.flatMap FuncRecord.types ++
    m.vars.values.flatMap VarRecord.types

/-- What the `return`s of a body are checked against, as far as it is known. -/
def ReturnMode.types : ReturnMode → List Ty
  | .fixed ty => [ty]
  | .inferred ty => ty.toList

/-- The types that the meaning of an identifier mentions. -/
def Meaning.types : Meaning → List Ty
  | .var storage ty declared => ty :: declared :: storage.types
  | .func f => f.types
  | .type ty => [ty]
  | .notFound => []
  | .ambiguous _ => []

/-- The types that a member mentions. -/
def MemberRef.types : MemberRef → List Ty
  | .var v => v.types
  | .func f => f.types

/-- All types that the records of the modules mention have the property. -/
def Registry.AllTypes (Q : Ty → Prop) (reg : Registry) : Prop := ∀ m ∈ reg, ∀ t ∈ m.recordTypes, Q t

/-- All types that a frame mentions have the property. -/
structure Frame.AllTypes (Q : Ty → Prop) (f : Frame) : Prop where
  locals : ∀ v ∈ f.locals, Q v.ty
  overrides : ∀ t ∈ f.overrides.values, Q t
  ret : ∀ t ∈ f.ret.types, Q t
  seqElem : ∀ t ∈ f.seqElem, Q t

/-- What may be mentioned in notes and templates. -/
structure Ledger where
  /-- The types that may be mentioned at a node. -/
  noted : Nat → Ty → Prop
  /-- The functions that may be referred to. -/
  bound : FuncRef → Prop
  /-- The types that templates may mention. -/
  kept : Ty → Prop

/-- Types with the property may be mentioned everywhere, and every function may be referred to. -/
def Ledger.all (Q : Ty → Prop) : Ledger := ⟨fun _ => Q, fun _ => True, Q⟩

/-- Every note mentions only what may be mentioned at its node. -/
def Ledger.Holds (L : Ledger) (nodes : NodeMap) : Prop :=
  ∀ e ∈ nodes.entries, (∀ t ∈ e.2.types, L.noted e.1 t) ∧ ∀ f ∈ e.2.funcs, L.bound f

/-- All types of variables have the property, and notes and templates mention only what they may. -/
structure State.Meets (Q : Ty → Prop) (L : Ledger) (s : State) : Prop where
  frame : s.frame.AllTypes Q
  globals : ∀ t ∈ s.globals.slots, Q t
  nodes : L.Holds s.nodes
  templates : ∀ t ∈ s.templates, ∀ ty ∈ t.types, L.kept ty

/-- All types of variables, notes and templates have the property. -/
structure State.AllTypes (Q : Ty → Prop) (s : State) : Prop where
  frame : s.frame.AllTypes Q
  globals : ∀ t ∈ s.globals.slots, Q t
  nodes : ∀ d ∈ s.nodes.values, ∀ t ∈ d.types, Q t
  templates : ∀ t ∈ s.templates, ∀ ty ∈ t.types, Q ty

/-! ### Tables -/

namespace Table

variable {κ ν : Type} [DecidableEq κ]
variable {k : κ} {v : ν} {t : Table κ ν}

/-- What is found is there. -/
theorem mem_of_findIn {l : List (κ × ν)} (h : findIn k l = some v) : (k, v) ∈ l := by
  induction l with
  | nil => cases h
  | cons e rest ih =>
    obtain ⟨k', v'⟩ := e
    rw [findIn] at h
    split at h
    · rename_i hk
      cases h
      simp [hk]
    · exact List.mem_cons_of_mem _ (ih h)

/-- What a table gives is one of its values. -/
theorem mem_values_of_find? (h : t.find? k = some v) : v ∈ t.values :=
  List.mem_map_of_mem (mem_of_findIn h)

/-- An entry is the one put in, or was there. -/
theorem mem_insertIn {l : List (κ × ν)} {e : κ × ν} (h : e ∈ insertIn k v l) : e = (k, v) ∨ e ∈ l := by
  induction l with
  | nil =>
    rw [insertIn, List.mem_singleton] at h
    exact .inl h
  | cons f rest ih =>
    obtain ⟨k', v'⟩ := f
    rw [insertIn] at h
    split at h
    · rcases List.mem_cons.1 h with h | h
      · exact .inl h
      · exact .inr (List.mem_cons_of_mem _ h)
    · rcases List.mem_cons.1 h with h | h
      · exact .inr (by simp [h])
      · rcases ih h with h | h
        · exact .inl h
        · exact .inr (List.mem_cons_of_mem _ h)

/-- A value is the one put in, or was there. -/
theorem mem_values_insert {v w : ν} (h : w ∈ (t.insert k v).values) : w = v ∨ w ∈ t.values := by
  obtain ⟨e, he, rfl⟩ := List.mem_map.1 h
  rcases mem_insertIn he with rfl | he
  · exact .inl rfl
  · exact .inr (List.mem_map_of_mem he)

/-- So it is where only a new key is put in. -/
theorem mem_values_insertNew {v w : ν} (h : w ∈ (t.insertNew k v).values) : w = v ∨ w ∈ t.values := by
  unfold insertNew at h
  split at h
  · exact .inr h
  · exact mem_values_insert h

omit [DecidableEq κ] in
/-- What is left was there. -/
theorem mem_values_filterKeys {keep : κ → Bool} {w : ν} (h : w ∈ (t.filterKeys keep).values) : w ∈ t.values := by
  obtain ⟨e, he, rfl⟩ := List.mem_map.1 h
  exact List.mem_map_of_mem (List.mem_filter.1 he).1

end Table

/-! ### Checked construction -/

/-- A declared type is made of levels that fit its id. -/
theorem Ty.make_eq_ok {id : ItemId} {levels : Levels} {t : Ty} :
    Ty.make id levels = .ok t ↔ levels.fits id = true ∧ t = .nominal id levels := by
  unfold Ty.make
  cases h : levels.fits id <;> simp [eq_comm]

/-- So is a function. -/
theorem FuncRef.make_eq_ok {id : ItemId} {levels : Levels} {f : FuncRef} :
    FuncRef.make id levels = .ok f ↔ levels.fits id = true ∧ f = ⟨id, levels⟩ := by
  unfold FuncRef.make
  cases h : levels.fits id <;> simp [eq_comm]

/-- So is a variable. -/
theorem VarRef.make_eq_ok {id : ItemId} {levels : Levels} {v : VarRef} :
    VarRef.make id levels = .ok v ↔ levels.fits id = true ∧ v = ⟨id, levels⟩ := by
  unfold VarRef.make
  cases h : levels.fits id <;> simp [eq_comm]

/-- A mapped result comes from one. -/
theorem Except.map_eq_ok {ε α β : Type} {f : α → β} {x : Except ε α} {b : β} : x.map f = .ok b ↔ ∃ a, x = .ok a ∧ f a = b := by
  cases x <;> simp [Except.map]

/-- A result of two steps comes from one of each. -/
theorem Except.bind_eq_ok {ε α β : Type} {x : Except ε α} {f : α → Except ε β} {b : β} :
    (x >>= f) = .ok b ↔ ∃ a, x = .ok a ∧ f a = .ok b := by
  cases x <;> simp [bind, Except.bind]

/-- A plain result is that result. -/
@[simp] theorem Except.pure_eq_ok {ε α : Type} {a b : α} : (pure a : Except ε α) = .ok b ↔ a = b := by
  simp [pure, Except.pure]

/-- Every answer of a list of look-ups is the answer of one of them. -/
theorem Except.mem_of_mapM_eq_ok {ε α β : Type} {f : α → Except ε β} {as : List α} {bs : List β} {b : β}
    (h : as.mapM f = .ok bs) (hb : b ∈ bs) : ∃ a ∈ as, f a = .ok b := by
  induction as generalizing bs with
  | nil =>
    cases h
    cases hb
  | cons a as ih =>
    simp only [List.mapM_cons, Except.bind_eq_ok] at h
    obtain ⟨c, hc, cs, hcs, hp⟩ := h
    cases hp
    rcases List.mem_cons.1 hb with rfl | hb
    · exact ⟨a, List.mem_cons_self, hc⟩
    · obtain ⟨a', ha', h'⟩ := ih hcs hb
      exact ⟨a', List.mem_cons_of_mem _ ha', h'⟩

/-! ### Replacing and matching -/

/-- Replacing keeps the number of types. -/
theorem Ty.length_substList (env : Env) (ts : List Ty) : (Ty.substList env ts).length = ts.length := by
  induction ts with
  | nil => rfl
  | cons t ts ih => rw [Ty.substList, List.length_cons, List.length_cons, ih]

/-- It keeps the lengths of levels. -/
theorem Ty.map_length_substLevels (env : Env) (ls : Levels) :
    (Ty.substLevels env ls).map List.length = ls.map List.length := by
  induction ls with
  | nil => rfl
  | cons l ls ih => rw [Ty.substLevels, List.map_cons, List.map_cons, ih, Ty.length_substList]

mutual

/-- Replacing parameters by types with the property keeps it. -/
theorem Ty.subst_inherits {Q : Ty → Prop} [Ty.Composed Q] {env : Env} (he : ∀ u ∈ env.values, Q u) :
    ∀ {t : Ty}, Q t → Q (t.subst env)
  | .void, h => h
  | .unresolved, h => h
  | .param ref, h => by
    rw [Ty.subst]
    cases hf : env.find? ref with
    | none => exact h
    | some t => exact he t (Table.mem_values_of_find? hf)
  | .nominal id levels, h =>
    Composed.replaced h (Ty.map_length_substLevels env levels) (Ty.substLevels_inherits he (Composed.args h))
  | .func ret params, h => by
    obtain ⟨hr, hp⟩ := Composed.func.1 h
    exact Composed.func.2 ⟨Ty.subst_inherits he hr, Ty.substList_inherits he hp⟩

/-- Replacing in several types keeps the property. -/
theorem Ty.substList_inherits {Q : Ty → Prop} [Ty.Composed Q] {env : Env} (he : ∀ u ∈ env.values, Q u) :
    ∀ {ts : List Ty}, (∀ t ∈ ts, Q t) → ∀ t ∈ Ty.substList env ts, Q t
  | [], h => h
  | t :: ts, h => by
    obtain ⟨ht, hs⟩ := List.forall_mem_cons.1 h
    exact List.forall_mem_cons.2 ⟨Ty.subst_inherits he ht, Ty.substList_inherits he hs⟩

/-- So does replacing in levels. -/
theorem Ty.substLevels_inherits {Q : Ty → Prop} [Ty.Composed Q] {env : Env} (he : ∀ u ∈ env.values, Q u) :
    ∀ {ls : List (List Ty)}, (∀ t ∈ ls.flatten, Q t) → ∀ t ∈ (Ty.substLevels env ls).flatten, Q t
  | [], h => h
  | l :: ls, h => by
    rw [List.flatten_cons, List.forall_mem_append] at h
    rw [Ty.substLevels, List.flatten_cons, List.forall_mem_append]
    exact ⟨Ty.substList_inherits he h.1, Ty.substLevels_inherits he h.2⟩

end

mutual

/-- Matching against a type with the property binds parameters to types with it. -/
theorem Ty.unify_inherits {Q : Ty → Prop} [Ty.Composed Q] (owner : ItemId) : ∀ (pattern : Ty) {actual : Ty} {env : Env},
    Q actual → (∀ u ∈ env.values, Q u) → ∀ u ∈ (Ty.unify owner pattern actual env).values, Q u
  | .void, actual, env, _, he => by cases actual <;> exact he
  | .unresolved, actual, env, _, he => by cases actual <;> exact he
  | .param ref, actual, env, ha, he => by
    cases actual with
    | unresolved => exact he
    | _ =>
      rw [Ty.unify]
      · split
        · intro u hu
          rcases Table.mem_values_insertNew hu with rfl | hu
          · exact ha
          · exact he u hu
        · exact he
      · simp
  | .nominal id levels, actual, env, ha, he => by
    cases actual with
    | nominal id' levels' =>
      rw [Ty.unify]
      split
      · exact Ty.unifyLevels_inherits owner levels (Composed.args ha) he
      · exact he
    | _ => exact he
  | .func ret params, actual, env, ha, he => by
    cases actual with
    | func ret' params' =>
      obtain ⟨hr, hp⟩ := Composed.func.1 ha
      rw [Ty.unify]
      split
      · exact Ty.unifyList_inherits owner params hp (Ty.unify_inherits owner ret hr he)
      · exact he
    | _ => exact he

/-- Matching several types binds to parts of the given ones. -/
theorem Ty.unifyList_inherits {Q : Ty → Prop} [Ty.Composed Q] (owner : ItemId) :
    ∀ (patterns : List Ty) {actuals : List Ty} {env : Env}, (∀ t ∈ actuals, Q t) → (∀ u ∈ env.values, Q u) →
      ∀ u ∈ (Ty.unifyList owner patterns actuals env).values, Q u
  | [], _, _, _, he => he
  | _ :: _, [], _, _, he => he
  | p :: ps, a :: as, env, ha, he => by
    obtain ⟨h, hs⟩ := List.forall_mem_cons.1 ha
    rw [Ty.unifyList]
    exact Ty.unifyList_inherits owner ps hs (Ty.unify_inherits owner p h he)

/-- So does matching levels. -/
theorem Ty.unifyLevels_inherits {Q : Ty → Prop} [Ty.Composed Q] (owner : ItemId) :
    ∀ (patterns : List (List Ty)) {actuals : List (List Ty)} {env : Env}, (∀ t ∈ actuals.flatten, Q t) →
      (∀ u ∈ env.values, Q u) → ∀ u ∈ (Ty.unifyLevels owner patterns actuals env).values, Q u
  | [], _, _, _, he => he
  | _ :: _, [], _, _, he => he
  | p :: ps, a :: as, env, ha, he => by
    rw [List.flatten_cons, List.forall_mem_append] at ha
    rw [Ty.unifyLevels]
    exact Ty.unifyLevels_inherits owner ps ha.2 (Ty.unifyList_inherits owner p ha.1 he)

end

section Property

variable {Q : Ty → Prop}
variable {levels : Levels}

/-- Levels with another one have the property. -/
theorem Levels.nest_inherits {args : List Ty} (hl : ∀ t ∈ levels.flatten, Q t) (ha : ∀ t ∈ args, Q t) :
    ∀ t ∈ (Levels.nest levels args).flatten, Q t := by
  simpa [Levels.nest, or_imp, forall_and] using ⟨by simpa using hl, ha⟩

/-- So have all levels but the last. -/
theorem Levels.dropLast_inherits (h : ∀ t ∈ levels.flatten, Q t) : ∀ t ∈ (List.dropLast levels).flatten, Q t := by
  intro t ht
  obtain ⟨l, hl, ht⟩ := List.mem_flatten.1 ht
  exact h t (List.mem_flatten.2 ⟨l, List.dropLast_subset _ hl, ht⟩)

/-- So has the last. -/
theorem Levels.own_inherits (h : ∀ t ∈ levels.flatten, Q t) : ∀ t ∈ levels.own, Q t := by
  intro t ht
  unfold Levels.own at ht
  cases hl : levels.getLast? with
  | none => simp [List.getLastD_eq_getLast?, hl] at ht
  | some l =>
    rw [List.getLastD_eq_getLast?, hl] at ht
    exact h t (List.mem_flatten.2 ⟨l, List.mem_of_getLast? hl, ht⟩)

variable [Ty.Composed Q]

/-- Replacing type parameters keeps the property. -/
theorem Ty.substitute_inherits {t : Ty} {env : Env} (ht : Q t) (he : ∀ u ∈ env.values, Q u) : Q (t.substitute env) := by
  rw [Ty.substitute_eq_subst]
  exact Ty.subst_inherits he ht

/-- The type arguments that are found for a function have the property where those of the call have it. -/
theorem FuncRef.inferFrom_inherits {f g : FuncRef} {params args : List Ty} (hf : ∀ t ∈ f.types, Q t)
    (ha : ∀ t ∈ args, Q t) (hg : f.inferFrom params args = .ok g) : ∀ t ∈ g.types, Q t := by
  obtain ⟨-, rfl⟩ := FuncRef.make_eq_ok.1 hg
  have henv : ∀ u ∈ (Ty.unifyList f.id params args .empty).values, Q u :=
    Ty.unifyList_inherits f.id params ha (by simp [Table.values, Table.empty])
  refine Levels.nest_inherits (Levels.dropLast_inherits hf) fun t ht => ?_
  obtain ⟨u, hu, rfl⟩ := List.mem_map.1 ht
  exact Ty.substitute_inherits (Levels.own_inherits hf u hu) henv

/-- The signature of a record mentions the record's types. -/
theorem FuncRecord.signature_inherits {r : FuncRecord} (h : ∀ t ∈ r.types, Q t) : ∀ t ∈ r.signature.types, Q t := by
  obtain ⟨hr, hp⟩ := List.forall_mem_cons.1 h
  refine List.forall_mem_cons.2 ⟨?_, hp⟩
  unfold FuncRecord.signature
  split
  · exact Ty.Composed.made rfl (by simpa using hr)
  · exact hr

end Property

/-! ### Records -/

namespace Module

variable {Q : Ty → Prop} {m : Module}

/-- The types of a module's records have a property exactly when those of each record do. -/
theorem forall_recordTypes : (∀ t ∈ m.recordTypes, Q t) ↔
    (∀ r ∈ m.types.values, ∀ t ∈ r.types, Q t) ∧ (∀ r ∈ m.funcs.values, ∀ t ∈ r.types, Q t) ∧
      ∀ r ∈ m.vars.values, ∀ t ∈ r.types, Q t := by
  simp only [recordTypes, List.forall_mem_append, List.forall_mem_flatMap, and_assoc]

/-- A type's record is put. -/
theorem recordTypes_putType {r : TypeRecord} (h : ∀ t ∈ m.recordTypes, Q t) (hr : ∀ t ∈ r.types, Q t) :
    ∀ t ∈ (m.putType r).recordTypes, Q t := by
  rw [forall_recordTypes] at h ⊢
  refine ⟨fun q hq => ?_, h.2⟩
  rcases Table.mem_values_insert hq with rfl | hq
  · exact hr
  · exact h.1 q hq

/-- A function's record is put. -/
theorem recordTypes_putFunc {r : FuncRecord} (h : ∀ t ∈ m.recordTypes, Q t) (hr : ∀ t ∈ r.types, Q t) :
    ∀ t ∈ (m.putFunc r).recordTypes, Q t := by
  rw [forall_recordTypes] at h ⊢
  refine ⟨h.1, fun q hq => ?_, h.2.2⟩
  rcases Table.mem_values_insert hq with rfl | hq
  · exact hr
  · exact h.2.1 q hq

/-- A variable's record is put. -/
theorem recordTypes_putVar {r : VarRecord} (h : ∀ t ∈ m.recordTypes, Q t) (hr : ∀ t ∈ r.types, Q t) :
    ∀ t ∈ (m.putVar r).recordTypes, Q t := by
  rw [forall_recordTypes] at h ⊢
  refine ⟨h.1, h.2.1, fun q hq => ?_⟩
  rcases Table.mem_values_insert hq with rfl | hq
  · exact hr
  · exact h.2.2 q hq

end Module

namespace Registry

variable {levels : Levels} {t : Ty} {f : FuncRef} {v : VarRef} {args : List Ty} {sig : Signature} {receiver : Ty}
  {explicit : List Ty}

/-- A record is given where there is one. -/
theorem funcRecord_eq_ok {reg : Registry} {id : ItemId} {r : FuncRecord} :
    reg.funcRecord id = .ok r ↔ reg.func? id = some r := by
  unfold funcRecord
  cases reg.func? id <;> simp

/-- The signature of a function is that of its record, with its arguments put in. -/
theorem funcType_eq_ok {reg : Registry} :
    reg.funcType f = .ok sig ↔ ∃ r, reg.func? f.id = some r ∧ sig = reg.applyFunc f r.signature := by
  unfold funcType funcRecord
  cases reg.func? f.id with
  | none => simp [bind, Except.bind]
  | some r => simp [bind, Except.bind, pure, Except.pure, eq_comm]

/-- The type of a variable is that of its record, with its arguments put in. -/
theorem varType_eq_ok {reg : Registry} :
    reg.varType v = .ok t ↔ ∃ r, reg.var? v.id = some r ∧ t = reg.applyIn v.id v.levels r.ty := by
  unfold varType
  cases reg.var? v.id with
  | none => simp
  | some r => simp [eq_comm]

/-- A method is a member function without explicit arguments. -/
theorem method?_eq_ok {_ : Patience} {reg : Registry} {name : Name}
    (hf : reg.method? receiver name = .ok (some f)) : reg.memberFunc receiver name [] = .ok (.ok f) := by
  unfold Registry.method? at hf
  obtain ⟨r, hr, hf⟩ := Except.bind_eq_ok.1 hf
  cases r with
  | error e => cases hf
  | ok g =>
    cases hf
    exact hr

variable {Q : Ty → Prop} {reg : Registry} {id : ItemId} {name : Name}

/-- One more module. -/
theorem AllTypes.cons {m : Module} (hm : ∀ t ∈ m.recordTypes, Q t) (h : reg.AllTypes Q) : Registry.AllTypes Q (m :: reg) := by
  intro m' hm'
  rcases List.mem_cons.1 hm' with rfl | hm'
  · exact hm
  · exact h m' hm'

namespace AllTypes

variable {r : VarRecord}

/-- The record of a type mentions such types. -/
theorem type? (h : reg.AllTypes Q) {r : TypeRecord} (hr : reg.type? id = some r) : ∀ t ∈ r.types, Q t := by
  obtain ⟨m, hm, hf⟩ := List.exists_of_findSome?_eq_some hr
  intro t ht
  refine h m hm t ?_
  simp only [Module.recordTypes, List.mem_append, List.mem_flatMap]
  exact .inl (.inl ⟨r, Table.mem_values_of_find? hf, ht⟩)

/-- So does that of a function. -/
theorem func? (h : reg.AllTypes Q) {r : FuncRecord} (hr : reg.func? id = some r) : ∀ t ∈ r.types, Q t := by
  obtain ⟨m, hm, hf⟩ := List.exists_of_findSome?_eq_some hr
  intro t ht
  refine h m hm t ?_
  simp only [Module.recordTypes, List.mem_append, List.mem_flatMap]
  exact .inl (.inr ⟨r, Table.mem_values_of_find? hf, ht⟩)

/-- A variable of a module has such a type. -/
theorem vars (h : reg.AllTypes Q) {m : Module} (hm : m ∈ reg) (hr : m.vars.find? id = some r) : Q r.ty := by
  refine h m hm r.ty ?_
  simp only [Module.recordTypes, List.mem_append, List.mem_flatMap]
  exact .inr ⟨r, Table.mem_values_of_find? hr, by simp [VarRecord.types]⟩

/-- So has one that is found. -/
theorem var? (h : reg.AllTypes Q) (hr : reg.var? id = some r) : Q r.ty := by
  obtain ⟨m, hm, hf⟩ := List.exists_of_findSome?_eq_some hr
  exact h.vars hm hf

/-- So has a global one. -/
theorem globalVars (h : reg.AllTypes Q) (hr : r ∈ reg.globalVars name) : Q r.ty := by
  obtain ⟨m, hm, hf⟩ := List.mem_filterMap.1 hr
  exact h.vars hm hf

end AllTypes

/-! ### Declarations seen through their arguments -/

/-- Binding the arguments of one level keeps the property. -/
theorem bindLevel_inherits {env : Env} {owner : ItemId} (he : ∀ u ∈ env.values, Q u)
    (ha : ∀ t ∈ args, Q t) : ∀ u ∈ (reg.bindLevel env owner args).values, Q u := by
  unfold bindLevel
  refine List.foldlRecOn (motive := fun env : Env => ∀ u ∈ env.values, Q u) _ _ he fun env he b hb u hu => ?_
  rcases Table.mem_values_insert hu with rfl | hu
  · exact ha _ (List.of_mem_zip hb).2
  · exact he u hu

/-- So does binding all levels. -/
theorem bindings_inherits (hl : ∀ t ∈ levels.flatten, Q t) : ∀ u ∈ (reg.bindings id levels).values, Q u := by
  unfold bindings
  refine List.foldlRecOn (motive := fun env : Env => ∀ u ∈ env.values, Q u) _ _
    (by simp [Table.values, Table.empty]) fun env he b hb => ?_
  exact bindLevel_inherits he fun t ht => hl t (List.mem_flatten.2 ⟨b.2, (List.of_mem_zip hb).2, ht⟩)

variable [Ty.Inherited Q]

/-- So does putting arguments into a type. -/
theorem applyIn_inherits (hl : ∀ t ∈ levels.flatten, Q t) (ht : Q t) :
    Q (reg.applyIn id levels t) := Ty.substitute_inherits ht (bindings_inherits hl)

/-- So does putting them into a signature. -/
theorem applyFunc_inherits (hf : ∀ t ∈ f.types, Q t) (hs : ∀ t ∈ sig.types, Q t) : ∀ t ∈ (reg.applyFunc f sig).types, Q t := by
  obtain ⟨hr, hp⟩ := List.forall_mem_cons.1 hs
  have he : ∀ u ∈ (reg.bindings f.id f.levels).values, Q u := bindings_inherits hf
  refine List.forall_mem_cons.2 ⟨Ty.substitute_inherits hr he, fun t ht => ?_⟩
  obtain ⟨u, hu, rfl⟩ := List.mem_map.1 ht
  exact Ty.substitute_inherits (hp u hu) he

/-- The signature of a function has the property. -/
theorem funcType_inherits (h : reg.AllTypes Q) (hf : ∀ t ∈ f.types, Q t)
    (hs : reg.funcType f = .ok sig) : ∀ t ∈ sig.types, Q t := by
  obtain ⟨r, hr, rfl⟩ := funcType_eq_ok.1 hs
  exact applyFunc_inherits hf (FuncRecord.signature_inherits (h.func? hr))

/-- So has the type of a variable. -/
theorem varType_inherits (h : reg.AllTypes Q) (hv : ∀ t ∈ v.types, Q t) (ht : reg.varType v = .ok t) : Q t := by
  obtain ⟨r, hr, rfl⟩ := varType_eq_ok.1 ht
  exact applyIn_inherits hv (h.var? hr)

/-! ### Bases and members -/

/-- So has a base. -/
theorem baseOf_inherits (h : reg.AllTypes Q) {t base : Ty} (ht : Q t) (hb : reg.baseOf t = some base) : Q base := by
  cases t with
  | nominal id levels =>
    simp only [baseOf, bind, Option.bind_eq_some_iff, pure, Option.some.injEq] at hb
    obtain ⟨r, hr, b, hrb, rfl⟩ := hb
    refine applyIn_inherits (Ty.Composed.args ht) (h.type? hr b ?_)
    simp [TypeRecord.types, hrb]
  | _ => cases hb

omit [Ty.Inherited Q] in
/-- What a climb finds it finds at a type with every property that the climb starts with and that bases of the types passed
over keep. -/
theorem climb_invariant {_ : Patience} {α : Type} {visit : Ty → Option α} {a : α}
    (hb : ∀ t base, Q t → visit t = none → reg.baseOf t = some base → Q base) (ht : Q t) (ha : reg.climb visit t = some a) :
    ∃ u, Q u ∧ visit u = some a := by
  unfold climb at ha
  generalize reg.reach t = limit at ha
  induction limit generalizing t with
  | zero =>
    rw [climbWithin] at ha
    cases hv : visit t with
    | some b =>
      simp only [hv] at ha
      exact ⟨t, ht, hv.trans ha⟩
    | none => simp [hv] at ha
  | succ limit ih =>
    rw [climbWithin] at ha
    cases hv : visit t with
    | some b =>
      simp only [hv] at ha
      exact ⟨t, ht, hv.trans ha⟩
    | none =>
      cases hbase : reg.baseOf t with
      | none => simp [hv, hbase] at ha
      | some base =>
        simp only [hv, hbase] at ha
        exact ih (hb t base ht hv hbase) ha

/-- Type parameters that stay open have it. -/
theorem openParams_inherits {r : FuncRecord} {given : Nat} {ts : List Ty} (h : r.openParams given = .ok ts) :
    ∀ t ∈ ts, Q t := by
  unfold FuncRecord.openParams at h
  split at h
  · cases h
    intro t ht
    obtain ⟨name, -, rfl⟩ := List.mem_map.1 ht
    exact Ty.Inherited.param _
  · cases h

/-- The function that is chosen among candidates has the written arguments on its own level and leaves the rest open. -/
theorem choose_eq_ok {candidates : List FuncRecord}
    (h : choose levels candidates explicit = .ok (.ok f)) :
    ∃ r rest, pickByArity candidates explicit.length = .ok (.ok r) ∧ r.openParams explicit.length = .ok rest ∧
      FuncRef.make r.id (Levels.nest levels (explicit ++ rest)) = .ok f := by
  unfold choose at h
  obtain ⟨picked, hp, h⟩ := Except.bind_eq_ok.1 h
  cases picked with
  | error e => cases h
  | ok r =>
    obtain ⟨rest, hrest, h⟩ := Except.bind_eq_ok.1 h
    obtain ⟨g, hg, h⟩ := Except.bind_eq_ok.1 h
    cases h
    exact ⟨r, rest, hp, hrest, hg⟩

omit [Ty.Inherited Q] in
/-- Only a declared type whose arguments fit is passed over on the way to its base. -/
theorem climb_passing {_ : Patience} {α : Type} {visit : Ty → Option α} {a : α}
    (hpass : ∀ id levels, visit (.nominal id levels) = none → Levels.fits levels id = true)
    (hb : ∀ id levels base, Q (.nominal id levels) → Levels.fits levels id = true →
      reg.baseOf (.nominal id levels) = some base → Q base)
    (ht : Q t) (ha : reg.climb visit t = some a) : ∃ u, Q u ∧ visit u = some a := by
  refine climb_invariant (fun t base ht hv hbase => ?_) ht ha
  cases t with
  | nominal id levels => exact hb id levels base ht (hpass id levels hv) hbase
  | _ => cases hbase

omit [Ty.Inherited Q] in
/-- A member function is chosen among those of the receiver or of one of its bases. -/
theorem memberFunc_eq_ok {_ : Patience}
    (hb : ∀ id levels base, Q (.nominal id levels) → Levels.fits levels id = true →
      reg.baseOf (.nominal id levels) = some base → Q base)
    (ht : Q receiver) (h : reg.memberFunc receiver name explicit = .ok (.ok f)) :
    ∃ id levels, Q (.nominal id levels) ∧ choose levels (reg.memberFuncs id name) explicit = .ok (.ok f) := by
  unfold memberFunc at h
  cases hc : reg.climb (reg.ownFunc name explicit) receiver with
  | none => simp [hc] at h
  | some r =>
    rw [hc, Option.getD_some] at h
    subst h
    have hpass : ∀ id levels, reg.ownFunc name explicit (.nominal id levels) = none → Levels.fits levels id = true := by
      intro id levels hv
      rw [ownFunc] at hv
      split at hv
      · simpa [passOver] using hv
      · cases hv
    obtain ⟨u, hu, hv⟩ := climb_passing hpass hb ht hc
    cases u with
    | nominal id levels =>
      rw [ownFunc] at hv
      split at hv
      · unfold passOver at hv
        split at hv <;> simp at hv
      · exact ⟨id, levels, hu, Option.some.inj hv⟩
    | _ => cases hv

omit [Ty.Inherited Q] in
/-- A member variable is one of the receiver or of one of its bases. -/
theorem memberVar_eq_ok {_ : Patience}
    (hb : ∀ id levels base, Q (.nominal id levels) → Levels.fits levels id = true →
      reg.baseOf (.nominal id levels) = some base → Q base)
    (ht : Q receiver) (h : reg.memberVar receiver name explicit = .ok (.ok v)) :
    ∃ id levels, Q (.nominal id levels) ∧ VarRef.make (id.child name 0) (Levels.nest levels []) = .ok v := by
  unfold memberVar at h
  split at h
  · cases hc : reg.climb (reg.ownVar name) receiver with
    | none => simp [hc] at h
    | some r =>
      rw [hc, Option.getD_some] at h
      subst h
      have hpass : ∀ id levels, reg.ownVar name (.nominal id levels) = none → Levels.fits levels id = true := by
        intro id levels hv
        rw [ownVar] at hv
        split at hv
        · simpa [passOver] using hv
        · cases hv
      obtain ⟨u, hu, hv⟩ := climb_passing hpass hb ht hc
      cases u with
      | nominal id levels =>
        rw [ownVar] at hv
        split at hv
        · unfold passOver at hv
          split at hv <;> simp at hv
        · rw [Option.some.injEq, Except.map_eq_ok] at hv
          obtain ⟨w, hw, hwv⟩ := hv
          cases hwv
          exact ⟨id, levels, hu, hw⟩
      | _ => cases hv
  · simp at h

omit [Ty.Inherited Q] in
/-- A member is a variable, or else a function. -/
theorem member_cases {_ : Patience} {found : MemberRef}
    (h : reg.member receiver name args = .ok (.ok found)) :
    (∃ v, found = .var v ∧ reg.memberVar receiver name [] = .ok (.ok v)) ∨
      ∃ f, found = .func f ∧ reg.memberFunc receiver name args = .ok (.ok f) := by
  unfold member at h
  obtain ⟨r, hr, h⟩ := Except.bind_eq_ok.1 h
  cases r with
  | ok v =>
    cases hn : args.isEmpty with
    | false => simp [hn] at h
    | true =>
      simp only [hn, if_true, Except.pure_eq_ok, Except.ok.injEq] at h
      exact .inl ⟨v, h.symm, hr⟩
  | error e =>
    obtain ⟨r, hr, h⟩ := Except.bind_eq_ok.1 h
    simp only [Except.pure_eq_ok, Except.map_eq_ok] at h
    obtain ⟨f, rfl, rfl⟩ := h
    exact .inr ⟨f, rfl, hr⟩

/-- So has the function that is chosen. -/
theorem choose_inherits {candidates : List FuncRecord} (hl : ∀ t ∈ levels.flatten, Q t) (he : ∀ t ∈ explicit, Q t)
    (hf : choose levels candidates explicit = .ok (.ok f)) : ∀ t ∈ f.types, Q t := by
  obtain ⟨r, rest, -, hrest, hg⟩ := choose_eq_ok hf
  obtain ⟨-, rfl⟩ := FuncRef.make_eq_ok.1 hg
  exact Levels.nest_inherits hl (List.forall_mem_append.2 ⟨he, openParams_inherits hrest⟩)

/-- So has a member function. -/
theorem memberFunc_inherits {_ : Patience} (h : reg.AllTypes Q)
    (ht : Q receiver) (he : ∀ t ∈ explicit, Q t) (hf : reg.memberFunc receiver name explicit = .ok (.ok f)) :
    ∀ t ∈ f.types, Q t := by
  obtain ⟨id, levels, hu, hf⟩ := memberFunc_eq_ok (fun _ _ _ ht _ => baseOf_inherits h ht) ht hf
  exact choose_inherits (Ty.Composed.args hu) he hf

/-- So has a member variable. -/
theorem memberVar_inherits {_ : Patience} (h : reg.AllTypes Q)
    (ht : Q receiver) (hv : reg.memberVar receiver name explicit = .ok (.ok v)) : ∀ t ∈ v.types, Q t := by
  obtain ⟨id, levels, hu, hv⟩ := memberVar_eq_ok (fun _ _ _ ht _ => baseOf_inherits h ht) ht hv
  obtain ⟨-, rfl⟩ := VarRef.make_eq_ok.1 hv
  exact Levels.nest_inherits (Ty.Composed.args hu) (by simp)

/-- So has a member of either kind. -/
theorem member_inherits {_ : Patience} (h : reg.AllTypes Q) {found : MemberRef} (ht : Q receiver)
    (ha : ∀ t ∈ args, Q t) (hf : reg.member receiver name args = .ok (.ok found)) : ∀ t ∈ found.types, Q t := by
  rcases member_cases hf with ⟨v, rfl, hvar⟩ | ⟨f, rfl, hfunc⟩
  · exact memberVar_inherits h ht hvar
  · exact memberFunc_inherits h ht ha hfunc

/-- So has a method. -/
theorem method?_inherits {_ : Patience} (h : reg.AllTypes Q) (ht : Q receiver)
    (hf : reg.method? receiver name = .ok (some f)) : ∀ t ∈ f.types, Q t :=
  memberFunc_inherits h ht (by simp) (method?_eq_ok hf)

end Registry

/-! ### What a name means -/

namespace Frame.AllTypes

variable {Q : Ty → Prop} {f : Frame}

/-- What is read from the frame has the property. -/
theorem read (hf : f.AllTypes Q) {storage : Storage} {declared : Ty} (hs : ∀ t ∈ storage.types, Q t) (hd : Q declared) :
    ∀ t ∈ (f.read storage declared).types, Q t := by
  refine List.forall_mem_cons.2 ⟨?_, List.forall_mem_cons.2 ⟨hd, hs⟩⟩
  unfold readType
  cases ho : f.overrides.find? storage with
  | none => exact hd
  | some t => exact hf.overrides t (Table.mem_values_of_find? ho)

/-- So has a variable that is found by name. -/
theorem lookup? (hf : f.AllTypes Q) {name : String} {slot : Nat} {ty : Ty} (h : f.lookup? name = some (slot, ty)) : Q ty := by
  simp only [Frame.lookup?, bind, Option.bind_eq_some_iff, pure, Option.some.injEq, Prod.mk.injEq] at h
  obtain ⟨n, -, v, hv, -, rfl⟩ := h
  exact hf.locals v (List.mem_of_getElem? hv)

end Frame.AllTypes

namespace Context

variable {ctx : Context} {frame : Frame} {globals : PrivateGlobals} {name : String} {args : List Ty} {allowPartial : Bool}
  {meaning : Meaning}

/-- What an identifier means is a variable of the frame, a variable of the script, or what the modules say. -/
theorem lookup_cases (h : ctx.lookup frame globals name args allowPartial = .ok meaning) :
    (∃ slot declared, args = [] ∧ frame.lookup? name = some (slot, declared) ∧
      meaning = frame.read (.localSlot slot) declared) ∨
    (∃ slot declared, args = [] ∧ frame.lookup? name = none ∧ globals.lookup name = .ok (some (slot, declared)) ∧
      meaning = frame.read (.privateGlobal slot) declared) ∨
    ((args = [] → frame.lookup? name = none ∧ globals.lookup name = .ok none) ∧
      ctx.globalMeaning frame (.text name) args allowPartial = .ok meaning) := by
  unfold lookup at h
  cases args with
  | nil =>
    simp only [List.isEmpty_nil, if_true] at h
    obtain ⟨found, hfound, h⟩ := Except.bind_eq_ok.1 h
    have hlocal := Frame.lookup?_of_lookup hfound
    cases found with
    | some v =>
      cases h
      exact .inl ⟨v.1, v.2, rfl, hlocal, rfl⟩
    | none =>
      obtain ⟨found, hfound, h⟩ := Except.bind_eq_ok.1 h
      cases found with
      | some v =>
        cases h
        exact .inr (.inl ⟨v.1, v.2, rfl, hlocal, hfound, rfl⟩)
      | none => exact .inr (.inr ⟨fun _ => ⟨hlocal, hfound⟩, h⟩)
  | cons t ts => exact .inr (.inr ⟨fun h => (nomatch h), h⟩)

/-- What a name means to the modules is one of its meanings there, a function with type arguments left open, or nothing. -/
theorem globalMeaning_cases {name : Name} (h : ctx.globalMeaning frame name args allowPartial = .ok meaning) :
    (∃ ms, ctx.globalMeanings frame name args = .ok ms ∧ meaning ∈ ms) ∨
    (∃ r ∈ ctx.registry.globalFuncs name, ∃ rest f, r.openParams args.length = .ok rest ∧
      FuncRef.make r.id [args ++ rest] = .ok f ∧ meaning = .func f) ∨
    meaning = .notFound ∨ ∃ count, meaning = .ambiguous count := by
  unfold globalMeaning at h
  obtain ⟨ms, hms, h⟩ := Except.bind_eq_ok.1 h
  split at h
  · cases h
    exact .inl ⟨_, hms, List.mem_cons_self⟩
  · split at h
    · unfold partialMeaning at h
      split at h
      · cases h
        exact .inr (.inr (.inl rfl))
      · rename_i r hr
        obtain ⟨rest, hrest, h⟩ := Except.bind_eq_ok.1 h
        obtain ⟨f, hf, h⟩ := Except.bind_eq_ok.1 h
        cases h
        have hmem : r ∈ ctx.registry.globalFuncs name := by
          have hr : r ∈ (ctx.registry.globalFuncs name).filter fun r => args.length < r.typeParams.length := by simp [hr]
          exact (List.mem_filter.1 hr).1
        exact .inr (.inl ⟨r, hmem, rest, f, hrest, hf, rfl⟩)
      · cases h
        exact .inr (.inr (.inr ⟨_, rfl⟩))
    · cases h
      exact .inr (.inr (.inl rfl))
  · cases h
    exact .inr (.inr (.inr ⟨_, rfl⟩))

section Composed

variable {Q : Ty → Prop} [Ty.Composed Q] {t : Ty}

/-- A type found by a global name has the property. -/
theorem globalType_inherits (ha : ∀ t ∈ args, Q t) (ht : ctx.globalType name args = .ok (.ok t)) : Q t := by
  unfold globalType at ht
  split at ht
  · obtain ⟨u, hu, hut⟩ := Except.map_eq_ok.1 ht
    cases hut
    obtain ⟨hfit, rfl⟩ := Ty.make_eq_ok.1 hu
    exact Ty.Composed.made hfit (by simpa using ha)
  · split at ht
    · cases ht
      exact Ty.Composed.void
    · cases ht
  · cases ht

/-- So has a type in a type. -/
theorem memberType_inherits (ha : ∀ t ∈ args, Q t) {parent : Ty} (hp : Q parent)
    (ht : ctx.memberType parent name args = .ok (.ok t)) : Q t := by
  unfold memberType at ht
  split at ht
  · cases ht
    exact hp
  · dsimp only at ht
    split at ht
    · obtain ⟨u, hu, hut⟩ := Except.map_eq_ok.1 ht
      cases hut
      obtain ⟨hfit, rfl⟩ := Ty.make_eq_ok.1 hu
      exact Ty.Composed.made hfit (Levels.nest_inherits (Ty.Composed.args hp) ha)
    · cases ht
  · cases ht

end Composed

variable {Q : Ty → Prop} [Ty.Inherited Q]

/-- What a global name may mean mentions such types. -/
theorem globalMeanings_inherits (h : ctx.registry.AllTypes Q) (hf : frame.AllTypes Q) (ha : ∀ t ∈ args, Q t) {name : Name}
    {ms : List Meaning} (hms : ctx.globalMeanings frame name args = .ok ms) (hm : meaning ∈ ms) :
    ∀ t ∈ meaning.types, Q t := by
  simp only [globalMeanings, Except.bind_eq_ok, Except.pure_eq_ok] at hms
  obtain ⟨funcs, hfuncs, types, htypes, rfl⟩ := hms
  simp only [List.mem_append, List.mem_map] at hm
  rcases hm with (⟨r, hr, rfl⟩ | ⟨g, hg, rfl⟩) | ⟨t, ht, rfl⟩
  · split at hr
    · exact hf.read (by simp [Storage.types]) (h.globalVars hr)
    · cases hr
  · obtain ⟨r, -, hr⟩ := Except.mem_of_mapM_eq_ok hfuncs hg
    obtain ⟨-, rfl⟩ := FuncRef.make_eq_ok.1 hr
    simpa [Meaning.types, FuncRef.types] using ha
  · obtain ⟨id, -, hid⟩ := Except.mem_of_mapM_eq_ok htypes ht
    obtain ⟨hfit, rfl⟩ := Ty.make_eq_ok.1 hid
    simpa [Meaning.types] using Ty.Composed.made hfit (by simpa using ha)

/-- The types that the meaning of an identifier mentions have the property where those of frame, script and modules do. -/
theorem lookup_inherits (h : ctx.registry.AllTypes Q) (hf : frame.AllTypes Q) (hg : ∀ t ∈ globals.slots, Q t)
    (ha : ∀ t ∈ args, Q t) (hm : ctx.lookup frame globals name args allowPartial = .ok meaning) :
    ∀ t ∈ meaning.types, Q t := by
  rcases lookup_cases hm with ⟨slot, ty, -, hl, rfl⟩ | ⟨slot, ty, -, -, hl, rfl⟩ | ⟨-, hm⟩
  · exact hf.read (by simp [Storage.types]) (hf.lookup? hl)
  · exact hf.read (by simp [Storage.types]) (hg _ (List.mem_of_getElem? (PrivateGlobals.lookup_eq_some hl).2))
  · rcases globalMeaning_cases hm with ⟨ms, hms, hm⟩ | ⟨r, -, rest, f, hrest, hf, rfl⟩ | rfl | ⟨count, rfl⟩
    · exact globalMeanings_inherits h hf ha hms hm
    · obtain ⟨-, rfl⟩ := FuncRef.make_eq_ok.1 hf
      have hopen : ∀ t ∈ rest, Q t := Registry.openParams_inherits hrest
      simpa [Meaning.types, FuncRef.types, or_imp, forall_and] using ⟨ha, hopen⟩
    · simp [Meaning.types]
    · simp [Meaning.types]

/-- The type parameters of a declaration have the property. -/
theorem selfLevels_inherits (id : ItemId) : ∀ t ∈ (ctx.selfLevels id).flatten, Q t := by
  intro t ht
  simp only [selfLevels, List.mem_flatten, List.mem_map] at ht
  obtain ⟨l, ⟨scope, -, rfl⟩, ht⟩ := ht
  obtain ⟨name, -, rfl⟩ := List.mem_map.1 ht
  exact Ty.Inherited.param _

/-- A type found by name has it. -/
theorem namedType_inherits (ha : ∀ t ∈ args, Q t) {t : Ty} (ht : ctx.namedType name args = .ok (.ok t)) : Q t := by
  unfold namedType at ht
  split at ht
  · cases ht
    exact Ty.Inherited.param _
  · split at ht
    · obtain ⟨u, hu, hut⟩ := Except.map_eq_ok.1 ht
      cases hut
      obtain ⟨hfit, rfl⟩ := Ty.make_eq_ok.1 hu
      exact Ty.Composed.made hfit (Levels.nest_inherits (selfLevels_inherits _) ha)
    · exact globalType_inherits ha ht

end Context

end ScriptCheck
