import ScriptCheck.Proofs.Inherited

/-!
# Types without holes

`Ty.unresolved` marks a type that could not be found out. A type is resolved when it occurs nowhere in it, and a record, a
note or a state is resolved when all types that are mentioned there are. Types inherit this, so everything that computes types
from resolved ones gives resolved ones.
-/

namespace ScriptCheck

/-! ### Resolved types -/

/-- The placeholder for an unknown type occurs nowhere in the type. -/
def Ty.Resolved (t : Ty) : Prop := t.hasUnresolved = false

instance (t : Ty) : Decidable t.Resolved := inferInstanceAs (Decidable (_ = _))

/-- All these types are resolved. -/
def AllResolved (ts : List Ty) : Prop := ∀ t ∈ ts, t.Resolved

instance (ts : List Ty) : Decidable (AllResolved ts) := inferInstanceAs (Decidable (∀ t ∈ ts, _))

/-- A type is known if no part of it is unknown. -/
theorem Ty.resolved_iff (t : Ty) : t.Resolved ↔ Ty.unresolved ∉ t.parts := by
  rw [Ty.Resolved, ← Ty.hasUnresolved_eq_true_iff, Bool.not_eq_true]

@[simp] theorem allResolved_nil : AllResolved [] := by simp [AllResolved]

@[simp] theorem allResolved_cons {t : Ty} {ts : List Ty} : AllResolved (t :: ts) ↔ t.Resolved ∧ AllResolved ts := by
  simp [AllResolved]

@[simp] theorem allResolved_append {ts us : List Ty} : AllResolved (ts ++ us) ↔ AllResolved ts ∧ AllResolved us := by
  simp [AllResolved, or_imp, forall_and]

/-- Level by level. -/
theorem allResolved_flatten {ls : List (List Ty)} : AllResolved ls.flatten ↔ ∀ l ∈ ls, AllResolved l := by
  simp only [AllResolved, List.mem_flatten]
  exact ⟨fun h l hl t ht => h t ⟨l, hl, ht⟩, fun h t ⟨l, hl, ht⟩ => h l hl t ht⟩

/-- Some of several known types. -/
theorem AllResolved.subset {ts us : List Ty} (h : AllResolved us) (hs : ts ⊆ us) : AllResolved ts :=
  fun t ht => h t (hs ht)

namespace Ty

@[simp] theorem resolved_void : Ty.void.Resolved := rfl

@[simp] theorem resolved_param (ref : ParamRef) : (Ty.param ref).Resolved := rfl

@[simp] theorem not_resolved_unresolved : ¬Ty.unresolved.Resolved := by decide

/-- A type is known if its arguments are. -/
@[simp] theorem resolved_nominal {id : ItemId} {levels : Levels} :
    (Ty.nominal id levels).Resolved ↔ AllResolved levels.flatten := by
  rw [allResolved_flatten]
  simp only [resolved_iff, parts, List.mem_cons, reduceCtorEq, false_or, mem_partsOfLevels, AllResolved]
  constructor
  · intro h l hl t ht hu
    exact h ⟨l, hl, t, ht, hu⟩
  · rintro h ⟨l, hl, t, ht, hu⟩
    exact h l hl t ht hu

/-- A function type is known if all its types are. -/
@[simp] theorem resolved_func {ret : Ty} {params : List Ty} :
    (Ty.func ret params).Resolved ↔ ret.Resolved ∧ AllResolved params := by
  simp only [resolved_iff, parts, List.mem_cons, reduceCtorEq, false_or, List.mem_append, mem_partsOfList, AllResolved]
  constructor
  · intro h
    exact ⟨fun hr => h (.inl hr), fun t ht hu => h (.inr ⟨t, ht, hu⟩)⟩
  · rintro ⟨hr, hp⟩ (hu | ⟨t, ht, hu⟩)
    · exact hr hu
    · exact hp t ht hu

theorem Resolved.ne {t : Ty} (h : t.Resolved) : t ≠ .unresolved := by
  rintro rfl
  exact not_resolved_unresolved h

end Ty

instance : Ty.Inherited Ty.Resolved where
  void := Ty.resolved_void
  param := Ty.resolved_param
  func := Ty.resolved_func
  args := Ty.resolved_nominal.1
  made _ := Ty.resolved_nominal.2
  replaced _ _ := Ty.resolved_nominal.2

/-! ### Resolved modules and states -/

/-- No note or template of a state mentions an unknown type. -/
structure State.Resolved (s : State) : Prop where
  nodes : ∀ d ∈ s.nodes.values, AllResolved d.types
  templates : ∀ t ∈ s.templates, AllResolved t.types

/-- No record of the module mentions an unknown type. -/
def Module.Resolved (m : Module) : Prop := AllResolved m.recordTypes

/-- No record of any of the modules mentions an unknown type. -/
abbrev Registry.Resolved (reg : Registry) : Prop := reg.AllTypes Ty.Resolved

instance (m : Module) : Decidable m.Resolved := inferInstanceAs (Decidable (AllResolved _))

/-- The built-in module is written out in full. -/
theorem Builtin.declarations_resolved : Builtin.declarations.Resolved := by decide +kernel

end ScriptCheck
