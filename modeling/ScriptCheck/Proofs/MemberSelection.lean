import ScriptCheck.Proofs.NearestMembers
import ScriptCheck.Proofs.ScopedRecords

/-!
# What a look-up of a member selects

Going up from a type, the first type that declares a function of the name answers for it: with one of its own functions, or
with the reason why none of them is meant. Which function that is, or which reason, is settled by the declared type and by how
many type arguments are written (`Registry.selected`); the arguments of the type it is reached through only stand in front of
them (`FuncRecord.applied`). A variable takes no arguments, so it is the child of the first type that declares one.
-/

namespace ScriptCheck

/-! ### Functions that are listed by name -/

namespace Module

variable {m : Module} {outer id : ItemId} {name : Name}

theorem isNamed_iff : isNamed outer name id = true ↔ ∃ k, id = outer.child name k := by
  simp only [isNamed, decide_eq_true_eq]
  constructor
  · rintro ⟨houter, hlast⟩
    obtain ⟨last, hid, rfl⟩ := Option.map_eq_some_iff.1 hlast
    exact ⟨last.arity, ItemId.eq_child houter hid⟩
  · rintro ⟨k, rfl⟩
    simp

/-- The functions that are listed under a declaration by name are those of that name that have a record. -/
theorem Built.mem_listed_iff (h : m.Built) :
    id ∈ (m.funcIndex.find? (outer, name)).getD [] ↔ m.funcs.find? id ≠ none ∧ ∃ k, id = outer.child name k := by
  induction h with
  | empty => simp [Module.empty]
  | type _ _ hm ih =>
    obtain ⟨-, rfl⟩ := addType_eq_ok.1 hm
    exact ih
  | var _ _ hm ih =>
    obtain ⟨-, rfl⟩ := addVar_eq_ok.1 hm
    exact ih
  | @func _ _ _ r _ _ hm ih =>
    obtain ⟨-, rfl⟩ := addFunc_eq_ok.1 hm
    rw [Module.putFunc, listed_indexFunc, List.mem_append, ih, Table.find?_insert, ← isNamed_iff]
    by_cases hid : r.id = id
    · subst hid
      simp only [if_true, ne_eq, reduceCtorEq, not_false_eq_true, true_and]
      by_cases hnamed : isNamed outer name r.id = true <;> simp [hnamed]
    · rw [if_neg hid, or_iff_left]
      split <;> simp [Ne.symm hid]

/-- A record is found by name if it stands under an id of that name. -/
theorem Built.mem_funcsNamed_iff (h : m.Built) {r : FuncRecord} :
    r ∈ m.funcsNamed outer name ↔ m.funcs.find? (outer.child name r.typeParams.length) = some r := by
  constructor
  · intro hr
    obtain ⟨hid, hfind⟩ := h.consistent.funcsNamed hr
    rwa [hid] at hfind
  · intro hfind
    exact List.mem_filterMap.2 ⟨_, h.mem_listed_iff.2 ⟨by simp [hfind], _, rfl⟩, hfind⟩

end Module

/-- The function with its own level of arguments: those that are written, and its remaining type parameters, which stand for
themselves. -/
def FuncRecord.applied (r : FuncRecord) (levels : Levels) (explicit : List Ty) : FuncRef :=
  ⟨r.id, levels ++ [explicit ++ (r.typeParams.drop explicit.length).map fun name => .param ⟨r.id, name⟩]⟩

namespace Registry

variable {reg : Registry} {receiver t : Ty} {name : Name} {id : ItemId} {levels : Levels} {explicit : List Ty} {k : Nat}

/-- What so many type arguments select among the functions of this name that a declared type has. -/
def selected (reg : Registry) (name : Name) (id : ItemId) (count : Nat) : Except LookupError FuncRecord :=
  (pickByArity (reg.memberFuncs id name) count).toOption.getD (.error .notFound)

/-- The functions of a type that a look-up considers are those that some module has under an id of that name. -/
theorem mem_memberFuncs_iff (hb : ∀ m ∈ reg, m.Built) {r : FuncRecord} :
    r ∈ reg.memberFuncs id name ↔ ∃ m ∈ reg, m.funcs.find? (id.child name r.typeParams.length) = some r := by
  rw [memberFuncs, List.mem_flatMap]
  refine exists_congr fun m => and_congr_right fun hm => ?_
  exact (hb m hm).mem_funcsNamed_iff

theorem pickByArity_selected (hne : reg.memberFuncs id name ≠ []) (count : Nat) :
    pickByArity (reg.memberFuncs id name) count = .ok (reg.selected name id count) ∧
      Selects (reg.memberFuncs id name) count (reg.selected name id count) := by
  obtain ⟨picked, hpick, hselects⟩ := pickByArity_selects hne count
  have heq : reg.selected name id count = picked := by simp [selected, hpick, Except.toOption]
  exact heq ▸ ⟨hpick, hselects⟩

/-- The levels of the type play no part in the choice, they only come first in what is chosen. -/
theorem choose_eq_selected (hc : ∀ m ∈ reg, m.Consistent) (hf : levels.fits id = true) (hne : reg.memberFuncs id name ≠ [])
    (explicit : List Ty) : choose levels (reg.memberFuncs id name) explicit =
      .ok ((reg.selected name id explicit.length).map (·.applied levels explicit)) := by
  obtain ⟨hpick, hselects⟩ := pickByArity_selected hne explicit.length
  cases hsel : reg.selected name id explicit.length with
  | error e => exact choose_of_error (hsel ▸ hpick)
  | ok r =>
    rw [hsel] at hpick hselects
    obtain ⟨hmem, hle⟩ := hselects.of_ok
    exact choose_of_pick hpick (FuncRecord.openParams_of_le hle) (FuncRecord.fits_open (memberFuncs_id hc hmem) hf hle)

/-! ### The first type that declares the name -/

/-- Bases that fit lead from a type that fits to types that fit. -/
theorem follow_wellFormed (hb : ∀ b ∈ reg.declaredBases, b.WellFormed) (ht : receiver.WellFormed)
    (hk : follow reg.baseOf k receiver = some t) : t.WellFormed := by
  induction k generalizing receiver with
  | zero =>
    cases hk
    exact ht
  | succ k ih =>
    obtain ⟨base, hbase, hrest⟩ := Option.bind_eq_some_iff.1 hk
    refine ih ?_ hrest
    cases receiver with
    | nominal id levels =>
      rw [baseOf_nominal] at hbase
      obtain ⟨b, hdeclared, rfl⟩ := Option.map_eq_some_iff.1 hbase
      obtain ⟨r, hr, hrb⟩ := Option.bind_eq_some_iff.1 hdeclared
      exact applyIn_inherits (Ty.Composed.args ht) (hb b (mem_declaredBases hr hrb))
    | _ => cases hbase

section Climb

variable {α : Type} {visit : Ty → Option α} {P : Ty → Prop}

/-- A climb that stops exactly where `P` holds gives what the first such type says. -/
theorem climb_eq_of_first [Patience] (hends : ∃ n, follow reg.baseOf n receiver = none) (hstops : ∀ u, P u → visit u ≠ none)
    (honly : ∀ j u, follow reg.baseOf j receiver = some u → visit u ≠ none → P u) (h : reg.First P receiver k t) :
    reg.climb visit receiver = visit t := by
  rcases climb_cases visit hends with ⟨j, u, a, hfirst, ha, hclimb⟩ | ⟨hnone, -⟩
  · have hP := honly j u hfirst.reached hfirst.holds
    obtain ⟨-, rfl⟩ := h.unique (hfirst.mono hP hstops)
    rw [hclimb, ha]
  · exact absurd (hnone k t h.reached) (hstops t h.holds)

theorem climb_eq_none [Patience] (hends : ∃ n, follow reg.baseOf n receiver = none)
    (honly : ∀ j u, follow reg.baseOf j receiver = some u → visit u ≠ none → P u)
    (h : ∀ j u, follow reg.baseOf j receiver = some u → ¬P u) : reg.climb visit receiver = none := by
  rcases climb_cases visit hends with ⟨j, u, a, hfirst, -, -⟩ | ⟨-, hclimb⟩
  · exact absurd (honly j u hfirst.reached hfirst.holds) (h j u hfirst.reached)
  · exact hclimb

end Climb

/-- A look for a function stops only at a type that declares one, where the arguments fit. -/
theorem declaresFunc_of_ownFunc (ht : t.WellFormed) (h : reg.ownFunc name explicit t ≠ none) : reg.DeclaresFunc name t := by
  cases t with
  | nominal id levels =>
    refine declaresFunc_nominal.2 fun hnil => h ?_
    simp only [ownFunc, hnil, passOver_eq_none ht]
  | _ => exact absurd rfl h

/-- A look for a variable stops only at a type that declares one, where the arguments fit. -/
theorem declaresVar_of_ownVar (ht : t.WellFormed) (h : reg.ownVar name t ≠ none) : reg.DeclaresVar name t := by
  cases t with
  | nominal id levels =>
    refine declaresVar_nominal.2 fun hnone => h ?_
    simp only [ownVar, hnone, passOver_eq_none ht]
  | _ => exact absurd rfl h

section Lookups

variable (hb : ∀ b ∈ reg.declaredBases, b.WellFormed) (hends : ∃ n, follow reg.baseOf n receiver = none)
  (ht : receiver.WellFormed)
include hb hends ht

theorem memberFunc_eq_notFound [Patience] (h : ∀ j u, follow reg.baseOf j receiver = some u → ¬reg.DeclaresFunc name u) :
    reg.memberFunc receiver name explicit = .ok (.error .notFound) := by
  have hclimb : reg.climb (reg.ownFunc name explicit) receiver = none :=
    climb_eq_none hends (fun j u hu => declaresFunc_of_ownFunc (follow_wellFormed hb ht hu)) h
  rw [memberFunc, hclimb, Option.getD_none]

theorem memberFunc_eq_selected [Patience] (hc : ∀ m ∈ reg, m.Consistent)
    (h : reg.First (reg.DeclaresFunc name) receiver k (.nominal id levels)) :
    reg.memberFunc receiver name explicit =
      .ok ((reg.selected name id explicit.length).map (·.applied levels explicit)) := by
  have hne := declaresFunc_nominal.1 h.holds
  have hf := (Ty.wellFormed_nominal.1 (follow_wellFormed hb ht h.reached)).1
  have hclimb : reg.climb (reg.ownFunc name explicit) receiver = reg.ownFunc name explicit (.nominal id levels) :=
    climb_eq_of_first hends (fun _ => ownFunc_ne_none)
      (fun j u hu => declaresFunc_of_ownFunc (follow_wellFormed hb ht hu)) h
  have hown : reg.ownFunc name explicit (.nominal id levels) =
      some (choose levels (reg.memberFuncs id name) explicit) := by
    rw [ownFunc]
    split
    · rename_i hnil
      exact absurd hnil hne
    · rfl
  rw [memberFunc, hclimb, hown, Option.getD_some, choose_eq_selected hc hf hne]

theorem memberVar_eq_notFound [Patience] (h : ∀ j u, follow reg.baseOf j receiver = some u → ¬reg.DeclaresVar name u) :
    reg.memberVar receiver name [] = .ok (.error .notFound) := by
  have hclimb : reg.climb (reg.ownVar name) receiver = none :=
    climb_eq_none hends (fun j u hu => declaresVar_of_ownVar (follow_wellFormed hb ht hu)) h
  simp only [memberVar, hclimb, List.isEmpty_nil, if_true, Option.getD_none]

theorem memberVar_eq_child [Patience] (h : reg.First (reg.DeclaresVar name) receiver k (.nominal id levels)) :
    reg.memberVar receiver name [] = .ok (.ok ⟨id.child name 0, levels ++ [[]]⟩) := by
  obtain ⟨r, hr⟩ := Option.ne_none_iff_exists'.1 (declaresVar_nominal.1 h.holds)
  have hf := (Ty.wellFormed_nominal.1 (follow_wellFormed hb ht h.reached)).1
  have hclimb : reg.climb (reg.ownVar name) receiver = reg.ownVar name (.nominal id levels) :=
    climb_eq_of_first hends (fun _ => ownVar_ne_none)
      (fun j u hu => declaresVar_of_ownVar (follow_wellFormed hb ht hu)) h
  have hmake : VarRef.make (id.child name 0) (Levels.nest levels []) = .ok ⟨id.child name 0, levels ++ [[]]⟩ :=
    VarRef.make_eq_ok.2 ⟨Levels.fits_nest hf name, rfl⟩
  simp only [memberVar, hclimb, ownVar, hr, hmake, List.isEmpty_nil, if_true, Option.getD_some, Except.map]

end Lookups

end Registry

/-! ### The main statement -/

/-- In modules that are put together from checked records and whose declared bases fit, the functions of a name that a type
declares are the records that some module has under an id of that name directly under the type. What a number of type arguments
selects among them is a matter of the declared type and of that number alone: a function that takes exactly so many before one
that takes more, or an ambiguity, or a wrong number. From a type that fits and whose chain of bases ends, a look-up finds nothing
if no type on the way up declares a function of the name. Otherwise the first type that does declare one gives what is selected
there: the function under that type's id, with that type's levels and then the written arguments and its own remaining
parameters, or the reason for selecting none. A variable is the child of the first type that declares one, with that type's
levels and an empty one, or it is not found. -/
theorem first_declaring_type_decides_members [Patience] (reg : Registry) (name : Name) (hm : ∀ m ∈ reg, m.Built)
    (hb : ∀ b ∈ reg.declaredBases, b.WellFormed) :
    (∀ id r, r ∈ reg.memberFuncs id name ↔ ∃ m ∈ reg, m.funcs.find? (id.child name r.typeParams.length) = some r) ∧
    (∀ id r, r ∈ reg.memberFuncs id name → r.id = id.child name r.typeParams.length) ∧
    ∃ select : ItemId → Nat → Except LookupError FuncRecord,
      (∀ id count, reg.memberFuncs id name ≠ [] → Selects (reg.memberFuncs id name) count (select id count)) ∧
      ∀ receiver : Ty, receiver.WellFormed → (∃ n, follow reg.baseOf n receiver = none) →
        (∀ explicit,
          ((∀ k t, follow reg.baseOf k receiver = some t → ¬reg.DeclaresFunc name t) →
            reg.memberFunc receiver name explicit = .ok (.error .notFound)) ∧
          ∀ k t, reg.First (reg.DeclaresFunc name) receiver k t → ∃ id levels, t = .nominal id levels ∧
            reg.memberFunc receiver name explicit =
              .ok ((select id explicit.length).map (·.applied levels explicit))) ∧
        ((∀ k t, follow reg.baseOf k receiver = some t → ¬reg.DeclaresVar name t) →
          reg.memberVar receiver name [] = .ok (.error .notFound)) ∧
        ∀ k t, reg.First (reg.DeclaresVar name) receiver k t → ∃ id levels, t = .nominal id levels ∧
          reg.memberVar receiver name [] = .ok (.ok ⟨id.child name 0, levels ++ [[]]⟩) := by
  have hc : ∀ m ∈ reg, m.Consistent := fun m hmem => (hm m hmem).consistent
  refine ⟨fun id r => Registry.mem_memberFuncs_iff hm, fun id r => Registry.memberFuncs_id hc, reg.selected name,
    fun id count hne => (Registry.pickByArity_selected hne count).2, fun receiver ht hends => ⟨fun explicit => ⟨?_, ?_⟩, ?_, ?_⟩⟩
  · exact Registry.memberFunc_eq_notFound hb hends ht
  · intro k t hfirst
    obtain ⟨id, hid, -⟩ := hfirst.holds
    obtain ⟨levels, rfl⟩ := Ty.eq_nominal_of_head? hid
    exact ⟨id, levels, rfl, Registry.memberFunc_eq_selected hb hends ht hc hfirst⟩
  · exact Registry.memberVar_eq_notFound hb hends ht
  · intro k t hfirst
    obtain ⟨id, hid, -⟩ := hfirst.holds
    obtain ⟨levels, rfl⟩ := Ty.eq_nominal_of_head? hid
    exact ⟨id, levels, rfl, Registry.memberVar_eq_child hb hends ht hfirst⟩

namespace Sample

/-- The id of `Rack<T>`. -/
def rackId : ItemId := (ItemId.root "Racks").child (.text "Rack") 1

/-- The id of `Shelf<S>`. -/
def shelfId : ItemId := (ItemId.root "Racks").child (.text "Shelf") 1

/-- The record of `put` with these type parameters. -/
def rackPut (typeParams : List Name) : FuncRecord :=
  ⟨rackId.child (.text "put") typeParams.length, typeParams, [], .void, false, false⟩

/-- `class Rack<T> { T top; void put<U>(); void put<U, V>(); }` and `class Shelf<S> : Rack<List<S>>` -/
def racks : Module :=
  Module.empty "Racks"
    |>.putType ⟨rackId, .classType, [.text "T"], none, []⟩
    |>.putVar ⟨rackId.child (.text "top") 0, .param ⟨rackId, .text "T"⟩, false⟩
    |>.putFunc (rackPut [.text "U"])
    |>.putFunc (rackPut [.text "U", .text "V"])
    |>.putType ⟨shelfId, .classType, [.text "S"], some (.nominal rackId [[Builtin.list (.param ⟨shelfId, .text "S"⟩)]]), []⟩

def withRacks : Registry := [Builtin.declarations, racks]

/-- `Shelf<int>` -/
def intShelf : Ty := .nominal shelfId [[Builtin.int]]

theorem racks_built : racks.Built := by
  unfold racks
  repeat
    first
    | refine .putType ?_ rfl rfl
    | refine .putFunc ?_ rfl rfl
    | refine .putVar ?_ rfl rfl
  exact .empty _

end Sample

/-- On a `Shelf<int>`, `put<string>` is the function of `Rack<List<int>>` with one parameter, although another takes more;
without arguments `put` is ambiguous. -/
theorem sample_shelf_members : (∀ m ∈ Sample.withRacks, m.Built) ∧ (∀ b ∈ Sample.withRacks.declaredBases, b.WellFormed) ∧
    Sample.intShelf.WellFormed ∧ follow Sample.withRacks.baseOf 2 Sample.intShelf = none ∧
    (∃ selected, Selects (Sample.withRacks.memberFuncs Sample.rackId (.text "put")) 1 selected ∧
      Sample.withRacks.memberFunc Sample.intShelf (.text "put") [Builtin.string] =
        .ok (selected.map (·.applied [[Builtin.list Builtin.int]] [Builtin.string]))) ∧
    Sample.withRacks.memberFunc Sample.intShelf (.text "put") [Builtin.string] =
      .ok (.ok ⟨Sample.rackId.child (.text "put") 1, [[Builtin.list Builtin.int], [Builtin.string]]⟩) ∧
    Sample.withRacks.memberFunc Sample.intShelf (.text "put") [] = .ok (.error (.ambiguous 2)) := by
  have hm : ∀ m ∈ Sample.withRacks, m.Built := by
    intro m hm
    obtain rfl | rfl : m = Builtin.declarations ∨ m = Sample.racks := by simpa [Sample.withRacks] using hm
    · exact Builtin.declarations_built
    · exact Sample.racks_built
  have hb : ∀ b ∈ Sample.withRacks.declaredBases, b.WellFormed := by decide +kernel
  have ht : Sample.intShelf.WellFormed := by decide +kernel
  have hends : follow Sample.withRacks.baseOf 2 Sample.intShelf = none := by decide +kernel
  obtain ⟨-, -, select, hselect, hfound⟩ := first_declaring_type_decides_members Sample.withRacks (.text "put") hm hb
  obtain ⟨hfunc, -⟩ := hfound Sample.intShelf ht ⟨2, hends⟩
  have hrack : Sample.withRacks.memberFuncs Sample.rackId (.text "put") ≠ [] := by decide +kernel
  -- The shelf itself declares no function of the name.
  have hfirst : Sample.withRacks.First (Sample.withRacks.DeclaresFunc (.text "put")) Sample.intShelf 1
      (.nominal Sample.rackId [[Builtin.list Builtin.int]]) := by
    refine ⟨by decide +kernel, Registry.declaresFunc_nominal.2 hrack, fun j t hj hj' => ?_⟩
    obtain rfl : j = 0 := by omega
    cases hj'
    rw [Sample.intShelf, Registry.declaresFunc_nominal]
    decide +kernel
  obtain ⟨id, levels, hnominal, hput⟩ := (hfunc [Builtin.string]).2 _ _ hfirst
  cases hnominal
  exact ⟨hm, hb, ht, hends, ⟨_, hselect _ 1 hrack, hput⟩, rfl, rfl⟩

end ScriptCheck
