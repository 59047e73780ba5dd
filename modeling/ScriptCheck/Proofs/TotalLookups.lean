import ScriptCheck.Proofs.Arity
import ScriptCheck.Proofs.StateInvariants

/-!
# Look-ups that never end in a fault

In consistent modules whose types are well formed every look-up has an answer. A function that is found can be used: some
module has its record, its arguments fit its id, and its own type parameters can be replaced. The same holds for variables,
for what a written type means and for what an identifier means in a frame whose names refer to slots.
-/

namespace ScriptCheck

variable {levels : Levels}

/-! ### Computations without faults -/

/-- There is no fault, and the answer has the property. -/
def Gives {α : Type} (Q : α → Prop) (x : Except Fault α) : Prop := ∃ a, x = .ok a ∧ Q a

namespace Gives

variable {α β : Type} {P : α → Prop} {Q : β → Prop}
variable {x : Except Fault α}

/-- A plain result. -/
theorem pure {a : α} (h : P a) : Gives P (pure a) := ⟨a, rfl, h⟩

/-- Less may be asked of the result. -/
theorem mono {P' : α → Prop} (hx : Gives P x) (h : ∀ a, P a → P' a) : Gives P' x := by
  obtain ⟨a, hx, ha⟩ := hx
  exact ⟨a, hx, h a ha⟩

/-- One step after the other. -/
theorem bind {f : α → Except Fault β} (hx : Gives P x) (hf : ∀ a, P a → Gives Q (f a)) : Gives Q (x >>= f) := by
  obtain ⟨a, rfl, ha⟩ := hx
  exact hf a ha

/-- The result is mapped. -/
theorem map {f : α → β} (hx : Gives P x) (hf : ∀ a, P a → Q (f a)) : Gives Q (x.map f) := by
  obtain ⟨a, rfl, ha⟩ := hx
  exact ⟨f a, rfl, hf a ha⟩

/-- Several look-ups in a row. -/
theorem mapM {f : α → Except Fault β} {as : List α} (h : ∀ a ∈ as, Gives Q (f a)) :
    Gives (fun bs => ∀ b ∈ bs, Q b) (as.mapM f) := by
  induction as with
  | nil => exact ⟨[], rfl, by simp⟩
  | cons a as ih =>
    obtain ⟨ha, has⟩ := List.forall_mem_cons.1 h
    rw [List.mapM_cons]
    refine ha.bind fun b hb => (ih has).bind fun bs hbs => .pure ?_
    exact List.forall_mem_cons.2 ⟨hb, hbs⟩

/-- A value that is there. -/
theorem require {o : Option α} {a : α} (ho : o = some a) (ha : P a) : Gives P (Fault.require o) :=
  ⟨a, Fault.require_eq_ok.2 ho, ha⟩

end Gives

/-- Levels that fit make a declared type. -/
theorem Ty.make_gives {id : ItemId} (hf : levels.fits id = true) (hl : ∀ t ∈ levels.flatten, t.WellFormed) :
    Gives Ty.WellFormed (Ty.make id levels) :=
  ⟨_, Ty.make_eq_ok.2 ⟨hf, rfl⟩, Ty.wellFormed_nominal.2 ⟨hf, hl⟩⟩

/-- They make a function. -/
theorem FuncRef.make_gives {id : ItemId} (hf : levels.fits id = true) :
    Gives (· = ⟨id, levels⟩) (FuncRef.make id levels) := ⟨_, FuncRef.make_eq_ok.2 ⟨hf, rfl⟩, rfl⟩

/-- They make a variable. -/
theorem VarRef.make_gives {id : ItemId} (hf : levels.fits id = true) :
    Gives (· = ⟨id, levels⟩) (VarRef.make id levels) := ⟨_, VarRef.make_eq_ok.2 ⟨hf, rfl⟩, rfl⟩

/-! ### What can be used -/

/-- Every module is consistent, and all types that are recorded are well formed. -/
structure Registry.WellFormed (reg : Registry) : Prop where
  consistent : ∀ m ∈ reg, m.Consistent
  types : reg.AllTypes Ty.WellFormed

/-- One more module. -/
theorem Registry.WellFormed.cons {reg : Registry} {m : Module} (hm : m.Consistent) (ht : ∀ t ∈ m.recordTypes, t.WellFormed)
    (h : reg.WellFormed) : Registry.WellFormed (m :: reg) :=
  ⟨List.forall_mem_cons.2 ⟨hm, h.consistent⟩, h.types.cons ht⟩

/-- Some module has the function's record, and the arguments fit. A function has a level of its own. -/
structure FuncRef.Usable (reg : Registry) (f : FuncRef) : Prop where
  known : ∃ r, reg.func? f.id = some r
  fits : f.levels.fits f.id = true
  types : ∀ t ∈ f.types, t.WellFormed
  nested : f.levels ≠ []

/-- Some module has the variable's record, and the arguments fit. -/
structure VarRef.Usable (reg : Registry) (v : VarRef) : Prop where
  known : ∃ r, reg.var? v.id = some r
  fits : v.levels.fits v.id = true
  types : ∀ t ∈ v.types, t.WellFormed

/-- The member can be used. -/
def MemberRef.Usable (reg : Registry) : MemberRef → Prop
  | .var v => v.Usable reg
  | .func f => f.Usable reg

/-- A function that is listed by name is a child of the declaration it is listed under, and has a record. -/
theorem Module.Consistent.funcsNamed {m : Module} (h : m.Consistent) {outer : ItemId} {name : Name} {r : FuncRecord}
    (hr : r ∈ m.funcsNamed outer name) : r.id = outer.child name r.typeParams.length ∧ m.funcs.find? r.id = some r := by
  obtain ⟨id, hid, hfind⟩ := List.mem_filterMap.1 hr
  obtain ⟨hrid, hlen⟩ := h.funcs hfind
  cases hix : m.funcIndex.find? (outer, name) with
  | none => simp [hix] at hid
  | some ids =>
    rw [hix] at hid
    obtain ⟨k, rfl⟩ := h.index hix id hid
    rw [ItemId.arity_child] at hlen
    exact ⟨hlen ▸ hrid, hrid ▸ hfind⟩

/-- The type parameters that stay open. -/
theorem FuncRecord.openParams_of_le {r : FuncRecord} {given : Nat} (h : given ≤ r.typeParams.length) :
    r.openParams given = .ok ((r.typeParams.drop given).map fun name => .param ⟨r.id, name⟩) := by
  simp [FuncRecord.openParams, h]

/-- They are well-formed types. -/
theorem FuncRecord.openParams_gives {r : FuncRecord} {given : Nat} (h : given ≤ r.typeParams.length) :
    Gives (fun ts => ts = (r.typeParams.drop given).map (fun name => .param ⟨r.id, name⟩) ∧ ∀ t ∈ ts, t.WellFormed)
      (r.openParams given) :=
  ⟨_, openParams_of_le h, rfl, Registry.openParams_inherits (openParams_of_le h)⟩

/-- The arguments that are written and those that are left open are as many as the function takes. -/
theorem FuncRecord.fits_open {r : FuncRecord} {outer : ItemId} {name : Name} {explicit : List Ty}
    (hid : r.id = outer.child name r.typeParams.length) (hf : levels.fits outer = true)
    (hle : explicit.length ≤ r.typeParams.length) :
    (levels.nest (explicit ++ (r.typeParams.drop explicit.length).map fun p => Ty.param ⟨r.id, p⟩)).fits r.id = true := by
  generalize hopen : (r.typeParams.drop explicit.length).map (fun p => Ty.param ⟨r.id, p⟩) = rest
  have hlength : (explicit ++ rest).length = r.typeParams.length := by
    simp only [← hopen, List.length_append, List.length_map, List.length_drop]
    omega
  rw [hid, ← hlength]
  exact Levels.fits_nest hf name

/-! ### The choice by the number of type arguments -/

/-- How many of the functions take exactly so many type arguments. -/
def takingExactly (candidates : List FuncRecord) (count : Nat) : Nat :=
  candidates.countP fun r => r.typeParams.length = count

/-- How many of the functions take more type arguments than that. -/
def takingMore (candidates : List FuncRecord) (count : Nat) : Nat :=
  candidates.countP fun r => count < r.typeParams.length

/-- What so many type arguments select among functions of one name. A function that takes exactly so many goes before those
that take more, and of those that are considered there has to be only one. -/
inductive Selects (candidates : List FuncRecord) (count : Nat) : Except LookupError FuncRecord → Prop where
  | exactly {r : FuncRecord} (mem : r ∈ candidates) (takes : r.typeParams.length = count)
      (only : takingExactly candidates count = 1) : Selects candidates count (.ok r)
  | more {r : FuncRecord} (mem : r ∈ candidates) (takes : count < r.typeParams.length)
      (noneExactly : takingExactly candidates count = 0) (only : takingMore candidates count = 1) :
      Selects candidates count (.ok r)
  | manyExactly (many : 1 < takingExactly candidates count) :
      Selects candidates count (.error (.ambiguous (takingExactly candidates count)))
  | manyMore (noneExactly : takingExactly candidates count = 0) (many : 1 < takingMore candidates count) :
      Selects candidates count (.error (.ambiguous (takingMore candidates count)))
  | tooMany {first : FuncRecord} (head : candidates.head? = some first)
      (allFewer : ∀ r ∈ candidates, r.typeParams.length < count) :
      Selects candidates count (.error (.typeArgCount first.typeParams.length count))

section Choice

variable {candidates : List FuncRecord} {count : Nat}

/-- What is selected is one of the functions and takes no fewer type arguments. -/
theorem Selects.of_ok {r : FuncRecord} (h : Selects candidates count (.ok r)) :
    r ∈ candidates ∧ count ≤ r.typeParams.length := by
  cases h with
  | exactly mem takes only => exact ⟨mem, Nat.le_of_eq takes.symm⟩
  | more mem takes _ _ => exact ⟨mem, Nat.le_of_lt takes⟩

/-- One of the candidates is picked, or the problem is named. -/
theorem pickByArity_selects (hne : candidates ≠ []) (count : Nat) :
    Gives (Selects candidates count) (pickByArity candidates count) := by
  have hexactly : takingExactly candidates count = (candidates.filter fun r => r.typeParams.length = count).length :=
    List.countP_eq_length_filter
  have hmore : takingMore candidates count = (candidates.filter fun r => count < r.typeParams.length).length :=
    List.countP_eq_length_filter
  have mem_of_only : ∀ {p : FuncRecord → Bool} {r : FuncRecord}, candidates.filter p = [r] → r ∈ candidates ∧ p r = true := by
    intro p r hr
    exact List.mem_filter.1 (hr ▸ List.mem_singleton_self r)
  have one_lt : ∀ {l : List FuncRecord}, (l = [] → False) → (∀ r, l = [r] → False) → 1 < l.length := by
    intro l hnil hsingle
    rcases l with _ | ⟨r, _ | ⟨r', l⟩⟩
    · exact absurd rfl hnil
    · exact absurd rfl (hsingle r)
    · simp
  unfold pickByArity
  split
  · rename_i r hr
    obtain ⟨hmem, htakes⟩ := mem_of_only hr
    exact ⟨_, rfl, .exactly hmem (of_decide_eq_true htakes) (by rw [hexactly, hr]; rfl)⟩
  · rename_i hnone
    rw [hnone, List.length_nil] at hexactly
    split
    · rename_i r hr
      obtain ⟨hmem, htakes⟩ := mem_of_only hr
      exact ⟨_, rfl, .more hmem (of_decide_eq_true htakes) hexactly (by rw [hmore, hr]; rfl)⟩
    · rename_i hnoneMore
      have hhead := List.head?_eq_some_head hne
      refine Gives.bind (Gives.require (P := (candidates.head? = some ·)) hhead hhead) fun first hfirst => .pure ?_
      refine .tooMany hfirst fun r hr => ?_
      have hneq := List.filter_eq_nil_iff.1 hnone r hr
      have hnlt := List.filter_eq_nil_iff.1 hnoneMore r hr
      simp only [decide_eq_true_eq] at hneq hnlt
      omega
    · rename_i hnotOnly hnotNone
      refine ⟨_, rfl, ?_⟩
      rw [← hmore]
      exact .manyMore hexactly (hmore ▸ one_lt hnotNone hnotOnly)
  · rename_i hnotOnly hnotNone
    refine ⟨_, rfl, ?_⟩
    rw [← hexactly]
    exact .manyExactly (hexactly ▸ one_lt hnotNone hnotOnly)

/-- A choice is made among some functions only. -/
theorem Selects.of_pick {picked : Except LookupError FuncRecord} (h : pickByArity candidates count = .ok picked) :
    Selects candidates count picked := by
  have hne : candidates ≠ [] := by
    rintro rfl
    cases h
  obtain ⟨_, hpick, hselects⟩ := pickByArity_selects hne count
  cases h.symm.trans hpick
  exact hselects

end Choice

namespace Registry

variable {reg : Registry} {outer : ItemId} {name : Name}
variable {id : ItemId} {r : FuncRecord} {explicit : List Ty} {receiver : Ty}

/-- A function of a module is found. -/
theorem func?_of_mem {m : Module} (hm : m ∈ reg) (hr : m.funcs.find? id = some r) : ∃ r', reg.func? id = some r' := by
  have h : (reg.findSome? (·.funcs.find? id)).isSome := List.findSome?_isSome_iff.2 ⟨m, hm, by simp [hr]⟩
  exact Option.isSome_iff_exists.1 h

/-- A member function has an id under its type. -/
theorem WellFormed.memberFuncs (h : reg.WellFormed) (hr : r ∈ reg.memberFuncs outer name) :
    r.id = outer.child name r.typeParams.length ∧ ∃ r', reg.func? r.id = some r' := by
  obtain ⟨m, hm, hr⟩ := List.mem_flatMap.1 hr
  obtain ⟨hid, hfind⟩ := (h.consistent m hm).funcsNamed hr
  exact ⟨hid, func?_of_mem hm hfind⟩

/-- So has a global function under its module. -/
theorem globalFuncs_known (hc : ∀ m ∈ reg, m.Consistent) (hr : r ∈ reg.globalFuncs name) :
    ∃ mod, r.id = (ItemId.root mod).child name r.typeParams.length ∧ ∃ r', reg.func? r.id = some r' := by
  obtain ⟨m, hm, hr⟩ := List.mem_flatMap.1 hr
  obtain ⟨hid, hfind⟩ := (hc m hm).funcsNamed hr
  exact ⟨m.name, hid, func?_of_mem hm hfind⟩

/-- A declaration introduces as many type parameters as its id says. -/
theorem typeParams?_length (h : ∀ m ∈ reg, m.Consistent) {ps : List Name} (hp : reg.typeParams? id = some ps) :
    ps.length = id.arity := by
  unfold Registry.typeParams? at hp
  split at hp
  · rename_i r hr
    cases hp
    obtain ⟨m, hm, hf⟩ := List.exists_of_findSome?_eq_some hr
    exact ((h m hm).types hf).2
  · split at hp
    · rename_i r hr
      cases hp
      obtain ⟨m, hm, hf⟩ := List.exists_of_findSome?_eq_some hr
      exact ((h m hm).funcs hf).2
    · obtain ⟨r, hr, rfl⟩ := Option.map_eq_some_iff.1 hp
      obtain ⟨m, hm, hf⟩ := List.exists_of_findSome?_eq_some hr
      exact ((h m hm).vars hf).symm

/-! ### Types of functions and variables -/

/-- A usable function has a record. -/
theorem funcRecord_gives {f : FuncRef} (hf : f.Usable reg) :
    Gives (fun r => reg.func? f.id = some r) (reg.funcRecord f.id) := by
  obtain ⟨r, hr⟩ := hf.known
  exact ⟨r, funcRecord_eq_ok.2 hr, hr⟩

/-- It has a signature. -/
theorem funcType_gives (h : reg.WellFormed) {f : FuncRef} (hf : f.Usable reg) :
    Gives (fun sig => ∀ t ∈ sig.types, t.WellFormed) (reg.funcType f) := by
  obtain ⟨r, hr⟩ := hf.known
  have hsig := funcType_eq_ok.2 ⟨r, hr, rfl⟩
  exact ⟨_, hsig, funcType_inherits h.types hf.types hsig⟩

/-- A usable variable has a type. -/
theorem varType_gives (h : reg.WellFormed) {v : VarRef} (hv : v.Usable reg) : Gives Ty.WellFormed (reg.varType v) := by
  obtain ⟨r, hr⟩ := hv.known
  have hty := varType_eq_ok.2 ⟨r, hr, rfl⟩
  exact ⟨_, hty, varType_inherits h.types hv.types hty⟩

/-! ### Members -/

/-- A chosen function is usable. -/
theorem choose_gives {candidates : List FuncRecord} (hne : candidates ≠ [])
    (hc : ∀ r ∈ candidates, r.id = outer.child name r.typeParams.length ∧ ∃ r', reg.func? r.id = some r')
    (hfit : levels.fits outer = true) (hl : ∀ t ∈ levels.flatten, t.WellFormed) (he : ∀ t ∈ explicit, t.WellFormed) :
    Gives (fun chosen => ∀ f, chosen = .ok f → f.Usable reg) (choose levels candidates explicit) := by
  refine (pickByArity_selects hne explicit.length).bind fun picked hp => ?_
  cases picked with
  | error e => exact .pure fun f hf => nomatch hf
  | ok r =>
    obtain ⟨hmem, hle⟩ := hp.of_ok
    obtain ⟨hid, hknown⟩ := hc r hmem
    refine (FuncRecord.openParams_gives hle).bind fun rest ⟨hopen, hrest⟩ => ?_
    have hfits : (Levels.nest levels (explicit ++ rest)).fits r.id = true := hopen ▸ FuncRecord.fits_open hid hfit hle
    refine (FuncRef.make_gives hfits).bind fun f hf => .pure fun g hg => ?_
    cases hg
    subst hf
    exact ⟨hknown, hfits, Levels.nest_inherits hl (List.forall_mem_append.2 ⟨he, hrest⟩), by simp [Levels.nest]⟩

/-- A climb over well-formed types meets no type whose arguments do not fit. -/
theorem passOver_eq_none {α : Type} (h : (Ty.nominal id levels).WellFormed) :
    (passOver id levels : Option (Except Fault α)) = none := by
  simp [passOver, (Ty.wellFormed_nominal.1 h).1]

/-- So is a member function. -/
theorem memberFunc_gives {_ : Patience} (h : reg.WellFormed) (ht : receiver.WellFormed) (he : ∀ t ∈ explicit, t.WellFormed) :
    Gives (fun found => ∀ f, found = .ok f → f.Usable reg) (reg.memberFunc receiver name explicit) := by
  unfold memberFunc
  cases hc : reg.climb (reg.ownFunc name explicit) receiver with
  | none => exact ⟨_, rfl, fun f hf => nomatch hf⟩
  | some found =>
    rw [Option.getD_some]
    obtain ⟨u, hu, hv⟩ := climb_invariant (fun _ _ ht _ => baseOf_inherits h.types ht) ht hc
    cases u with
    | nominal id levels =>
      obtain ⟨hfit, hl⟩ := Ty.wellFormed_nominal.1 hu
      rw [ownFunc] at hv
      split at hv
      · rw [passOver_eq_none hu] at hv
        cases hv
      · rename_i hne
        cases hv
        exact choose_gives hne (fun r hr => h.memberFuncs hr) hfit hl he
    | _ => cases hv

/-- So is a member variable. -/
theorem memberVar_gives {_ : Patience} (h : reg.WellFormed) (ht : receiver.WellFormed) :
    Gives (fun found => ∀ v, found = .ok v → v.Usable reg) (reg.memberVar receiver name explicit) := by
  unfold memberVar
  split
  · cases hc : reg.climb (reg.ownVar name) receiver with
    | none => exact ⟨_, rfl, fun v hv => by cases hv⟩
    | some found =>
      rw [Option.getD_some]
      obtain ⟨u, hu, hv⟩ := climb_invariant (fun _ _ ht _ => baseOf_inherits h.types ht) ht hc
      cases u with
      | nominal id levels =>
        obtain ⟨hfit, hl⟩ := Ty.wellFormed_nominal.1 hu
        rw [ownVar] at hv
        split at hv
        · rw [passOver_eq_none hu] at hv
          cases hv
        · rename_i r hr
          cases hv
          have hfits : (Levels.nest levels []).fits (id.child name 0) = true := Levels.fits_nest hfit name
          refine (VarRef.make_gives hfits).map fun v hv w hw => ?_
          cases hw
          subst hv
          exact ⟨⟨r, hr⟩, hfits, Levels.nest_inherits hl (by simp)⟩
      | _ => cases hv
  · exact ⟨_, rfl, fun v hv => by cases hv⟩

/-- So is a member of either kind. -/
theorem member_gives {_ : Patience} (h : reg.WellFormed) {args : List Ty} (ht : receiver.WellFormed)
    (ha : ∀ t ∈ args, t.WellFormed) :
    Gives (fun found => ∀ m, found = .ok m → m.Usable reg) (reg.member receiver name args) := by
  refine (memberVar_gives h ht).bind fun found hfound => ?_
  cases found with
  | ok v =>
    refine .pure fun m hm => ?_
    split at hm
    · cases hm
      exact hfound v rfl
    · cases hm
  | error e =>
    refine (memberFunc_gives h ht ha).bind fun found hfound => .pure fun m hm => ?_
    obtain ⟨f, rfl, rfl⟩ := Except.map_eq_ok.1 hm
    exact hfound f rfl

/-- So is a method. -/
theorem method?_gives {_ : Patience} (h : reg.WellFormed) (ht : receiver.WellFormed) :
    Gives (fun found => ∀ f ∈ found, f.Usable reg) (reg.method? receiver name) := by
  refine (memberFunc_gives h ht (by simp)).bind fun found hfound => .pure fun f hf => ?_
  cases found with
  | error e => cases hf
  | ok g =>
    cases hf
    exact hfound f rfl

/-- Whether a member is static is known. -/
theorem isStatic_gives {found : MemberRef} (hf : found.Usable reg) : Gives (fun _ => True) (reg.isStatic found) := by
  cases found with
  | var v => exact ⟨_, rfl, trivial⟩
  | func f => exact (funcRecord_gives hf).bind fun r _ => .pure trivial

end Registry

/-- The type arguments that are found for a function fit as those before them did. -/
theorem FuncRef.inferFrom_gives {reg : Registry} {f : FuncRef} {params args : List Ty} (hf : f.Usable reg)
    (ha : ∀ t ∈ args, t.WellFormed) : Gives (FuncRef.Usable reg) (f.inferFrom params args) := by
  have hlen : (f.levels.dropLast ++ [(Levels.own f.levels).map
      (·.substitute (Ty.unifyList f.id params args .empty))]).map List.length = f.levels.map List.length := by
    obtain ⟨around, own, hl⟩ := List.eq_nil_or_concat f.levels |>.resolve_left hf.nested
    simp [hl, Levels.own]
  have hfits : (Levels.withOwn f.levels ((Levels.own f.levels).map
      (·.substitute (Ty.unifyList f.id params args .empty)))).fits f.id = true := by
    have hold := hf.fits
    simp only [Levels.fits, decide_eq_true_eq] at hold ⊢
    exact hlen.trans hold
  have hok := FuncRef.make_eq_ok.2 ⟨hfits, rfl⟩
  refine ⟨_, hok, hf.known, hfits, FuncRef.inferFrom_inherits hf.types ha hok, by simp [Levels.withOwn, Levels.nest]⟩

/-! ### What a name means -/

/-- Every name of the script's own variables refers to a slot that was made. -/
def PrivateGlobals.Bounded (g : PrivateGlobals) : Prop := ∀ x slot, g.names.find? x = some slot → slot < g.size

/-- A variable's slot is one of the script. -/
theorem PrivateGlobals.Bounded.declare {g : PrivateGlobals} (h : g.Bounded) (name : String) (ty : Ty) :
    (g.declare name ty).Bounded := by
  intro x slot hx
  simp only [PrivateGlobals.declare, Table.find?_insert] at hx
  have hsize : (g.declare name ty).size = g.size + 1 := by simp [PrivateGlobals.declare, PrivateGlobals.size]
  rw [hsize]
  split at hx
  · cases hx
    omega
  · have hlt := h x slot hx
    omega

/-- A name of the script is looked up without a fault. -/
theorem PrivateGlobals.Bounded.lookup_gives {g : PrivateGlobals} (h : g.Bounded) (name : String) :
    Gives (fun _ => True) (g.lookup name) := by
  unfold PrivateGlobals.lookup
  split
  · exact ⟨_, rfl, trivial⟩
  · rename_i slot hslot
    have hlt : slot < g.slots.length := h name slot hslot
    exact Gives.bind (Gives.require (P := fun _ => True) (List.getElem?_eq_getElem hlt) trivial) fun _ _ => .pure trivial

/-- So is a name of the frame. -/
theorem Frame.Bounded.lookup_gives {f : Frame} (h : f.Bounded) (name : String) : Gives (fun _ => True) (f.lookup name) := by
  unfold Frame.lookup
  split
  · exact ⟨_, rfl, trivial⟩
  · rename_i slot hslot
    have hlt : slot < f.locals.length := h name slot hslot
    exact Gives.bind (Gives.require (P := fun _ => True) (List.getElem?_eq_getElem hlt) trivial) fun _ _ => .pure trivial

/-- What is looked up in is in order: the modules, the types of the script, which name as many type parameters as their ids
say, and the types around the place, each of which is known with every type around it. -/
structure Context.WellFormed (ctx : Context) : Prop where
  registry : ctx.registry.WellFormed
  skeleton : ∀ {id t}, ctx.skeleton.types.find? id = some t → t.typeParams.length = id.arity
  enclosing : ∀ scope ∈ ctx.enclosing, scope.isType = true → ∀ id ∈ scope.id.enclosing, ctx.skeleton.types.contains id = true

/-- What an identifier means can be used, if it is a function, and its types are in order. -/
def Meaning.Usable (reg : Registry) : Meaning → Prop
  | .var storage ty declared => ty.WellFormed ∧ declared.WellFormed ∧ storage.WellFormed
  | .func f => f.Usable reg
  | .type ty => ty.WellFormed
  | .notFound => True
  | .ambiguous _ => True

namespace Context

variable {ctx : Context} {frame : Frame} {globals : PrivateGlobals} {name : String} {args : List Ty} {allowPartial : Bool}
variable {id : ItemId} {key : Name}

/-- A declaration inside one more declaration, which is a type of the script or not a type. -/
theorem WellFormed.within (h : ctx.WellFormed) {scope : DeclScope}
    (hs : scope.isType = true → ∀ id ∈ scope.id.enclosing, ctx.skeleton.types.contains id = true) :
    (ctx.within scope).WellFormed :=
  ⟨h.registry, h.skeleton, List.forall_mem_cons.2 ⟨hs, h.enclosing⟩⟩

/-! ### Written types -/

/-- A type has the parameters that its id says. -/
theorem typeParamsOf_length (h : ctx.WellFormed) (hid : ctx.skeleton.types.contains id = true) :
    (ctx.typeParamsOf id).length = id.arity := by
  obtain ⟨t, ht⟩ := Option.isSome_iff_exists.1 hid
  rw [typeParamsOf, ht]
  exact h.skeleton ht

/-- The arities on the way to a declaration are those of its segments. -/
theorem map_arity_enclosing (id : ItemId) : id.enclosing.map ItemId.arity = id.arities := by
  obtain ⟨name, path⟩ := id
  refine List.ext_getElem (by simp [ItemId.enclosing, ItemId.arities]) fun n hn hn' => ?_
  have hlt : n < path.length := by simpa [ItemId.arities] using hn'
  simp [ItemId.enclosing, ItemId.arities, ItemId.arity, ItemId.last?, List.getLast?_take, hlt]

/-- They fit it and the types around it. -/
theorem selfLevels_fits (h : ctx.WellFormed)
    (hid : ∀ scope ∈ id.enclosing, ctx.skeleton.types.contains scope = true) : (ctx.selfLevels id).fits id = true := by
  simp only [Levels.fits, decide_eq_true_eq, selfLevels, List.map_map]
  rw [← map_arity_enclosing]
  refine List.map_congr_left fun scope hs => ?_
  simpa using typeParamsOf_length h (hid scope hs)

/-- A top-level type that is found has the arity that was asked for. -/
theorem globalTypeIds_eq (hc : ∀ m ∈ ctx.registry, m.Consistent) {arity : Nat}
    (hid : id ∈ ctx.globalTypeIds key arity) : ∃ mod, id = (ItemId.root mod).child key arity := by
  simp only [globalTypeIds, List.mem_append, List.mem_filter, List.mem_map] at hid
  rcases hid with hid | ⟨⟨r, hr, rfl⟩, -⟩
  · split at hid
    · exact ⟨ctx.moduleName, List.mem_singleton.1 hid⟩
    · cases hid
  · obtain ⟨m, hm, hf⟩ := List.mem_filterMap.1 hr
    exact ⟨m.name, ((hc m hm).types hf).1⟩

/-- The type that was found is well formed. -/
def FoundWellFormed (found : Except Problem Ty) : Prop := ∀ t, found = .ok t → t.WellFormed

/-- A type that is made is found. -/
theorem make_gives_found (hf : levels.fits id = true)
    (hl : ∀ t ∈ levels.flatten, t.WellFormed) : Gives FoundWellFormed ((Ty.make id levels).map .ok) :=
  (Ty.make_gives hf hl).map fun t ht u hu => by
    cases hu
    exact ht

/-- A global type is found or the problem is named. -/
theorem globalType_gives (h : ctx.WellFormed) (ha : ∀ t ∈ args, t.WellFormed) :
    Gives FoundWellFormed (ctx.globalType name args) := by
  unfold globalType
  split
  · rename_i id hid
    obtain ⟨mod, rfl⟩ : ∃ mod, id = (ItemId.root mod).child (.text name) args.length :=
      globalTypeIds_eq h.registry.consistent (by simp [hid])
    exact make_gives_found (Levels.fits_root mod _ args) (by simpa using ha)
  · refine ⟨_, rfl, fun t ht => ?_⟩
    split at ht
    · cases ht
      exact Ty.wellFormed_void
    · cases ht
  · exact ⟨_, rfl, fun t ht => nomatch ht⟩

/-- So is a type found by name. -/
theorem namedType_gives (h : ctx.WellFormed) (ha : ∀ t ∈ args, t.WellFormed) :
    Gives FoundWellFormed (ctx.namedType name args) := by
  unfold namedType
  split
  · refine ⟨_, rfl, fun t ht => ?_⟩
    cases ht
    exact Ty.wellFormed_param _
  · split
    · rename_i outer howner
      obtain ⟨scope, hscope, rfl⟩ := Option.map_eq_some_iff.1 howner
      have hpred := List.find?_some hscope
      simp only [Bool.and_eq_true] at hpred
      have hself := selfLevels_fits h (h.enclosing scope (List.mem_of_find?_eq_some hscope) hpred.1)
      exact make_gives_found (Levels.fits_nest hself _) (Levels.nest_inherits (selfLevels_inherits _) ha)
    · exact globalType_gives h ha

/-- So is a type in a type. -/
theorem memberType_gives (ctx : Context) {parent : Ty} (hp : parent.WellFormed) (ha : ∀ t ∈ args, t.WellFormed) :
    Gives FoundWellFormed (ctx.memberType parent name args) := by
  unfold memberType
  split
  · refine ⟨_, rfl, fun t ht => ?_⟩
    cases ht
    exact Ty.wellFormed_unresolved
  · rename_i id levels
    obtain ⟨hfit, hl⟩ := Ty.wellFormed_nominal.1 hp
    dsimp only
    split
    · exact make_gives_found (Levels.fits_nest hfit _) (Levels.nest_inherits hl ha)
    · exact ⟨_, rfl, fun t ht => nomatch ht⟩
  · exact ⟨_, rfl, fun t ht => nomatch ht⟩

/-! ### Identifiers -/

/-- Global meanings are listed without a fault. -/
theorem globalMeanings_gives (hc : ∀ m ∈ ctx.registry, m.Consistent) :
    Gives (fun _ => True) (ctx.globalMeanings frame key args) := by
  have hfuncs : Gives (fun _ => True) (((ctx.registry.globalFuncs key).filter fun r => r.typeParams.length = args.length).mapM
      fun r => FuncRef.make r.id [args]) := by
    refine Gives.mono (Gives.mapM (Q := fun _ => True) fun r hr => ?_) fun _ _ => trivial
    simp only [List.mem_filter, decide_eq_true_eq] at hr
    obtain ⟨mod, hid, -⟩ := Registry.globalFuncs_known hc hr.1
    have hfits : Levels.fits [args] r.id = true := by
      rw [hid, hr.2]
      exact Levels.fits_root mod key args
    exact (FuncRef.make_gives hfits).mono fun _ _ => trivial
  have htypes : Gives (fun _ => True) ((ctx.globalTypeIds key args.length).mapM fun id => Ty.make id [args]) := by
    refine Gives.mono (Gives.mapM (Q := fun _ => True) fun id hid => ?_) fun _ _ => trivial
    obtain ⟨mod, rfl⟩ := globalTypeIds_eq hc hid
    exact ⟨_, Ty.make_eq_ok.2 ⟨Levels.fits_root mod key args, rfl⟩, trivial⟩
  exact hfuncs.bind fun _ _ => htypes.bind fun _ _ => .pure trivial

/-- So are partial ones. -/
theorem partialMeaning_gives (hc : ∀ m ∈ ctx.registry, m.Consistent) :
    Gives (fun _ => True) (ctx.partialMeaning key args) := by
  unfold partialMeaning
  split
  · exact ⟨_, rfl, trivial⟩
  · rename_i r hr
    have hmem : r ∈ (ctx.registry.globalFuncs key).filter fun r => args.length < r.typeParams.length := by simp [hr]
    simp only [List.mem_filter, decide_eq_true_eq] at hmem
    obtain ⟨mod, hid, -⟩ := Registry.globalFuncs_known hc hmem.1
    have hle := Nat.le_of_lt hmem.2
    refine (FuncRecord.openParams_gives hle).bind fun rest ⟨hopen, _⟩ => ?_
    have hfits : (Levels.nest [] (args ++ rest)).fits r.id = true := hopen ▸ FuncRecord.fits_open hid rfl hle
    exact (FuncRef.make_gives hfits).bind fun _ _ => .pure trivial
  · exact ⟨_, rfl, trivial⟩

/-- So is the one that is chosen. -/
theorem globalMeaning_gives (hc : ∀ m ∈ ctx.registry, m.Consistent) :
    Gives (fun _ => True) (ctx.globalMeaning frame key args allowPartial) := by
  refine (globalMeanings_gives hc).bind fun ms _ => ?_
  split
  · exact .pure trivial
  · split
    · exact partialMeaning_gives hc
    · exact .pure trivial
  · exact .pure trivial

/-- A function that a top-level name means has a record. -/
theorem globalMeaning_usable (h : ctx.WellFormed) (ha : ∀ t ∈ args, t.WellFormed) {f : FuncRef}
    (hm : ctx.globalMeaning frame key args allowPartial = .ok (.func f)) : f.Usable ctx.registry := by
  rcases globalMeaning_cases hm with ⟨ms, hms, hm⟩ | ⟨r, hr, rest, g, hrest, hg, hm⟩ | hm | ⟨count, hm⟩
  · simp only [globalMeanings, Except.bind_eq_ok, Except.pure_eq_ok] at hms
    obtain ⟨funcs, hfuncs, types, -, rfl⟩ := hms
    simp only [List.mem_append, List.mem_map, Frame.read, reduceCtorEq, and_false, exists_false, false_or, or_false,
      Meaning.func.injEq, exists_eq_right] at hm
    obtain ⟨r, hr, hf⟩ := Except.mem_of_mapM_eq_ok hfuncs hm
    obtain ⟨hfits, rfl⟩ := FuncRef.make_eq_ok.1 hf
    obtain ⟨-, -, hknown⟩ := Registry.globalFuncs_known h.registry.consistent (List.mem_filter.1 hr).1
    exact ⟨hknown, hfits, by simpa [FuncRef.types] using ha, by simp⟩
  · cases hm
    obtain ⟨hfits, rfl⟩ := FuncRef.make_eq_ok.1 hg
    obtain ⟨-, -, hknown⟩ := Registry.globalFuncs_known h.registry.consistent hr
    have hopen : ∀ t ∈ rest, t.WellFormed := Registry.openParams_inherits hrest
    exact ⟨hknown, hfits, by simpa [FuncRef.types, or_imp, forall_and] using ⟨ha, hopen⟩, by simp⟩
  · cases hm
  · cases hm

/-- An identifier has a meaning, or is known to have none, and what it means can be used. -/
theorem lookup_gives (h : ctx.WellFormed) (hf : frame.AllTypes Ty.WellFormed) (hb : frame.Bounded)
    (hg : ∀ t ∈ globals.slots, t.WellFormed) (hgb : globals.Bounded) (ha : ∀ t ∈ args, t.WellFormed) :
    Gives (Meaning.Usable ctx.registry) (ctx.lookup frame globals name args allowPartial) := by
  have htotal : Gives (fun _ => True) (ctx.lookup frame globals name args allowPartial) := by
    unfold lookup
    cases args with
    | cons t ts => exact globalMeaning_gives h.registry.consistent
    | nil =>
      simp only [List.isEmpty_nil, if_true]
      refine (hb.lookup_gives name).bind fun found _ => ?_
      cases found with
      | some v => exact .pure trivial
      | none =>
        refine (hgb.lookup_gives name).bind fun found _ => ?_
        cases found with
        | some v => exact .pure trivial
        | none => exact globalMeaning_gives h.registry.consistent
  obtain ⟨meaning, hm, -⟩ := htotal
  refine ⟨meaning, hm, ?_⟩
  have htypes := lookup_inherits h.registry.types hf hg ha hm
  cases meaning with
  | var storage ty declared =>
    obtain ⟨hty, hrest⟩ := List.forall_mem_cons.1 htypes
    obtain ⟨hd, hs⟩ := List.forall_mem_cons.1 hrest
    refine ⟨hty, hd, hs, ?_⟩
    rcases lookup_cases hm with ⟨slot, d, -, -, hm⟩ | ⟨slot, d, -, -, -, hm⟩ | ⟨-, hm⟩
    · cases hm
      simp [Storage.refs]
    · cases hm
      simp [Storage.refs]
    · obtain ⟨-, record, -, rfl, -⟩ := globalMeaning_var hm
      simp [Storage.refs]
  | func f =>
    rcases lookup_cases hm with ⟨slot, d, -, -, hm⟩ | ⟨slot, d, -, -, -, hm⟩ | ⟨-, hm⟩
    · cases hm
    · cases hm
    · exact globalMeaning_usable h ha hm
  | type ty => exact htypes ty (by simp [Meaning.types])
  | notFound => trivial
  | ambiguous count => trivial

end Context

end ScriptCheck
