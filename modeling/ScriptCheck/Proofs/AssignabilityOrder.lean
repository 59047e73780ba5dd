import ScriptCheck.Proofs.ClimbLimits

/-!
# The order of types that fit

A type fits where one of its bases is expected, and a type has one base at most. So what a type fits is a chain, from the type
itself upwards. Where no declaration leads back to itself the chains end, although the types on them may have ever new
arguments: each step leaves another of the declarations that have a base. A chain that ends never comes back, so two types that
fit each other are equal.
-/

namespace ScriptCheck.Registry

variable {reg : Registry} {t a b : Ty}

/-- The declaration `base` is the one that the base of the declaration `id` is an instance of. -/
def DerivedFrom (reg : Registry) (id base : ItemId) : Prop := reg.baseId? id = some base

/-- The type `base` is the base of the type `t`. -/
def HasBase (reg : Registry) (t base : Ty) : Prop := reg.baseOf t = some base

/-- Where every base is a declared type, none is a type parameter. -/
theorem derives_of_nominal (h : ∀ m ∈ reg, ∀ r ∈ m.types.values, ∀ b ∈ r.base, b.nominal?.isSome) : reg.Derives := by
  intro id r b hr hb
  obtain ⟨m, hm, hfound⟩ := List.exists_of_findSome?_eq_some hr
  have hnominal := h m hm r (Table.mem_values_of_find? hfound) b hb
  cases b with
  | param ref => cases hnominal
  | _ => rfl

/-- Where no declaration leads back to itself, the chain of a type takes no more steps than there are types with a base. -/
theorem chain_ends (hreg : reg.Derives) (hacyclic : ∀ id, ¬Relation.TransGen reg.DerivedFrom id id) (t : Ty) :
    ∃ n u, n ≤ reg.derivedIds.length ∧ follow reg.baseOf n t = some u ∧ reg.baseOf u = none := by
  have hids : ∀ id n, follow reg.baseId? (n + 1) id ≠ some id :=
    fun id n h => hacyclic id (exists_follow_succ_iff.1 ⟨n, h⟩)
  exact exists_last (follow_derivedIds hreg (ends_of_acyclic hids) t)

/-- A type fits where it is expected itself or a type on its chain is. -/
theorem assignable_iff_chain [Patience] {target source : Ty} (hends : ∃ n, follow reg.baseOf n source = none) :
    reg.assignable target source = true ↔ Relation.ReflTransGen reg.HasBase source target :=
  (assignable_iff (follow_reach hends)).trans exists_follow_iff

/-- A chain that ends does not come back. -/
theorem chain_antisymm (hends : ∃ n, follow reg.baseOf n a = none) (hab : Relation.ReflTransGen reg.HasBase a b)
    (hba : Relation.ReflTransGen reg.HasBase b a) : a = b := by
  rcases Relation.reflTransGen_iff_eq_or_transGen.1 hab with heq | hstep
  · exact heq.symm
  · obtain ⟨n, hn⟩ := hends
    obtain ⟨k, hround⟩ := exists_follow_succ_iff.2 (hstep.trans_left hba)
    exact absurd hround (follow_ne_self hn)

/-- Two types on one chain are on the chain of one of them. -/
theorem chain_total {source : Ty} (ha : Relation.ReflTransGen reg.HasBase source a)
    (hb : Relation.ReflTransGen reg.HasBase source b) :
    Relation.ReflTransGen reg.HasBase a b ∨ Relation.ReflTransGen reg.HasBase b a := by
  refine Relation.ReflTransGen.total_of_right_unique ?_ ha hb
  intro t u v hu hv
  exact Option.some.inj (hu.symm.trans hv)

/-- Bases that always have a lower rank do not go round in circles. -/
theorem acyclic_of_rank (rank : ItemId → Nat)
    (h : ∀ m ∈ reg, ∀ e ∈ m.types.entries, ∀ b ∈ e.2.base, ∀ base ∈ b.head?, rank base < rank e.1) (id : ItemId) :
    ¬Relation.TransGen reg.DerivedFrom id id := by
  have hstep : ∀ id base, reg.DerivedFrom id base → rank base < rank id := by
    intro id base hbase
    obtain ⟨r, hr, hbase⟩ := Option.bind_eq_some_iff.1 hbase
    obtain ⟨b, hb, hhead⟩ := Option.bind_eq_some_iff.1 hbase
    obtain ⟨m, hm, hfound⟩ := List.exists_of_findSome?_eq_some hr
    exact h m hm (id, r) (Table.mem_of_findIn hfound) b hb base hhead
  have hlower : ∀ last, Relation.TransGen reg.DerivedFrom id last → rank last < rank id := by
    intro last hlast
    induction hlast with
    | single hnext => exact hstep _ _ hnext
    | tail _ hnext ih => exact (hstep _ _ hnext).trans ih
  exact fun hround => Nat.lt_irrefl _ (hlower id hround)

end ScriptCheck.Registry

namespace ScriptCheck

namespace Sample

/-- The id of a type with one parameter. -/
def layerId (name : String) : ItemId := (ItemId.root "Layers").child (.text name) 1

def layer (name : String) (arg : Ty) : Ty := .nominal (layerId name) [[arg]]

/-- `class Low<T>`, `class Middle<T> : Low<List<T>>` and `class High<T> : Middle<List<T>>` -/
def layers : Module :=
  let derived (name base : String) : TypeRecord :=
    ⟨layerId name, .classType, [.text "T"], some (layer base (Builtin.list (.param ⟨layerId name, .text "T"⟩))), []⟩
  Module.empty "Layers"
    |>.putType ⟨layerId "Low", .classType, [.text "T"], none, []⟩
    |>.putType (derived "Middle" "Low")
    |>.putType (derived "High" "Middle")

/-- How far above `Low` a type of `layers` stands. -/
def height (id : ItemId) : Nat := if id = layerId "High" then 2 else if id = layerId "Middle" then 1 else 0

end Sample

/-! ### The main statement -/

/-- Where every base is a declared type and no declaration is derived from itself, directly or through others, a chain of bases
takes no more steps than there are records with a base. A type fits where it is itself expected or a type on its chain is, and
so fitting is a partial order in which the types that one type fits are all comparable. -/
theorem assignability_is_a_partial_order [Patience] (reg : Registry)
    (hnominal : ∀ m ∈ reg, ∀ r ∈ m.types.values, ∀ b ∈ r.base, b.nominal?.isSome)
    (hacyclic : ∀ id, ¬Relation.TransGen reg.DerivedFrom id id) :
    (∀ t, ∃ n u, n ≤ reg.derivedIds.length ∧ follow reg.baseOf n t = some u ∧ reg.baseOf u = none) ∧
    (∀ target source, reg.assignable target source = true ↔ Relation.ReflTransGen reg.HasBase source target) ∧
    (∀ t, reg.assignable t t = true) ∧
    (∀ a b c, reg.assignable b a = true → reg.assignable c b = true → reg.assignable c a = true) ∧
    (∀ a b, reg.assignable b a = true → reg.assignable a b = true → a = b) ∧
    ∀ a b source, reg.assignable a source = true → reg.assignable b source = true →
      reg.assignable a b = true ∨ reg.assignable b a = true := by
  have hchains := Registry.chain_ends (Registry.derives_of_nominal hnominal) hacyclic
  have hends : ∀ t, ∃ n, follow reg.baseOf n t = none := by
    intro t
    obtain ⟨n, u, -, hu, hlast⟩ := hchains t
    exact ⟨n + 1, by rw [follow_add, hu, Option.bind_some, follow, hlast, Option.bind_none]⟩
  have hiff : ∀ target source, reg.assignable target source = true ↔ Relation.ReflTransGen reg.HasBase source target :=
    fun target source => Registry.assignable_iff_chain (hends source)
  simp only [hiff]
  refine ⟨hchains, fun _ _ => trivial, fun t => .refl, fun a b c => .trans, fun a b => Registry.chain_antisymm (hends a), ?_⟩
  intro a b source ha hb
  exact (Registry.chain_total ha hb).symm

/-- `High<int>` fits where `Middle<List<int>>` or `Low<List<List<int>>>` is expected, and so the one of these fits the other. -/
theorem sample_assignability_is_a_partial_order :
    (∀ m ∈ [Sample.layers], ∀ r ∈ m.types.values, ∀ b ∈ r.base, b.nominal?.isSome) ∧
    (∀ id, ¬Relation.TransGen (Registry.DerivedFrom [Sample.layers]) id id) ∧
    Registry.assignable [Sample.layers] (Sample.layer "Middle" (Builtin.list Builtin.int)) (Sample.layer "High" Builtin.int) =
      true ∧
    Registry.assignable [Sample.layers] (Sample.layer "Low" (Builtin.list (Builtin.list Builtin.int)))
      (Sample.layer "High" Builtin.int) = true ∧
    (Registry.assignable [Sample.layers] (Sample.layer "Middle" (Builtin.list Builtin.int))
        (Sample.layer "Low" (Builtin.list (Builtin.list Builtin.int))) = true ∨
      Registry.assignable [Sample.layers] (Sample.layer "Low" (Builtin.list (Builtin.list Builtin.int)))
        (Sample.layer "Middle" (Builtin.list Builtin.int)) = true) := by
  have hnominal : ∀ m ∈ [Sample.layers], ∀ r ∈ m.types.values, ∀ b ∈ r.base, b.nominal?.isSome := by decide +kernel
  have hacyclic : ∀ id, ¬Relation.TransGen (Registry.DerivedFrom [Sample.layers]) id id :=
    Registry.acyclic_of_rank Sample.height (by decide +kernel)
  have hmiddle : Registry.assignable [Sample.layers] (Sample.layer "Middle" (Builtin.list Builtin.int))
      (Sample.layer "High" Builtin.int) = true := by decide +kernel
  have hlow : Registry.assignable [Sample.layers] (Sample.layer "Low" (Builtin.list (Builtin.list Builtin.int)))
      (Sample.layer "High" Builtin.int) = true := by decide +kernel
  obtain ⟨-, -, -, -, -, hchain⟩ := assignability_is_a_partial_order [Sample.layers] hnominal hacyclic
  exact ⟨hnominal, hacyclic, hmiddle, hlow, hchain _ _ _ hmiddle hlow⟩

end ScriptCheck
