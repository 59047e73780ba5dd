import ScriptCheck.Proofs.NoUnresolved
import Mathlib.Data.Finset.Card
import Mathlib.Logic.Relation

/-!
# Chains of bases end

A type leads to its base, the base to its own base, and so on. Which declaration comes next is said by the declaration at hand
alone, as long as no base is a type parameter. A script's own types do not lead round in a circle, because such a script has
no module; and a chain that has left them for the types of other modules does not come back, where no base there is a type of
the script. So every chain ends, and it takes no more steps than there are declared bases: climbs are never cut short.
-/

namespace ScriptCheck

/-! ### Following a step -/

/-- Where so many steps lead, if there are so many. -/
def follow {α : Type} (step : α → Option α) : Nat → α → Option α
  | 0, a => some a
  | n + 1, a => (step a).bind (follow step n)

section Follow

variable {α κ : Type} {step : α → Option α} {a b : α} {m n k : Nat}

theorem follow_add (step : α → Option α) (m n : Nat) (a : α) :
    follow step (m + n) a = (follow step m a).bind (follow step n) := by
  induction m generalizing a with
  | zero => simp [follow]
  | succ m ih =>
    rw [Nat.succ_add, follow, follow]
    cases step a with
    | none => rfl
    | some b => exact ih b

/-- What has ended does not go on. -/
theorem follow_eq_none_of_le (h : follow step n a = none) (hle : n ≤ k) : follow step k a = none := by
  obtain ⟨d, rfl⟩ := Nat.exists_eq_add_of_le hle
  rw [follow_add, h]
  rfl

/-- Nothing that ends comes back to where it was. -/
theorem follow_ne_self (h : follow step n a = none) : follow step (k + 1) a ≠ some a := by
  intro hback
  induction n using Nat.strongRecOn with
  | _ n ih =>
    by_cases hle : n ≤ k + 1
    · rw [follow_eq_none_of_le h hle] at hback
      cases hback
    · obtain ⟨d, rfl⟩ : ∃ d, n = (k + 1) + d := ⟨n - (k + 1), by omega⟩
      rw [follow_add, hback] at h
      exact ih d (by omega) h

/-- Among more positions than there are keys two have the same key. -/
theorem exists_same_key [DecidableEq κ] (keys : List κ) (x : Nat → κ) (h : ∀ i ≤ keys.length, x i ∈ keys) :
    ∃ i j, i < j ∧ j ≤ keys.length ∧ x i = x j := by
  have hcard : keys.toFinset.card < (Finset.range (keys.length + 1)).card := by
    rw [Finset.card_range]
    exact Nat.lt_succ_of_le keys.toFinset_card_le
  have hmaps : ∀ i ∈ Finset.range (keys.length + 1), x i ∈ keys.toFinset := by
    intro i hi
    rw [Finset.mem_range] at hi
    exact List.mem_toFinset.2 (h i (by omega))
  obtain ⟨i, hi, j, hj, hne, heq⟩ := Finset.exists_ne_map_eq_of_card_lt_of_maps_to hcard hmaps
  rw [Finset.mem_range] at hi hj
  rcases Nat.lt_or_gt_of_ne hne with hlt | hlt
  · exact ⟨i, j, hlt, by omega, heq⟩
  · exact ⟨j, i, hlt, by omega, heq.symm⟩

/-- Before the last of some steps each has a next one. -/
theorem exists_step {i : Nat} (h : follow step n a ≠ none) (hi : i < n) : ∃ b c, follow step i a = some b ∧ step b = some c := by
  obtain ⟨d, rfl⟩ : ∃ d, n = i + (d + 1) := ⟨n - i - 1, by omega⟩
  rw [follow_add] at h
  cases hb : follow step i a with
  | none =>
    rw [hb] at h
    exact absurd rfl h
  | some b =>
    cases hc : step b with
    | none =>
      rw [hb, Option.bind_some, follow, hc] at h
      exact absurd rfl h
    | some c => exact ⟨b, c, rfl, hc⟩

/-- Steps that end have a last place. -/
theorem exists_last (h : follow step (n + 1) a = none) : ∃ k b, k ≤ n ∧ follow step k a = some b ∧ step b = none := by
  induction n generalizing a with
  | zero =>
    cases ha : step a with
    | none => exact ⟨0, a, Nat.le_refl 0, rfl, ha⟩
    | some b =>
      rw [follow, ha] at h
      cases h
  | succ n ih =>
    cases ha : step a with
    | none => exact ⟨0, a, Nat.zero_le _, rfl, ha⟩
    | some b =>
      rw [follow, ha, Option.bind_some] at h
      obtain ⟨k, c, hk, hc, hlast⟩ := ih h
      exact ⟨k + 1, c, Nat.succ_le_succ hk, by rw [follow, ha, Option.bind_some, hc], hlast⟩

/-- More steps than there are keys to step from lead from some place to one with the same key. -/
theorem exists_revisit [DecidableEq κ] {keys : List κ} {key : α → κ} (hkeys : ∀ a b, step a = some b → key a ∈ keys)
    (h : follow step (n + 1) a ≠ none) (hn : keys.length ≤ n) :
    ∃ i d b c, i + d < keys.length ∧ follow step i a = some b ∧ follow step (d + 1) b = some c ∧ key c = key b := by
  have hmem : ∀ i ≤ keys.length, key ((follow step i a).getD a) ∈ keys := by
    intro i hi
    obtain ⟨b, c, hb, hc⟩ := exists_step h (i := i) (by omega)
    rw [hb]
    exact hkeys b c hc
  obtain ⟨i, j, hlt, hj, heq⟩ := exists_same_key keys _ hmem
  obtain ⟨b, -, hb, -⟩ := exists_step h (i := i) (by omega)
  obtain ⟨c, -, hc, -⟩ := exists_step h (i := j) (by omega)
  obtain ⟨d, rfl⟩ : ∃ d, j = i + (d + 1) := ⟨j - i - 1, by omega⟩
  rw [hb, hc] at heq
  rw [follow_add, hb] at hc
  exact ⟨i, d, b, c, by omega, hb, hc, heq.symm⟩

/-- Steps from things with so many keys end after so many steps, where none leads from a key back to that key. -/
theorem follow_eq_none [DecidableEq κ] {keys : List κ} {key : α → κ} (hkeys : ∀ a b, step a = some b → key a ∈ keys)
    (hcircle : ∀ a b n, n < keys.length → follow step (n + 1) a = some b → key b ≠ key a) (a : α) :
    follow step (keys.length + 1) a = none := by
  by_contra hne
  obtain ⟨i, d, b, c, hd, -, hc, heq⟩ := exists_revisit hkeys hne (Nat.le_refl _)
  exact hcircle b c d (by omega) hc heq

/-- Steps that lead back to where they began do so within as many steps as there are places to step from. -/
theorem exists_short_circle [DecidableEq α] {keys : List α} (hkeys : ∀ a b, step a = some b → a ∈ keys)
    (h : follow step (n + 1) a = some a) : ∃ k < keys.length, follow step (k + 1) a = some a := by
  induction n using Nat.strongRecOn with
  | _ n ih =>
    by_cases hn : n < keys.length
    · exact ⟨n, hn, h⟩
    · -- a longer circle comes through one place twice, and what lies between can be left out
      obtain ⟨i, d, b, c, hd, hb, hc, heq⟩ := exists_revisit hkeys (by rw [h]; simp) (Nat.le_of_not_lt hn)
      cases heq
      have hrest : follow step (n - i - d) b = some a := by
        rw [← h, show n + 1 = i + ((d + 1) + (n - i - d)) by omega, follow_add, hb, Option.bind_some, follow_add, hc,
          Option.bind_some]
      have hshort : follow step (n - d - 1 + 1) a = some a := by
        rw [show n - d - 1 + 1 = i + (n - i - d) by omega, follow_add, hb, Option.bind_some, hrest]
      exact ih (n - d - 1) (by omega) hshort

/-- What is reached in some number of steps is what is reached at all. -/
theorem exists_follow_iff : (∃ n, follow step n a = some b) ↔ Relation.ReflTransGen (fun a b => step a = some b) a b := by
  constructor
  · rintro ⟨n, h⟩
    induction n generalizing a with
    | zero =>
      cases h
      exact .refl
    | succ n ih =>
      obtain ⟨c, hc, h⟩ := Option.bind_eq_some_iff.1 h
      exact .head hc (ih h)
  · intro h
    induction h using Relation.ReflTransGen.head_induction_on with
    | refl => exact ⟨0, rfl⟩
    | head hc _ ih =>
      obtain ⟨n, hn⟩ := ih
      exact ⟨n + 1, by rw [follow, hc, Option.bind_some, hn]⟩

theorem exists_follow_succ_iff :
    (∃ n, follow step (n + 1) a = some b) ↔ Relation.TransGen (fun a b => step a = some b) a b := by
  rw [Relation.TransGen.head'_iff]
  constructor
  · rintro ⟨n, h⟩
    obtain ⟨c, hc, h⟩ := Option.bind_eq_some_iff.1 h
    exact ⟨c, hc, exists_follow_iff.1 ⟨n, h⟩⟩
  · rintro ⟨c, hc, h⟩
    obtain ⟨n, hn⟩ := exists_follow_iff.2 h
    exact ⟨n, by rw [follow, hc, Option.bind_some, hn]⟩

end Follow

/-! ### Heads -/

/-- The declaration that a type is an instance of. -/
def Ty.head? (t : Ty) : Option ItemId := t.nominal?.map (·.1)

/-- Replacing parameters in a type that is not itself one leaves its declaration. -/
theorem Ty.head?_substitute {t : Ty} (h : t.param? = none) (env : Env) : (t.substitute env).head? = t.head? := by
  rw [substitute_eq_subst]
  cases t with
  | param ref => cases h
  | _ => rfl

theorem Ty.eq_nominal_of_head? {t : Ty} {id : ItemId} (h : t.head? = some id) : ∃ levels, t = .nominal id levels := by
  cases t with
  | nominal id' levels =>
    cases h
    exact ⟨levels, rfl⟩
  | _ => cases h

/-- The types of `m` are derived from declared types alone, and each has one record. -/
structure Module.Derives (m : Module) : Prop where
  keys : m.types.keys.Nodup
  bases : ∀ id r b, m.types.find? id = some r → r.base = some b → b.param? = none

/-- Types that are not in `m` are derived from others that are not in `m`: no base is a type parameter, and none is a type
of `m`. -/
def Registry.Outside (refs : Registry) (m : Module) : Prop :=
  ∀ id r b, m.types.find? id = none → refs.type? id = some r → r.base = some b →
    b.param? = none ∧ ∀ base, b.head? = some base → m.types.find? base = none

namespace Registry

variable {reg refs : Registry} {m : Module} {id : ItemId} {t u : Ty} {n : Nat}

/-- The declaration of the base of a declared type. -/
def baseId? (reg : Registry) (id : ItemId) : Option ItemId := (reg.type? id).bind fun r => r.base.bind Ty.head?

/-- No base is a type parameter. -/
def Derives (reg : Registry) : Prop := ∀ id r b, reg.type? id = some r → r.base = some b → b.param? = none

theorem baseOf_eq_some (h : reg.baseOf t = some u) :
    ∃ id levels r b, t = .nominal id levels ∧ reg.type? id = some r ∧ r.base = some b ∧ u = reg.applyIn id levels b := by
  cases t with
  | nominal id levels =>
    simp only [baseOf, Option.bind_eq_bind, Option.bind_eq_some_iff] at h
    obtain ⟨r, hr, b, hb, hu⟩ := h
    exact ⟨id, levels, r, b, rfl, hr, hb, (Option.some.inj hu).symm⟩
  | _ => cases h

/-- Which declaration comes next is said by the declaration at hand. -/
theorem head?_baseOf (hreg : reg.Derives) (h : reg.baseOf t = some u) : ∃ id, t.head? = some id ∧ u.head? = reg.baseId? id := by
  obtain ⟨id, levels, r, b, rfl, hr, hb, rfl⟩ := baseOf_eq_some h
  refine ⟨id, rfl, ?_⟩
  rw [applyIn, Ty.head?_substitute (hreg id r b hr hb), baseId?, hr, Option.bind_some, hb, Option.bind_some]

theorem head?_follow (hreg : reg.Derives) (h : follow reg.baseOf n t = some u) {last : ItemId} (hu : u.head? = some last) :
    ∃ id, t.head? = some id ∧ follow reg.baseId? n id = some last := by
  induction n generalizing t with
  | zero =>
    cases h
    exact ⟨last, hu, rfl⟩
  | succ n ih =>
    obtain ⟨v, hv, h⟩ := Option.bind_eq_some_iff.1 h
    obtain ⟨id, hid, hnext⟩ := head?_baseOf hreg hv
    obtain ⟨next, hv, hfollow⟩ := ih h
    exact ⟨id, hid, by rw [follow, ← hnext, hv, Option.bind_some, hfollow]⟩

/-- A chain of declarations is the chain of any type with the first of them. -/
theorem follow_baseOf {last : ItemId} (h : follow reg.baseId? n id = some last) (levels : Levels) :
    ∃ levels', follow reg.baseOf n (.nominal id levels) = some (.nominal last levels') := by
  induction n generalizing id levels with
  | zero =>
    cases h
    exact ⟨levels, rfl⟩
  | succ n ih =>
    obtain ⟨next, hnext, h⟩ := Option.bind_eq_some_iff.1 h
    obtain ⟨r, hr, hbase⟩ := Option.bind_eq_some_iff.1 hnext
    obtain ⟨b, hb, hhead⟩ := Option.bind_eq_some_iff.1 hbase
    obtain ⟨levels', rfl⟩ := Ty.eq_nominal_of_head? hhead
    have hstep : reg.baseOf (.nominal id levels) = some (reg.applyIn id levels (.nominal next levels')) := by
      simp [baseOf, hr, hb]
    obtain ⟨levels'', hstep'⟩ : ∃ levels'', reg.applyIn id levels (.nominal next levels') = .nominal next levels'' := by
      rw [applyIn, Ty.substitute_eq_subst]
      exact ⟨_, rfl⟩
    obtain ⟨found, hfound⟩ := ih h levels''
    exact ⟨found, by rw [follow, hstep, Option.bind_some, hstep', hfound]⟩

end Registry

/-! ### The script's own types -/

theorem Table.length_keys {κ ν : Type} (t : Table κ ν) : t.keys.length = t.size := List.length_map ..

/-- Pairs that are made of some of the elements of a list have their keys in the order of the list. -/
theorem Table.keys_filterMap_sublist {α κ ν : Type} {pick : α → Option (κ × ν)} {key : α → κ}
    (h : ∀ a, ∀ e ∈ pick a, e.1 = key a) (l : List α) : ((l.filterMap pick).map (·.1)).Sublist (l.map key) := by
  induction l with
  | nil => exact .slnil
  | cons a rest ih =>
    cases ha : pick a with
    | none =>
      rw [List.filterMap_cons_none ha, List.map_cons]
      exact ih.cons _
    | some e =>
      rw [List.filterMap_cons_some ha, List.map_cons, List.map_cons, h a e ha]
      exact ih.cons_cons _

theorem Table.findIn_filterMap {κ ν μ : Type} [DecidableEq κ] {l : List (κ × ν)} (hn : (l.map (·.1)).Nodup)
    (f : ν → Option μ) (k : κ) : findIn k (l.filterMap fun e => (f e.2).map (e.1, ·)) = (findIn k l).bind f := by
  induction l with
  | nil => rfl
  | cons e rest ih =>
    obtain ⟨k', v⟩ := e
    obtain ⟨hk', hrest⟩ := List.nodup_cons.1 hn
    by_cases hk : k' = k
    · subst hk
      have hnone : findIn k' rest = none := by
        cases hfound : findIn k' rest with
        | none => rfl
        | some w => exact absurd (List.mem_map_of_mem (mem_of_findIn hfound)) hk'
      cases hv : f v with
      | none => simp [hv, findIn, ih hrest, hnone]
      | some w => simp [hv, findIn]
    · cases hv : f v with
      | none => simp [hv, findIn, ih hrest, hk]
      | some w => simp [hv, findIn, ih hrest, hk]

namespace Module

variable {m : Module} {id : ItemId} {n k : Nat}

/-- The declarations of the bases of the types of `m`. -/
def bases (m : Module) : Table ItemId ItemId := ⟨m.baseIds⟩

theorem baseIds_eq (m : Module) : m.baseIds =
    m.types.entries.filterMap fun e => ((fun r : TypeRecord => r.base.bind Ty.head?) e.2).map (e.1, ·) := by
  unfold baseIds
  congr 1
  funext e
  dsimp only
  cases e.2.base with
  | none => rfl
  | some b => cases b <;> rfl

theorem find?_bases (hm : m.types.keys.Nodup) (id : ItemId) :
    m.bases.find? id = (m.types.find? id).bind fun r => r.base.bind Ty.head? := by
  rw [bases, Table.find?, baseIds_eq]
  exact Table.findIn_filterMap hm (fun r : TypeRecord => r.base.bind Ty.head?) id

theorem keys_bases_sublist (m : Module) : m.bases.keys.Sublist m.types.keys := by
  rw [bases, Table.keys, baseIds_eq]
  refine Table.keys_filterMap_sublist (fun e d hd => ?_) m.types.entries
  obtain ⟨base, -, rfl⟩ := Option.map_eq_some_iff.1 hd
  rfl

theorem mem_keys_bases {next : ItemId} (h : m.bases.find? id = some next) : id ∈ m.bases.keys :=
  List.mem_map_of_mem (Table.mem_of_findIn h)

theorem leadsTo_iff {bases : Table ItemId ItemId} {start : ItemId} :
    leadsTo bases start n (some id) = true ↔ ∃ k < n, follow bases.find? k id = some start := by
  induction n generalizing id with
  | zero => simp [leadsTo]
  | succ n ih =>
    rw [leadsTo, Nat.exists_lt_succ_left, follow, Option.some.injEq]
    by_cases hid : id = start
    · simp [hid]
    · rw [if_neg hid, or_iff_right hid]
      cases hnext : bases.find? id with
      | none => cases n <;> simp [leadsTo, follow, hnext]
      | some next => simp only [ih, follow, hnext, Option.bind_some]

/-- The types that are listed as derived from themselves are those from which some steps lead back. -/
theorem mem_cyclicTypes : id ∈ m.cyclicTypes ↔ ∃ n, follow m.bases.find? (n + 1) id = some id := by
  refine List.mem_filter.trans ?_
  change id ∈ m.bases.keys ∧ leadsTo m.bases id m.bases.size (m.bases.find? id) = true ↔ _
  constructor
  · rintro ⟨-, hleads⟩
    cases hnext : m.bases.find? id with
    | none =>
      rw [hnext] at hleads
      cases hs : m.bases.size <;> rw [hs] at hleads <;> cases hleads
    | some next =>
      rw [hnext] at hleads
      obtain ⟨k, -, hk⟩ := leadsTo_iff.1 hleads
      exact ⟨k, by rw [follow, hnext, Option.bind_some, hk]⟩
  · rintro ⟨n, hround⟩
    obtain ⟨k, hk, hround⟩ : ∃ k < m.bases.keys.length, follow m.bases.find? (k + 1) id = some id :=
      exists_short_circle (fun _ _ => mem_keys_bases) hround
    obtain ⟨next, hnext, hround⟩ := Option.bind_eq_some_iff.1 hround
    rw [hnext]
    exact ⟨mem_keys_bases hnext, leadsTo_iff.2 ⟨k, m.bases.length_keys ▸ hk, hround⟩⟩

/-- Where no type is derived from itself, the way up through the types of the module ends. -/
theorem follow_bases (h : m.cyclicTypes = []) (id : ItemId) : follow m.bases.find? (m.bases.size + 1) id = none := by
  rw [← m.bases.length_keys]
  refine follow_eq_none (fun _ _ => mem_keys_bases) ?_ id
  rintro id last n - hfollow rfl
  have hmember : last ∈ m.cyclicTypes := mem_cyclicTypes.2 ⟨n, hfollow⟩
  rw [h] at hmember
  cases hmember

end Module

/-! ### The script's types with those of other modules -/

namespace Registry

variable {reg refs : Registry} {m : Module} {id : ItemId} {n : Nat}
variable {r : TypeRecord}

theorem type?_cons_own (h : m.types.find? id = some r) : type? (m :: refs) id = some r := by
  simp [type?, h]

theorem type?_cons_other (h : m.types.find? id = none) : type? (m :: refs) id = refs.type? id := by
  simp [type?, h]

theorem baseId?_cons_own (hm : m.types.keys.Nodup) (h : m.types.find? id = some r) :
    baseId? (m :: refs) id = m.bases.find? id := by
  rw [baseId?, type?_cons_own h, Module.find?_bases hm, h]

/-- A chain that has left the script's types stays outside. -/
theorem Outside.follow_eq (h : refs.Outside m) (hid : m.types.find? id = none) :
    follow (baseId? (m :: refs)) n id = follow refs.baseId? n id := by
  induction n generalizing id with
  | zero => rfl
  | succ n ih =>
    have hstep : baseId? (m :: refs) id = refs.baseId? id := by rw [baseId?, type?_cons_other hid, baseId?]
    rw [follow, follow, hstep]
    cases hnext : refs.baseId? id with
    | none => rfl
    | some next =>
      obtain ⟨r, hr, hbase⟩ := Option.bind_eq_some_iff.1 hnext
      obtain ⟨b, hb, hhead⟩ := Option.bind_eq_some_iff.1 hbase
      exact ih ((h id r b hid hr hb).2 next hhead)

theorem derives_cons (hm : m.Derives) (h : refs.Outside m) : Derives (m :: refs) := by
  intro id r b hr hb
  cases hid : m.types.find? id with
  | some r' =>
    rw [type?_cons_own hid] at hr
    cases hr
    exact hm.bases id r b hid hb
  | none =>
    rw [type?_cons_other hid] at hr
    exact (h id r b hid hr hb).1

/-- Every chain of declarations ends: it runs through types of the script, and then through others. -/
theorem Outside.ends (h : refs.Outside m) (hm : m.types.keys.Nodup) (hc : m.cyclicTypes = [])
    (hrefs : ∀ t, ∃ n, follow refs.baseOf n t = none) (id : ItemId) : ∃ n, follow (baseId? (m :: refs)) n id = none := by
  have hown := Module.follow_bases hc id
  generalize m.bases.size + 1 = k at hown
  induction k generalizing id with
  | zero => cases hown
  | succ k ih =>
    cases hid : m.types.find? id with
    | none =>
      obtain ⟨n, hn⟩ := hrefs (.nominal id [])
      refine ⟨n, ?_⟩
      rw [h.follow_eq hid]
      cases hlast : follow refs.baseId? n id with
      | none => rfl
      | some last =>
        obtain ⟨levels, hlevels⟩ := follow_baseOf hlast []
        rw [hn] at hlevels
        cases hlevels
    | some r =>
      cases hnext : m.bases.find? id with
      | none => exact ⟨1, by rw [follow, baseId?_cons_own hm hid, hnext, Option.bind_none]⟩
      | some next =>
        rw [follow, hnext, Option.bind_some] at hown
        obtain ⟨n, hn⟩ := ih next hown
        exact ⟨n + 1, by rw [follow, baseId?_cons_own hm hid, hnext, Option.bind_some, hn]⟩

/-! ### The length of chains -/

/-- The declared types that have a base. -/
def derivedIds (reg : Registry) : List ItemId :=
  ((reg.flatMap fun m => m.types.entries).filter fun e => e.2.base.isSome).map (·.1)

theorem length_derivedIds_le (reg : Registry) : reg.derivedIds.length ≤ reg.baseWeight := by
  have hvalues : (reg.flatMap fun m => m.types.values) = (reg.flatMap fun m => m.types.entries).map (·.2) := by
    simp [List.map_flatMap, Table.values]
  rw [derivedIds, baseWeight, hvalues, List.length_map]
  induction reg.flatMap fun m => m.types.entries with
  | nil => simp
  | cons e rest ih =>
    rw [List.map_cons, List.foldr_cons]
    cases hb : e.2.base with
    | none => simpa [List.filter_cons, hb] using ih
    | some b =>
      have hpos : 0 < b.size := List.length_pos_of_mem b.mem_parts_self
      simp only [List.filter_cons, hb, Option.isSome_some, if_true, List.length_cons, Option.map_some, Option.getD_some]
      omega

theorem mem_derivedIds {b : Ty} (hr : reg.type? id = some r) (hb : r.base = some b) : id ∈ reg.derivedIds := by
  obtain ⟨m, hm, hfound⟩ := List.exists_of_findSome?_eq_some hr
  refine List.mem_map.2 ⟨(id, r), List.mem_filter.2 ⟨List.mem_flatMap.2 ⟨m, hm, Table.mem_of_findIn hfound⟩, ?_⟩, rfl⟩
  simp [hb]

/-- The way up from a declaration ends, where it never comes back to where it was. -/
theorem ends_of_acyclic (h : ∀ id n, follow reg.baseId? (n + 1) id ≠ some id) (id : ItemId) :
    ∃ n, follow reg.baseId? n id = none := by
  have hkeys : ∀ id next, reg.baseId? id = some next → id ∈ reg.derivedIds := by
    intro id next hnext
    obtain ⟨r, hr, hbase⟩ := Option.bind_eq_some_iff.1 hnext
    obtain ⟨b, hb, -⟩ := Option.bind_eq_some_iff.1 hbase
    exact mem_derivedIds hr hb
  refine ⟨_, follow_eq_none hkeys (fun id next n _ hnext heq => ?_) id⟩
  rw [heq] at hnext
  exact h id n hnext

/-- Where the chains of declarations end, those of types take no more steps than there are types with a base. -/
theorem follow_derivedIds (hreg : reg.Derives) (hends : ∀ id, ∃ n, follow reg.baseId? n id = none) (t : Ty) :
    follow reg.baseOf (reg.derivedIds.length + 1) t = none := by
  have hkeys : ∀ t u, reg.baseOf t = some u → t.head? ∈ reg.derivedIds.map some := by
    intro t u h
    obtain ⟨id, levels, r, b, rfl, hr, hb, -⟩ := baseOf_eq_some h
    exact List.mem_map_of_mem (mem_derivedIds hr hb)
  have hcircle : ∀ t u n, n < (reg.derivedIds.map some).length → follow reg.baseOf (n + 1) t = some u → u.head? ≠ t.head? := by
    intro t u n _ h heq
    obtain ⟨v, hv, -⟩ := Option.bind_eq_some_iff.1 h
    obtain ⟨id, hid, -⟩ := head?_baseOf hreg hv
    obtain ⟨id', hid', hback⟩ := head?_follow hreg h (heq.trans hid)
    cases hid.symm.trans hid'
    obtain ⟨k, hk⟩ := hends id
    exact follow_ne_self hk hback
  simpa using follow_eq_none hkeys hcircle t

/-- Where the chains of declarations end, those of types do so within the limit of a climb. -/
theorem follow_baseOf_limit (hreg : reg.Derives) (hends : ∀ id, ∃ n, follow reg.baseId? n id = none) (t : Ty) :
    follow reg.baseOf (reg.climbLimit t) t = none := by
  refine follow_eq_none_of_le (follow_derivedIds hreg hends t) ?_
  have hsize : 0 < t.size := List.length_pos_of_mem t.mem_parts_self
  have hpow : reg.baseWeight + 1 ≤ Nat.pow (reg.baseWeight + 1) (reg.baseWeight + 1) := Nat.le_self_pow (by omega) _
  calc reg.derivedIds.length + 1 ≤ reg.baseWeight + 1 := Nat.succ_le_succ reg.length_derivedIds_le
    _ ≤ Nat.pow (reg.baseWeight + 1) (reg.baseWeight + 1) := hpow
    _ ≤ reg.climbLimit t := Nat.le_mul_of_pos_left _ hsize

/-- A climb along a chain that ends is not changed by a higher limit. -/
theorem climbWithin_of_ends {α : Type} {visit : Ty → Option α} {t : Ty} {n k : Nat} (h : follow reg.baseOf n t = none)
    (hle : n ≤ k) : reg.climbWithin visit k t = reg.climbWithin visit n t := by
  induction n generalizing t k with
  | zero => cases h
  | succ n ih =>
    obtain ⟨k, rfl⟩ : ∃ k', k = k' + 1 := ⟨k - 1, by omega⟩
    rw [climbWithin, climbWithin]
    cases visit t with
    | some a => rfl
    | none =>
      rw [follow] at h
      cases hb : reg.baseOf t with
      | none => simp
      | some base =>
        rw [hb, Option.bind_some] at h
        simpa using ih h (by omega)

/-- A climb along a chain that ends within the limit is not changed by the steps that it has left. -/
theorem climbWithin_eq_climb [Patience] {α : Type} {visit : Ty → Option α} {t : Ty} {limit : Nat}
    (h : follow reg.baseOf (reg.climbLimit t) t = none) (hle : reg.climbLimit t ≤ limit) :
    reg.climbWithin visit limit t = reg.climb visit t :=
  (climbWithin_of_ends h hle).trans (climbWithin_of_ends h (Nat.le_add_right _ _)).symm

end Registry

/-! ### The records of a script -/

namespace Module.Derives

variable {m : Module}

theorem empty (name : String) : (Module.empty name).Derives :=
  ⟨List.nodup_nil, fun id r b h => by cases h⟩

theorem putType (h : m.Derives) {r : TypeRecord} (hr : ∀ b, r.base = some b → b.param? = none) : (m.putType r).Derives where
  keys := Table.nodup_keys_insert h.keys r.id r
  bases := by
    intro id r' b hfound hb
    rw [Module.putType, Table.find?_insert] at hfound
    split at hfound
    · cases hfound
      exact hr b hb
    · exact h.bases id r' b hfound hb

end Module.Derives

theorem Module.Grows.derives {m m' : Module} {ds : List (ItemId × FuncDecl)} (h : m.Grows ds m') (hm : m.Derives) :
    m'.Derives := by
  induction h with
  | refl => exact hm
  | type _ _ _ hbase ih => exact ih.putType hbase
  | func _ _ _ _ ih => exact ⟨ih.keys, ih.bases⟩
  | var _ _ _ ih => exact ⟨ih.keys, ih.bases⟩

namespace Check

variable {ctx : Context} {s s' : State} {m m' : Module}

/-- The types that a script declares are derived from declared types. -/
theorem declareElements_derives (script : Script) (hm : m.Derives) (h : declareElements ctx script m s = .ok (m', s')) :
    m'.Derives := (declareElements_grows h).derives hm

theorem rejectCycles_eq_true (h : rejectCycles ctx m s = .ok (true, s')) : m.cyclicTypes = [] := by
  obtain ⟨_, _, -, h⟩ := bind_eq_ok.1 h
  exact List.isEmpty_iff.1 (pure_eq_ok.1 h).1

end Check

/-! ### Two scripts with bases in another module -/

/-- Chains of at most one step end, which is said by the records alone. -/
theorem Registry.follow_two {reg : Registry} (h : ∀ m ∈ reg, ∀ r ∈ m.types.values, ∀ b ∈ r.base,
    b.param? = none ∧ ∀ id ∈ b.head?, (reg.type? id).bind (·.base) = none) (t : Ty) : follow reg.baseOf 2 t = none := by
  rw [follow]
  cases hu : reg.baseOf t with
  | none => rfl
  | some u =>
    obtain ⟨id, levels, r, b, rfl, hr, hb, rfl⟩ := baseOf_eq_some hu
    obtain ⟨m, hm, hfound⟩ := List.exists_of_findSome?_eq_some hr
    obtain ⟨hparam, hlast⟩ := h m hm r (Table.mem_values_of_find? hfound) b hb
    cases hv : reg.baseOf (reg.applyIn id levels b) with
    | none => simp [follow, hv]
    | some v =>
      obtain ⟨id', levels', r', b', heq, hr', hb', -⟩ := baseOf_eq_some hv
      have hhead : b.head? = some id' := by rw [← Ty.head?_substitute hparam, ← applyIn, heq]; rfl
      have hnone := hlast id' hhead
      rw [hr', Option.bind_some, hb'] at hnone
      cases hnone

namespace Sample

/-- The id of a type without parameters. -/
def plainId (module name : String) : ItemId := (ItemId.root module).child (.text name) 0

/-- A class without parameters. -/
def plainClass (module name : String) (base : Option Ty) : TypeRecord := ⟨plainId module name, .classType, [], base, []⟩

/-- `class Shape` and `class Round : Shape` -/
def shapes : Module :=
  ((Module.empty "Shapes").putType (plainClass "Shapes" "Shape" none)).putType
    (plainClass "Shapes" "Round" (some (.nominal (plainId "Shapes" "Shape") [[]])))

/-- `class Ring : Round` and `class Band : Ring` -/
def rings : Script :=
  [.type (.mk (nd 0) .classDecl "Ring" [] (some (.named (nd 1) "Round" [])) []),
    .type (.mk (nd 2) .classDecl "Band" [] (some (.named (nd 3) "Ring" [])) [])]

/-- The context of the declarations of `rings`. -/
def ringContext : Context := (Setup.mk "Sample" [shapes] captures).contextFor rings

theorem rings_built : ∃ m u v, Check.declareElements ringContext rings (.empty "Sample") .initial = .ok (m, u) ∧
    Check.rejectCycles ringContext m u = .ok (true, v) ∧ m.types.find? (plainId "Shapes" "Shape") = none := by
  have hrun : (Check.declareElements ringContext rings (.empty "Sample") .initial).toOption.any (fun r =>
      (Check.rejectCycles ringContext r.1 r.2).toOption.any (·.1) ∧
      r.1.types.find? (plainId "Shapes" "Shape") = none) = true := by
    decide +kernel
  cases hm : Check.declareElements ringContext rings (.empty "Sample") .initial with
  | error fault =>
    rw [hm] at hrun
    cases hrun
  | ok r =>
    obtain ⟨m, u⟩ := r
    rw [hm] at hrun
    obtain ⟨hc, hshape⟩ := of_decide_eq_true hrun
    cases hv : Check.rejectCycles ringContext m u with
    | error fault =>
      rw [hv] at hc
      cases hc
    | ok r =>
      obtain ⟨b, v⟩ := r
      rw [hv] at hc
      cases b with
      | true => exact ⟨m, u, v, rfl, hv, hshape⟩
      | false => cases hc

/-- `class Front : Back`, where `Back` is a type of another module. -/
def fronts : Module :=
  (Module.empty "Fronts").putType (plainClass "Fronts" "Front" (some (.nominal (plainId "Sample" "Back") [[]])))

/-- `class Back : Front` -/
def backs : Script := [.type (.mk (nd 0) .classDecl "Back" [] (some (.named (nd 1) "Front" [])) [])]

/-- The script refers to the module that its type is derived from. -/
def withFronts : Setup := ⟨"Sample", [fronts], captures⟩

end Sample

/-! ### The main statement -/

/-- Where the chains of bases of the referenced modules end and none of their bases is a type parameter or a type of the script,
all chains end once the script has a module: within the limit that climbs have, so that no climb is cut short. -/
theorem base_chains_end [Patience] (ctx : Context) (script : Script) (m : Module) (s u v : State)
    (hrefs : ∀ t, ∃ n, follow ctx.registry.baseOf n t = none)
    (hm : Check.declareElements ctx script (.empty ctx.moduleName) s = .ok (m, u))
    (hc : Check.rejectCycles ctx m u = .ok (true, v)) (ho : ctx.registry.Outside m) (t : Ty) :
    (∃ n, follow (Registry.baseOf (m :: ctx.registry)) n t = none) ∧
      ∀ (α : Type) (visit : Ty → Option α) (limit : Nat), Registry.climbLimit (m :: ctx.registry) t ≤ limit →
        Registry.climbWithin (m :: ctx.registry) visit limit t = Registry.climb (m :: ctx.registry) visit t := by
  have hderives := Check.declareElements_derives script (.empty ctx.moduleName) hm
  have hids := ho.ends hderives.keys (Check.rejectCycles_eq_true hc) hrefs
  have hends := Registry.follow_baseOf_limit (Registry.derives_cons hderives ho) hids t
  exact ⟨⟨_, hends⟩, fun α visit limit hle => Registry.climbWithin_eq_climb hends hle⟩

theorem sample_base_chains_end : (∀ t, ∃ n, follow Sample.ringContext.registry.baseOf n t = none) ∧
    ∃ m u v, Check.declareElements Sample.ringContext Sample.rings (.empty "Sample") .initial = .ok (m, u) ∧
      Check.rejectCycles Sample.ringContext m u = .ok (true, v) ∧
      ∀ t, ∃ n, follow (Registry.baseOf (m :: Sample.ringContext.registry)) n t = none := by
  have hrefs : ∀ t, ∃ n, follow Sample.ringContext.registry.baseOf n t = none :=
    fun t => ⟨2, Registry.follow_two (by decide +kernel) t⟩
  have hbases : ∀ m ∈ Sample.ringContext.registry, ∀ r ∈ m.types.values, ∀ b ∈ r.base,
      b = .nominal (Sample.plainId "Shapes" "Shape") [[]] := by decide +kernel
  obtain ⟨m, u, v, hm, hc, hshape⟩ := Sample.rings_built
  refine ⟨hrefs, m, u, v, hm, hc, fun t => (base_chains_end Sample.ringContext Sample.rings m .initial u v hrefs hm hc ?_ t).1⟩
  intro id r b _ hr hb
  obtain ⟨m', hm', hfound⟩ := List.exists_of_findSome?_eq_some hr
  rw [hbases m' hm' r (Table.mem_values_of_find? hfound) b hb]
  refine ⟨rfl, fun base hbase => ?_⟩
  cases hbase
  exact hshape

/-- A chain that comes back to the script through a referenced module goes on for ever, and the script has a module. -/
theorem chain_through_reference_never_ends :
    (∀ t, ∃ n, follow (Registry.baseOf [Builtin.declarations, Sample.fronts]) n t = none) ∧
      ∃ out, analyze Sample.withFronts Sample.backs = .ok (.ok out) ∧
        ∀ n, follow (Registry.baseOf [out.module, Builtin.declarations, Sample.fronts]) n
          (.nominal (Sample.plainId "Sample" "Back") [[]]) ≠ none := by
  refine ⟨fun t => ⟨2, Registry.follow_two (by decide +kernel) t⟩, ?_⟩
  have hrun : ((analyze Sample.withFronts Sample.backs).toOption.bind Except.toOption).any (fun out =>
      follow (Registry.baseOf [out.module, Builtin.declarations, Sample.fronts]) 2
        (.nominal (Sample.plainId "Sample" "Back") [[]]) = some (.nominal (Sample.plainId "Sample" "Back") [[]])) = true := by
    decide +kernel
  obtain ⟨out, h, hout⟩ := exists_output hrun
  exact ⟨out, h, fun n hn => follow_ne_self hn (of_decide_eq_true hout)⟩

end ScriptCheck
