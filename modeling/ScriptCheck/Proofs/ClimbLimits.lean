import ScriptCheck.Proofs.Instances
import Mathlib.Algebra.Order.BigOperators.Group.List
import Mathlib.Algebra.Order.Ring.Nat
import Mathlib.Data.Nat.Find

/-!
# No climb is cut short

A chain of bases that ends does so within the limit of a climb, also where a base is one of the derived type's own arguments, so
that a chain goes on with types that no declaration mentions. To count the steps of such a chain, types are taken for patterns,
and what is said of a pattern is said of all its instances at once. From a pattern the way up leads into a declared base; the
base, seen through the arguments, is a pattern in turn. It either has an end of its own, or leads to one of its parameters, and
then the way goes on with a smaller pattern, the argument. So the steps are counted by the size of the pattern and by how deep
bases stand within bases (`Registry.settles_or_nests`); and a base within itself leads round for ever.
-/

namespace ScriptCheck

theorem Ty.size_pos (t : Ty) : 0 < t.size := List.length_pos_of_mem t.mem_parts_self

theorem Ty.subst_empty (t : Ty) : t.subst .empty = t := subst_eq_self fun _ _ => rfl

/-- An argument is smaller than the type it is an argument of. -/
theorem Ty.size_lt_of_mem_levels (id : ItemId) {levels : Levels} {t : Ty} (h : t ∈ levels.flatten) :
    t.size < (Ty.nominal id levels).size := by
  have hlist : ∀ {l : List Ty}, t ∈ l → t.size ≤ (partsOfList l).length := by
    intro l hl
    induction l with
    | nil => cases hl
    | cons u us ih =>
      rw [partsOfList, List.length_append]
      rcases List.mem_cons.1 hl with rfl | hl
      · exact Nat.le_add_right _ _
      · exact Nat.le_add_left_of_le (ih hl)
  have hlevels : t.size ≤ (partsOfLevels levels).length := by
    induction levels with
    | nil => cases h
    | cons l ls ih =>
      rw [partsOfLevels, List.length_append]
      rcases List.mem_append.1 h with h | h
      · exact Nat.le_add_right_of_le (hlist h)
      · exact Nat.le_add_left_of_le (ih h)
  have hsize : (Ty.nominal id levels).size = (partsOfLevels levels).length + 1 := by simp [size, parts]
  omega

namespace Registry

variable {reg : Registry} {t p q b : Ty} {n : Nat}
variable {r : TypeRecord} {id : ItemId} {d : Nat}

/-! ### Declared bases -/

/-- The bases that the types of all modules declare. -/
def declaredBases (reg : Registry) : List Ty := (reg.flatMap fun m => m.types.values).filterMap (·.base)

theorem baseWeight_eq (reg : Registry) : reg.baseWeight = (reg.declaredBases.map Ty.size).sum := by
  unfold baseWeight declaredBases
  induction reg.flatMap fun m => m.types.values with
  | nil => rfl
  | cons r rs ih =>
    rw [List.foldr_cons, ih]
    cases hb : r.base with
    | none => simp [hb]
    | some b => simp [hb]

theorem length_declaredBases_le (reg : Registry) : reg.declaredBases.length ≤ reg.baseWeight := by
  rw [baseWeight_eq]
  induction reg.declaredBases with
  | nil => simp
  | cons b bs ih =>
    have hpos := b.size_pos
    rw [List.map_cons, List.sum_cons, List.length_cons]
    omega

theorem size_le_baseWeight (h : b ∈ reg.declaredBases) : b.size ≤ reg.baseWeight := by
  rw [baseWeight_eq]
  exact List.single_le_sum (fun _ _ => Nat.zero_le _) _ (List.mem_map_of_mem h)

theorem mem_declaredBases (hr : reg.type? id = some r) (hb : r.base = some b) : b ∈ reg.declaredBases := by
  obtain ⟨m, hm, hfound⟩ := List.exists_of_findSome?_eq_some hr
  exact List.mem_filterMap.2 ⟨r, List.mem_flatMap.2 ⟨m, hm, Table.mem_values_of_find? hfound⟩, hb⟩

/-! ### Patterns on the way up -/

/-- From every instance of `p` some steps up lead to an instance of `q`. -/
def Enters (reg : Registry) (p q : Ty) : Prop :=
  ∃ n, ∀ env, ∃ env', follow reg.baseOf (n + 1) (p.subst env) = some (q.subst env')

/-- After `n` steps up from any instance of `p` there is nothing more to come but what comes after one of the parameters. -/
def Settles (reg : Registry) (p : Ty) (n : Nat) : Prop :=
  (∀ env, follow reg.baseOf (n + 1) (p.subst env) = none) ∨
    ∃ ref, ∀ env, follow reg.baseOf n (p.subst env) = some ((Ty.param ref).subst env)

/-- From `p` the way leads into `d` declared bases, one within the other. -/
def Nests (reg : Registry) (p : Ty) (d : Nat) : Prop :=
  ∃ bs : List Ty, bs.length = d ∧ (∀ b ∈ bs, b ∈ reg.declaredBases) ∧ (p :: bs).Pairwise reg.Enters

theorem Enters.trans {r : Ty} (h : reg.Enters p q) (h' : reg.Enters q r) : reg.Enters p r := by
  obtain ⟨n, hn⟩ := h
  obtain ⟨k, hk⟩ := h'
  refine ⟨n + 1 + k, fun env => ?_⟩
  obtain ⟨env', hq⟩ := hn env
  obtain ⟨env'', hr⟩ := hk env'
  exact ⟨env'', by rw [Nat.add_assoc, follow_add, hq, Option.bind_some, hr]⟩

/-- What comes after steps that lead to an instance for the same parameters. -/
theorem Enters.after {r : Ty} (h : ∀ env, follow reg.baseOf n (p.subst env) = some (q.subst env)) (h' : reg.Enters q r) :
    reg.Enters p r := by
  obtain ⟨k, hk⟩ := h'
  refine ⟨n + k, fun env => ?_⟩
  obtain ⟨env', hr⟩ := hk env
  exact ⟨env', by rw [Nat.add_assoc, follow_add, h, Option.bind_some, hr]⟩

/-- A pattern within itself leads round for ever. -/
theorem Enters.never_ends (h : reg.Enters p p) (k : Nat) (env : Env) : follow reg.baseOf k (p.subst env) ≠ none := by
  obtain ⟨n, hn⟩ := h
  induction k using Nat.strongRecOn generalizing env with
  | _ k ih =>
    intro hnone
    obtain ⟨env', hround⟩ := hn env
    by_cases hle : k ≤ n + 1
    · rw [follow_eq_none_of_le hnone hle] at hround
      cases hround
    · obtain ⟨d, rfl⟩ : ∃ d, k = (n + 1) + d := ⟨k - (n + 1), by omega⟩
      rw [follow_add, hround] at hnone
      exact ih d (by omega) env' hnone

theorem Settles.after {k : Nat} (h : ∀ env, follow reg.baseOf n (p.subst env) = some (q.subst env)) (h' : reg.Settles q k) :
    reg.Settles p (n + k) := by
  rcases h' with hends | ⟨ref, href⟩
  · exact .inl fun env => by rw [Nat.add_assoc, follow_add, h, Option.bind_some, hends]
  · exact .inr ⟨ref, fun env => by rw [follow_add, h, Option.bind_some, href]⟩

theorem Nests.after (h : ∀ env, follow reg.baseOf n (p.subst env) = some (q.subst env)) (h' : reg.Nests q d) :
    reg.Nests p d := by
  obtain ⟨bs, hlength, hbases, hpairs⟩ := h'
  obtain ⟨hq, hbs⟩ := List.pairwise_cons.1 hpairs
  exact ⟨bs, hlength, hbases, List.pairwise_cons.2 ⟨fun b hb => (hq b hb).after h, hbs⟩⟩

theorem Nests.cons (hb : b ∈ reg.declaredBases) (hp : reg.Enters p b) (h : reg.Nests b d) : reg.Nests p (d + 1) := by
  obtain ⟨bs, rfl, hbases, hpairs⟩ := h
  obtain ⟨hall, -⟩ := List.pairwise_cons.1 hpairs
  refine ⟨b :: bs, rfl, List.forall_mem_cons.2 ⟨hb, hbases⟩, List.pairwise_cons.2 ⟨fun q hq => ?_, hpairs⟩⟩
  rcases List.mem_cons.1 hq with rfl | hq
  · exact hp
  · exact hp.trans (hall q hq)

/-- A pattern without a declared base is at its end. -/
theorem settles_zero (h : ∀ env, reg.baseOf (p.subst env) = none) : reg.Settles p 0 :=
  .inl fun env => by rw [follow, h, Option.bind_none]

theorem baseOf_nominal (reg : Registry) (id : ItemId) (levels : Levels) :
    reg.baseOf (.nominal id levels) = ((reg.type? id).bind (·.base)).map (reg.applyIn id levels) := by
  cases hr : reg.type? id with
  | none => simp [baseOf, hr]
  | some r => cases hb : r.base <;> simp [baseOf, hr, hb]

/-- One step up from an instance of a declared type leads to an instance of its base. -/
theorem follow_base (hr : reg.type? id = some r) (hb : r.base = some b) (levels : Levels)
    (env : Env) : follow reg.baseOf 1 ((Ty.nominal id levels).subst env) =
      some (b.subst (reg.bindings id (Ty.substLevels env levels))) := by
  simp [follow, Ty.subst, baseOf_nominal, hr, hb, applyIn, Ty.substitute_eq_subst]

/-- Where a base comes to an end or to a parameter, the type that declares it comes to an end after one step more, or to one of
its arguments. -/
theorem settles_base (hr : reg.type? id = some r) (hb : r.base = some b)
    (h : reg.Settles b n) (levels : Levels) : reg.Settles (.nominal id levels) (n + 1) ∨
      ∃ q ∈ levels.flatten, ∀ env, follow reg.baseOf (n + 1) ((Ty.nominal id levels).subst env) = some (q.subst env) := by
  have hstep := follow_base hr hb levels
  rcases h with hends | ⟨ref, href⟩
  · refine .inl (.inl fun env => ?_)
    rw [Nat.add_comm, follow_add, hstep, Option.bind_some, hends]
  · have hto : ∀ env, follow reg.baseOf (n + 1) ((Ty.nominal id levels).subst env) =
        some ((Ty.param ref).subst (reg.bindings id (Ty.substLevels env levels))) := by
      intro env
      rw [Nat.add_comm, follow_add, hstep, Option.bind_some, href]
    cases hbound : (reg.bindings id levels).find? ref with
    | none =>
      -- A parameter for which there is no argument has no base.
      refine .inl (.inl fun env => ?_)
      rw [follow_add, hto, Option.bind_some, Ty.subst, bindings_subst, hbound]
      rfl
    | some q =>
      refine .inr ⟨q, ?_, fun env => ?_⟩
      · exact bindings_inherits (Q := (· ∈ levels.flatten)) (fun _ h => h) q (Table.mem_values_of_find? hbound)
      · rw [hto, Ty.subst, bindings_subst, hbound, Option.map_some, Option.getD_some]

/-- Where each declared base is done with in fewer than `k` steps or leads on into `d` bases, a pattern is done with in fewer
than `k` steps for each of its parts, or leads into one base more. -/
theorem settles_or_nests_step {k d : Nat} (hk : 0 < k)
    (hbases : ∀ b ∈ reg.declaredBases, (∃ n, n + 1 < k ∧ reg.Settles b n) ∨ reg.Nests b d) (p : Ty) :
    (∃ n, n < p.size * k ∧ reg.Settles p n) ∨ reg.Nests p (d + 1) := by
  have hpos : ∀ p : Ty, 0 < p.size * k := fun p => Nat.mul_pos p.size_pos hk
  -- By induction on the size: an argument is a smaller pattern.
  induction hsize : p.size using Nat.strongRecOn generalizing p with
  | _ size ih =>
    subst hsize
    cases p with
    | param ref => exact .inl ⟨0, hpos _, .inr ⟨ref, fun _ => rfl⟩⟩
    | nominal id levels =>
      cases hbase : (reg.type? id).bind (·.base) with
      | none =>
        refine .inl ⟨0, hpos _, settles_zero fun env => ?_⟩
        rw [Ty.subst, baseOf_nominal, hbase, Option.map_none]
      | some b =>
        obtain ⟨r, hr, hb⟩ := Option.bind_eq_some_iff.1 hbase
        have hmem := mem_declaredBases hr hb
        rcases hbases b hmem with ⟨n, hn, hsettles⟩ | hnests
        · rcases settles_base hr hb hsettles levels with hdone | ⟨q, hq, hto⟩
          · exact .inl ⟨n + 1, Nat.lt_of_lt_of_le hn (Nat.le_mul_of_pos_left k (Ty.size_pos _)), hdone⟩
          · have hlt := Ty.size_lt_of_mem_levels id hq
            rcases ih q.size hlt q rfl with ⟨m, hm, hsettles⟩ | hnests
            · refine .inl ⟨n + 1 + m, ?_, hsettles.after hto⟩
              calc n + 1 + m < k + q.size * k := Nat.add_lt_add hn hm
                _ = (q.size + 1) * k := by rw [Nat.succ_mul, Nat.add_comm]
                _ ≤ (Ty.nominal id levels).size * k := Nat.mul_le_mul_right k hlt
            · exact .inr (hnests.after hto)
        · have henters : reg.Enters (.nominal id levels) b := ⟨0, fun env => ⟨_, follow_base hr hb levels env⟩⟩
          exact .inr (hnests.cons hmem henters)
    | _ => exact .inl ⟨0, hpos _, settles_zero fun _ => rfl⟩

/-- The way up from a pattern is done with soon, or it leads into many bases, one within the other. -/
theorem settles_or_nests (reg : Registry) (d : Nat) (p : Ty) :
    (∃ n, n < p.size * (reg.baseWeight + 1) ^ d ∧ reg.Settles p n) ∨ reg.Nests p (d + 1) := by
  induction d generalizing p with
  | zero => exact settles_or_nests_step (by simp) (fun b _ => .inr ⟨[], rfl, by simp, List.pairwise_singleton _ b⟩) p
  | succ d ih =>
    have hpow : 0 < (reg.baseWeight + 1) ^ d := Nat.pow_pos (by omega)
    refine settles_or_nests_step (Nat.pow_pos (by omega)) (fun b hb => (ih b).imp_left ?_) p
    rintro ⟨n, hn, hsettles⟩
    refine ⟨n, ?_, hsettles⟩
    calc n + 1 ≤ b.size * (reg.baseWeight + 1) ^ d := hn
      _ ≤ reg.baseWeight * (reg.baseWeight + 1) ^ d := Nat.mul_le_mul_right _ (size_le_baseWeight hb)
      _ < reg.baseWeight * (reg.baseWeight + 1) ^ d + (reg.baseWeight + 1) ^ d := by omega
      _ = (reg.baseWeight + 1) ^ (d + 1) := by rw [← Nat.succ_mul, Nat.pow_succ, Nat.mul_comm]

/-- From a type whose chain ends no declared base leads to itself, so there are no more bases within bases than declared
ones. -/
theorem Nests.le_of_ends (h : reg.Nests t d) (hends : ∃ n, follow reg.baseOf n t = none) : d ≤ reg.declaredBases.length := by
  obtain ⟨bs, rfl, hbases, hpairs⟩ := h
  obtain ⟨hall, hbs⟩ := List.pairwise_cons.1 hpairs
  obtain ⟨k, hk⟩ := hends
  have hself : ∀ b ∈ bs, ¬reg.Enters b b := by
    intro b hb hround
    obtain ⟨n, hn⟩ := hall b hb
    obtain ⟨env, henv⟩ := hn .empty
    rw [Ty.subst_empty] at henv
    have hlater : follow reg.baseOf (n + 1 + k) t = none := follow_eq_none_of_le hk (by omega)
    rw [follow_add, henv, Option.bind_some] at hlater
    exact hround.never_ends k env hlater
  have hnodup : bs.Nodup := by
    refine hbs.imp_of_mem fun {a b} ha _ hab heq => ?_
    subst heq
    exact hself a ha hab
  exact (List.subperm_of_subset hnodup hbases).length_le

/-- A chain of bases that ends does so within the limit of a climb. -/
theorem follow_climbLimit (hends : ∃ n, follow reg.baseOf n t = none) : follow reg.baseOf (reg.climbLimit t) t = none := by
  rcases reg.settles_or_nests reg.baseWeight t with ⟨n, hn, hsettles⟩ | hnests
  · have hend : follow reg.baseOf (n + 1) t = none := by
      rcases hsettles with hends | ⟨ref, href⟩
      · simpa only [Ty.subst_empty] using hends .empty
      · have hto := href .empty
        rw [Ty.subst_empty] at hto
        rw [follow_add, hto]
        rfl
    refine follow_eq_none_of_le hend ?_
    calc n + 1 ≤ t.size * (reg.baseWeight + 1) ^ reg.baseWeight := hn
      _ ≤ reg.climbLimit t := Nat.mul_le_mul_left _ (Nat.pow_le_pow_right (by omega) (by omega))
  · have hle := hnests.le_of_ends hends
    have hlength := reg.length_declaredBases_le
    omega

/-- A chain of bases that ends does so before a climb is given up. -/
theorem follow_reach [Patience] (hends : ∃ n, follow reg.baseOf n t = none) : follow reg.baseOf (reg.reach t) t = none :=
  follow_eq_none_of_le (follow_climbLimit hends) (Nat.le_add_right _ _)

/-! ### What a climb finds -/

/-- `k` steps up from `t` stands `u`, the first type on the way of which `P` holds. -/
structure First (reg : Registry) (P : Ty → Prop) (t : Ty) (k : Nat) (u : Ty) : Prop where
  reached : follow reg.baseOf k t = some u
  holds : P u
  before : ∀ j v, j < k → follow reg.baseOf j t = some v → ¬P v

namespace First

variable {P Q : Ty → Prop} {u v : Ty} {k j : Nat}

theorem le (h : reg.First P t k u) (hv : follow reg.baseOf j t = some v) (hP : P v) : k ≤ j := by
  by_contra hlt
  exact h.before j v (by omega) hv hP

theorem unique (h : reg.First P t k u) (h' : reg.First P t j v) : k = j ∧ u = v := by
  obtain rfl : k = j := Nat.le_antisymm (h.le h'.reached h'.holds) (h'.le h.reached h.holds)
  exact ⟨rfl, Option.some.inj (h.reached.symm.trans h'.reached)⟩

theorem mono (h : reg.First P t k u) (hu : Q u) (hQ : ∀ v, Q v → P v) : reg.First Q t k u :=
  ⟨h.reached, hu, fun j v hj hv hq => h.before j v hj hv (hQ v hq)⟩

theorem succ {base : Ty} (hb : reg.baseOf t = some base) (ht : ¬P t) (h : reg.First P base k u) : reg.First P t (k + 1) u := by
  refine ⟨by rw [follow, hb, Option.bind_some, h.reached], h.holds, fun j v hj hv => ?_⟩
  cases j with
  | zero =>
    cases hv
    exact ht
  | succ j =>
    rw [follow, hb, Option.bind_some] at hv
    exact h.before j v (by omega) hv

end First

/-- Where there is such a type on the way there is a first one. -/
theorem exists_first {P : Ty → Prop} {k : Nat} {u : Ty} (hu : follow reg.baseOf k t = some u) (hP : P u) :
    ∃ j v, j ≤ k ∧ reg.First P t j v := by
  classical
  let Stands (j : Nat) : Prop := ∃ v, follow reg.baseOf j t = some v ∧ P v
  have hex : ∃ j, Stands j := ⟨k, u, hu, hP⟩
  obtain ⟨v, hv, hPv⟩ := Nat.find_spec hex
  refine ⟨Nat.find hex, v, Nat.find_min' hex ⟨u, hu, hP⟩, hv, hPv, fun j w hj hw hPw => ?_⟩
  exact Nat.find_min hex hj ⟨w, hw, hPw⟩

/-- A climb within a limit that the chain keeps to gives what is found at the first type at which anything is found. -/
theorem climbWithin_cases {α : Type} (visit : Ty → Option α) {limit : Nat} (hends : follow reg.baseOf limit t = none) :
    (∃ k u a, reg.First (visit · ≠ none) t k u ∧ visit u = some a ∧ reg.climbWithin visit limit t = some a) ∨
      (∀ k u, follow reg.baseOf k t = some u → visit u = none) ∧ reg.climbWithin visit limit t = none := by
  induction limit generalizing t with
  | zero => cases hends
  | succ limit ih =>
    rw [climbWithin]
    cases ht : visit t with
    | some a => exact .inl ⟨0, t, a, ⟨rfl, by simp [ht], fun j v hj => by omega⟩, ht, rfl⟩
    | none =>
      rw [follow] at hends
      cases hb : reg.baseOf t with
      | none =>
        refine .inr ⟨fun k u hu => ?_, by simp⟩
        cases k with
        | zero =>
          cases hu
          exact ht
        | succ k =>
          rw [follow, hb] at hu
          cases hu
      | some base =>
        rw [hb, Option.bind_some] at hends
        rcases ih hends with ⟨k, u, a, hfirst, ha, hclimb⟩ | ⟨hnone, hclimb⟩
        · exact .inl ⟨k + 1, u, a, hfirst.succ hb (by simp [ht]), ha, by simpa using hclimb⟩
        · refine .inr ⟨fun k u hu => ?_, by simpa using hclimb⟩
          cases k with
          | zero =>
            cases hu
            exact ht
          | succ k =>
            rw [follow, hb, Option.bind_some] at hu
            exact hnone k u hu

/-- A climb along a chain that ends gives what is found at the first type at which anything is found. -/
theorem climb_cases [Patience] {α : Type} (visit : Ty → Option α) (hends : ∃ n, follow reg.baseOf n t = none) :
    (∃ k u a, reg.First (visit · ≠ none) t k u ∧ visit u = some a ∧ reg.climb visit t = some a) ∨
      (∀ k u, follow reg.baseOf k t = some u → visit u = none) ∧ reg.climb visit t = none :=
  climbWithin_cases visit (follow_reach hends)

end Registry

end ScriptCheck
