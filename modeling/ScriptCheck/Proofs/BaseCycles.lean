import ScriptCheck.Proofs.DeclarationOrder
import ScriptCheck.Proofs.ScopedRecords

/-!
# Types that are derived from themselves

From each type of the script the bases are followed for as many steps as there are types with a base. That is enough: a way back
to its start that takes longer comes through one type twice, and the part in between can be left out. So the types that are
reported are those on a circle. A type whose way up only leads into a circle does not come back to itself and is not reported.
-/

namespace ScriptCheck

/-! ### The types on a circle -/

namespace Module

variable {m : Module} {id : ItemId}

/-- The type `id` of the module has a base, and `base` is the declaration that it is an instance of. -/
def DerivedFrom (m : Module) (id base : ItemId) : Prop :=
  ∃ r t, m.types.find? id = some r ∧ r.base = some t ∧ t.head? = some base

theorem derivedFrom_iff (hm : m.types.keys.Nodup) {base : ItemId} : m.DerivedFrom id base ↔ m.bases.find? id = some base := by
  rw [find?_bases hm]
  simp only [DerivedFrom, Option.bind_eq_some_iff]
  constructor
  · rintro ⟨r, t, hr, ht, hbase⟩
    exact ⟨r, hr, t, ht, hbase⟩
  · rintro ⟨r, hr, t, ht, hbase⟩
    exact ⟨r, t, hr, ht, hbase⟩

/-- The types that are listed as derived from themselves are those on a circle of bases. -/
theorem mem_cyclicTypes_iff (hm : m.types.keys.Nodup) : id ∈ m.cyclicTypes ↔ Relation.TransGen m.DerivedFrom id id := by
  have hsteps : m.DerivedFrom = fun id base => m.bases.find? id = some base :=
    funext fun id => funext fun base => propext (derivedFrom_iff hm)
  rw [mem_cyclicTypes, exists_follow_succ_iff, hsteps]

theorem nodup_cyclicTypes (hm : m.types.keys.Nodup) : m.cyclicTypes.Nodup :=
  (hm.sublist m.keys_bases_sublist).filter _

theorem cyclicTypes_subset (m : Module) : m.cyclicTypes ⊆ m.types.keys :=
  fun _ h => m.keys_bases_sublist.subset (List.mem_filter.1 h).1

end Module

/-! ### The order of the reports -/

theorem insertByNode_sorted {e : ItemId × Node} {l : List (ItemId × Node)} (h : l.Pairwise fun e e' => e.2.id ≤ e'.2.id) :
    (insertByNode e l).Pairwise fun e e' => e.2.id ≤ e'.2.id := by
  induction l with
  | nil => exact List.pairwise_singleton ..
  | cons f rest ih =>
    obtain ⟨hf, hrest⟩ := List.pairwise_cons.1 h
    rw [insertByNode]
    split
    · rename_i hle
      refine List.pairwise_cons.2 ⟨fun g hg => ?_, h⟩
      rcases List.mem_cons.1 hg with rfl | hg
      · exact hle
      · exact hle.trans (hf g hg)
    · rename_i hlt
      refine List.pairwise_cons.2 ⟨fun g hg => ?_, ih hrest⟩
      rcases List.mem_cons.1 ((Check.insertByNode_perm e rest).mem_iff.1 hg) with rfl | hg
      · exact Nat.le_of_not_le hlt
      · exact hf g hg

theorem Skeleton.inOrder_sorted (s : Skeleton) (ids : List ItemId) :
    (s.inOrder ids).Pairwise fun e e' => e.2.id ≤ e'.2.id := by
  unfold Skeleton.inOrder
  generalize (ids.filterMap fun id => (s.types.find? id).map fun t => (id, t.node)) = l
  induction l with
  | nil => exact .nil
  | cons e rest ih => exact insertByNode_sorted ih

theorem Skeleton.mem_inOrder {s : Skeleton} {ids : List ItemId} {e : ItemId × Node} :
    e ∈ s.inOrder ids ↔ e.1 ∈ ids ∧ ∃ t, s.types.find? e.1 = some t ∧ t.node = e.2 := by
  rw [(Check.inOrder_perm s ids).mem_iff, List.mem_filterMap]
  constructor
  · rintro ⟨id, hid, he⟩
    obtain ⟨t, ht, rfl⟩ := Option.map_eq_some_iff.1 he
    exact ⟨hid, t, ht, rfl⟩
  · rintro ⟨hid, t, ht, hnode⟩
    exact ⟨e.1, hid, by rw [ht, Option.map_some, hnode]⟩

/-- No type that is known is lost in the order. -/
theorem Skeleton.map_inOrder_perm {s : Skeleton} {ids : List ItemId} (h : ∀ id ∈ ids, ∃ t, s.types.find? id = some t) :
    ((s.inOrder ids).map (·.1)).Perm ids := by
  refine ((Check.inOrder_perm s ids).map _).trans (.of_eq ?_)
  rw [List.map_filterMap]
  refine (List.filterMap_congr fun id hid => ?_).trans List.filterMap_some
  obtain ⟨t, ht⟩ := h id hid
  rw [ht]
  rfl

/-! ### The nodes of the declared types -/

/-- The numbers of the nodes of the types among these declarations. -/
def typeNodes (ds : List (ItemId × Option DeclaredType)) : List Nat := ds.filterMap fun d => d.2.map (·.node.id)

theorem typeNodes_append (ds es : List (ItemId × Option DeclaredType)) : typeNodes (ds ++ es) = typeNodes ds ++ typeNodes es :=
  List.filterMap_append

/-- The types are declared at nodes of the declarations, each at its own. -/
theorem typeNodes_related : declaredLists.Related idLists (fun _ _ ds ns => (typeNodes ds).Sublist ns) where
  nil _ _ := .slnil
  append h h' := by
    rw [typeNodes_append]
    exact h.append h'
  func _ _ _ := List.nil_sublist _
  field _ _ _ := List.nil_sublist _
  case _ _ _ := List.nil_sublist _
  stmt _ _ _ := List.nil_sublist _
  type h := (h.trans (List.sublist_append_right _ _)).cons_cons _

/-- Where all node numbers differ, so do those of two declared types. -/
theorem Script.typeNodes_differ {root : ItemId} {script : Script} (h : script.ids.Nodup) {id id' : ItemId}
    {d d' : DeclaredType} (hd : (id, some d) ∈ script.declared root) (hd' : (id', some d') ∈ script.declared root)
    (hne : id ≠ id') : d.node.id ≠ d'.node.id := by
  have hnodes : (typeNodes (script.declared root)).Pairwise (· ≠ ·) :=
    h.sublist (typeNodes_related.of_script root [] {} {} script)
  have hsymm : Std.Symm fun e e' : ItemId × Option DeclaredType =>
      ∀ n, e.2.map (·.node.id) = some n → ∀ k, e'.2.map (·.node.id) = some k → n ≠ k :=
    ⟨fun e e' hdiffer n hn k hk => (hdiffer k hk n hn).symm⟩
  have hpair := (List.pairwise_filterMap.1 hnodes).forall hd hd' fun heq => hne (congrArg Prod.fst heq)
  exact hpair _ rfl _ rfl

/-! ### What is reported -/

/-- The types of a script's module are those that the script declares. -/
theorem Check.mem_types_iff {ctx : Context} {script : Script} {m : Module} {s t : State}
    (h : declareElements ctx script (.empty ctx.moduleName) s = .ok (m, t))
    (hdeclared : ((script.declared ctx.root).map (·.1)).Nodup) (id : ItemId) :
    id ∈ m.types.keys ↔ ∃ d, (id, some d) ∈ script.declared ctx.root := by
  obtain ⟨rss, hrss, rfl, hids⟩ := exists_records h hdeclared
  have hheads : (id, true) ∈ rss.flatten.map Record.head ↔ (id, true) ∈ (script.declared ctx.root).map declaredHead :=
    (heads_records hrss).mem_iff
  rw [Table.keys, Module.holds_types.entries hids]
  constructor
  · intro hid
    obtain ⟨e, he, rfl⟩ := List.mem_map.1 hid
    obtain ⟨r, hr, hpick⟩ := List.mem_filterMap.1 he
    cases r <;> cases hpick
    obtain ⟨⟨id, d⟩, hd, heq⟩ := List.mem_map.1 (hheads.1 (List.mem_map.2 ⟨_, hr, rfl⟩))
    cases d with
    | none => cases heq
    | some d => exact ⟨d, congrArg Prod.fst heq ▸ hd⟩
  · rintro ⟨d, hd⟩
    obtain ⟨r, hr, hhead⟩ := List.mem_map.1 (hheads.2 (List.mem_map.2 ⟨_, hd, rfl⟩))
    cases r <;> cases hhead
    exact List.mem_map.2 ⟨_, List.mem_filterMap.2 ⟨_, hr, rfl⟩, rfl⟩

/-- These are the types on a circle of bases, each once and with the node of its declaration, in the order of the nodes where
these have different numbers. -/
structure Script.ListsCycles (script : Script) (root : ItemId) (m : Module) (listed : List (ItemId × Node)) : Prop where
  mem : ∀ id, id ∈ listed.map (·.1) ↔ Relation.TransGen m.DerivedFrom id id
  once : (listed.map (·.1)).Nodup
  nodes : ∀ e ∈ listed, ∃ d, (e.1, some d) ∈ script.declared root ∧ d.node = e.2
  sorted : script.ids.Nodup → listed.Pairwise fun e e' => e.2.id < e'.2.id

theorem Script.inOrder_listsCycles {script : Script} {root : ItemId} {m : Module} (hm : m.types.keys.Nodup)
    (hsilent : (script.collect root).diagnostics = [])
    (hdeclared : ∀ id ∈ m.types.keys, ∃ d, (id, some d) ∈ script.declared root) :
    script.ListsCycles root m ((script.collect root).skeleton.inOrder m.cyclicTypes) := by
  have hknown : ∀ id ∈ m.cyclicTypes, ∃ d, (id, some d) ∈ script.declared root ∧
      (script.collect root).skeleton.types.find? id = some d := by
    intro id hid
    obtain ⟨d, hd⟩ := hdeclared id (m.cyclicTypes_subset hid)
    exact ⟨d, hd, collect_knows hsilent _ hd d rfl⟩
  have hids : (((script.collect root).skeleton.inOrder m.cyclicTypes).map (·.1)).Perm m.cyclicTypes := by
    refine Skeleton.map_inOrder_perm fun id hid => ?_
    obtain ⟨d, -, hfound⟩ := hknown id hid
    exact ⟨d, hfound⟩
  have honce := hids.nodup_iff.2 (Module.nodup_cyclicTypes hm)
  have hnodes : ∀ e ∈ (script.collect root).skeleton.inOrder m.cyclicTypes, ∃ d, (e.1, some d) ∈ script.declared root ∧
      d.node = e.2 := by
    intro e he
    obtain ⟨hid, t, ht, hnode⟩ := Skeleton.mem_inOrder.1 he
    obtain ⟨d, hd, hfound⟩ := hknown e.1 hid
    cases ht.symm.trans hfound
    exact ⟨_, hd, hnode⟩
  refine ⟨fun id => hids.mem_iff.trans (Module.mem_cyclicTypes_iff hm), honce, hnodes, fun hdiffer => ?_⟩
  refine ((Skeleton.inOrder_sorted _ _).and (List.pairwise_map.1 honce)).imp_of_mem ?_
  rintro e e' he he' ⟨hle, hne⟩
  obtain ⟨d, hd, hnode⟩ := hnodes e he
  obtain ⟨d', hd', hnode'⟩ := hnodes e' he'
  have hne' := typeNodes_differ hdiffer hd hd' hne
  rw [hnode, hnode'] at hne'
  exact Nat.lt_of_le_of_ne hle hne'

namespace Sample

/-- `class Pup : Dog`, `class Own : Own`, `class Cat : Dog` and `class Dog : Cat` -/
def circles : Script := [
  .type (.mk (nd 0) .classDecl "Pup" [] (some (.named (nd 1) "Dog" [])) []),
  .type (.mk (nd 6) .classDecl "Own" [] (some (.named (nd 7) "Own" [])) []),
  .type (.mk (nd 4) .classDecl "Cat" [] (some (.named (nd 5) "Dog" [])) []),
  .type (.mk (nd 2) .classDecl "Dog" [] (some (.named (nd 3) "Cat" [])) [])]

/-- The types of `circles` that are derived from themselves. -/
def circling : List (ItemId × Node) :=
  [(plainId "Sample" "Dog", nd 2), (plainId "Sample" "Cat", nd 4), (plainId "Sample" "Own", nd 6)]

end Sample

/-! ### The main statement -/

/-- In a script whose declarations can be collected, the types that come back to themselves by following declared bases are
reported and no others, each once and in the order of their declarations. The script has no module exactly if there are any. -/
theorem base_cycles_are_reported_exactly (setup : Setup) (script : Script)
    (hsilent : (script.collect (.root setup.moduleName)).diagnostics = []) :
    ((∀ m ∈ setup.modules, m.Built) → (∀ m ∈ setup.modules, ∀ t ∈ m.recordTypes, t.WellFormed) →
      ∃ m s, Check.declareElements (setup.contextFor script) script (.empty setup.moduleName) .initial = .ok (m, s)) ∧
    ∀ m s, Check.declareElements (setup.contextFor script) script (.empty setup.moduleName) .initial = .ok (m, s) →
      (∀ id, id ∈ m.types.keys ↔ ∃ d, (id, some d) ∈ script.declared (.root setup.moduleName)) ∧
      ∃ listed acyclic s', script.ListsCycles (.root setup.moduleName) m listed ∧
        s' = { s with diagnostics := s.diagnostics ++ listed.map fun e => ⟨.cyclicBaseType e.1, e.2⟩ } ∧
        Check.rejectCycles (setup.contextFor script) m s = .ok (acyclic, s') ∧
        (acyclic = false → Check.script (setup.contextFor script) script .initial = .ok (none, s')) ∧
        (acyclic = false ↔ ∃ id, Relation.TransGen m.DerivedFrom id id) := by
  constructor
  · intro hb ht
    obtain ⟨m, s, hrun, -⟩ := Check.declareElements_safe (Setup.contextFor_wellFormed hb ht script) script
      (.empty setup.moduleName) (Script.collect_types hsilent) State.initial_wellFormed
    exact ⟨m, s, hrun⟩
  · intro m s hrun
    have hm := (Check.declareElements_derives script (.empty setup.moduleName) hrun).keys
    have hdeclared := Check.mem_types_iff hrun ((collect_silent_iff _ script).1 hsilent).2
    have hlists := Script.inOrder_listsCycles hm hsilent fun id hid => (hdeclared id).1 hid
    have hreject := Check.rejectCycles_apply (setup.contextFor script) m s
    refine ⟨hdeclared, _, _, _, hlists, rfl, hreject, ?_, ?_⟩
    · intro hcyclic
      rw [hcyclic] at hreject
      exact Check.bind_eq_ok.2 ⟨m, s, hrun, Check.bind_eq_ok.2 ⟨false, _, hreject, rfl⟩⟩
    · rw [Bool.eq_false_iff, ne_eq, List.isEmpty_iff]
      constructor
      · intro hne
        obtain ⟨id, hid⟩ := List.exists_mem_of_ne_nil _ hne
        exact ⟨id, (Module.mem_cyclicTypes_iff hm).1 hid⟩
      · rintro ⟨id, hround⟩ hnil
        have hid := (Module.mem_cyclicTypes_iff hm).2 hround
        rw [hnil] at hid
        cases hid

/-- `Cat` and `Dog` are derived from each other and `Own` from itself. `Pup` is derived from `Dog` and is not reported. -/
theorem sample_base_cycles_are_reported_exactly : (Sample.circles.collect (.root Sample.alone.moduleName)).diagnostics = [] ∧
    ∃ m s s', Check.declareElements (Sample.alone.contextFor Sample.circles) Sample.circles (.empty Sample.alone.moduleName)
        .initial = .ok (m, s) ∧
      Check.rejectCycles (Sample.alone.contextFor Sample.circles) m s = .ok (false, s') ∧
      s'.diagnostics = Sample.circling.map (fun e => ⟨.cyclicBaseType e.1, e.2⟩) ∧
      Relation.TransGen m.DerivedFrom (Sample.plainId "Sample" "Dog") (Sample.plainId "Sample" "Dog") ∧
      ¬Relation.TransGen m.DerivedFrom (Sample.plainId "Sample" "Pup") (Sample.plainId "Sample" "Pup") := by
  have hsilent : (Sample.circles.collect (.root Sample.alone.moduleName)).diagnostics = [] := by decide +kernel
  obtain ⟨hruns, hexact⟩ := base_cycles_are_reported_exactly Sample.alone Sample.circles hsilent
  obtain ⟨m, s, hrun⟩ := hruns (by simp [Sample.alone]) (by simp [Sample.alone])
  obtain ⟨-, listed, acyclic, s', hlists, rfl, hreject, -, hcyclic⟩ := hexact m s hrun
  have hbefore : (Check.declareElements (Sample.alone.contextFor Sample.circles) Sample.circles
      (.empty Sample.alone.moduleName) .initial).toOption.map (·.2.diagnostics) = some [] := by decide +kernel
  have hafter : ((Check.declareElements (Sample.alone.contextFor Sample.circles) Sample.circles
      (.empty Sample.alone.moduleName) >>= Check.rejectCycles (Sample.alone.contextFor Sample.circles))
      .initial).toOption.map (·.2.diagnostics) =
      some (Sample.circling.map fun e => ⟨.cyclicBaseType e.1, e.2⟩) := by decide +kernel
  rw [hrun] at hbefore
  rw [Check.bind_ok hrun, hreject] at hafter
  have hnone : s.diagnostics = [] := Option.some.inj hbefore
  have hreported : s.diagnostics ++ listed.map (fun e => ⟨.cyclicBaseType e.1, e.2⟩) =
      Sample.circling.map fun e => ⟨.cyclicBaseType e.1, e.2⟩ := Option.some.inj hafter
  have hlisted : listed = Sample.circling := by
    rw [hnone, List.nil_append] at hreported
    refine List.map_injective_iff.2 ?_ hreported
    rintro ⟨id, node⟩ ⟨id', node'⟩ heq
    cases heq
    rfl
  have hdog := (hlists.mem (Sample.plainId "Sample" "Dog")).1 (by rw [hlisted]; decide)
  have hpup := (hlists.mem (Sample.plainId "Sample" "Pup")).not.1 (by rw [hlisted]; decide)
  exact ⟨hsilent, m, s, _, hrun, hcyclic.2 ⟨_, hdog⟩ ▸ hreject, hreported, hdog, hpup⟩

end ScriptCheck
