import ScriptCheck.Proofs.ClimbLimits
import ScriptCheck.Proofs.LevelArguments
import ScriptCheck.Proofs.WellTyped

/-!
# Elements that are assigned to

An element that is assigned to or stepped is read by one function of the object's type and written by another. The two are
looked up by themselves, and each may come from a base of its own. What an analysis has checked of them is that the index may be
given to the function that reads, that the one that writes takes one parameter more, and of a step that its operator takes
nothing and returns the last of these parameters. That the index may also be given to the function that writes has not been
checked; it follows where that function takes no less than the other.
-/

namespace ScriptCheck

namespace Registry

variable {reg : Registry} {id : ItemId} {levels : Levels}

/-! ### Operators without type arguments -/

theorem find?_bindings_empty (h : ∀ l ∈ levels, l = []) (ref : ParamRef) : (reg.bindings id levels).find? ref = none := by
  refine List.foldl_unchanged (g := fun e : Env => e.find? ref) (fun b hb e => ?_) .empty
  have hempty : b.2 = [] := h b.2 (List.of_mem_zip hb).2
  simp [bindLevel, hempty]

/-- Where no level has arguments, a declaration is seen as it is written. -/
theorem applyIn_empty (h : ∀ l ∈ levels, l = []) (t : Ty) : reg.applyIn id levels t = t := by
  rw [applyIn, Ty.substitute_eq_subst]
  exact Ty.subst_eq_self fun ref _ => find?_bindings_empty h ref

/-- What is taken from the record of an operator is what its signature says. -/
theorem operatorSignature_eq (reg : Registry) (f : FuncRef) :
    reg.operatorSignature f = (reg.funcType f).map fun sig => (sig.params.length, sig.ret) := by
  cases hr : reg.funcRecord f.id with
  | error fault =>
    rw [operatorSignature, funcType, hr]
    rfl
  | ok r =>
    have hsig : reg.funcType f = .ok (reg.applyFunc f r.signature) := by
      rw [funcType, hr]
      rfl
    rw [operatorSignature, hr]
    by_cases hshort : (f.nonGeneric && !r.isSequence) = true
    · refine (if_pos hshort).trans ?_
      rw [Bool.and_eq_true, Bool.not_eq_true', FuncRef.nonGeneric, List.all_eq_true] at hshort
      have hret : r.ret.substitute (reg.bindings f.id f.levels) = r.ret :=
        applyIn_empty (fun l hl => List.isEmpty_iff.1 (hshort.1 l hl)) r.ret
      rw [hsig]
      simp [Except.map, applyFunc, Signature.substitute, FuncRecord.signature, hshort.2, hret]
    · refine (if_neg hshort).trans ?_
      rw [hsig]
      rfl

/-- An operator that can step a target returns what is stored there. -/
theorem stores_of_stepFits {target : Target} {ret : Ty} (h : reg.stepFits target target.ty ret = .ok true) :
    target.Stores reg ret := by
  cases target with
  | direct storage ty =>
    exact (of_decide_eq_true (Except.ok.inj h)).symm
  | callBased object objectTy getter setter args ty =>
    obtain ⟨writes, hwrites, h⟩ := Except.bind_eq_ok.1 h
    obtain ⟨reads, -, h⟩ := Except.bind_eq_ok.1 h
    simp only [Except.pure_eq_ok, Bool.and_eq_true, decide_eq_true_eq] at h
    exact ⟨writes, hwrites, h.1⟩

/-! ### Chains of fitting types -/

/-- What fits a type fits where that type fits, along a chain of bases that ends. -/
theorem assignable_trans [Patience] {t p q : Ty} (hends : ∃ n, follow reg.baseOf n t = none) (h : reg.assignable p t = true)
    (h' : reg.assignable q p = true) : reg.assignable q t = true := by
  have ht := follow_reach hends
  obtain ⟨k, hk⟩ := (assignable_iff ht).1 h
  have hp : ∃ n, follow reg.baseOf n p = none := by
    obtain ⟨n, hn⟩ := hends
    have hlater : follow reg.baseOf (k + n) t = none := follow_eq_none_of_le hn (by omega)
    rw [follow_add, hk] at hlater
    exact ⟨n, hlater⟩
  obtain ⟨j, hj⟩ := (assignable_iff (follow_reach hp)).1 h'
  exact (assignable_iff ht).2 ⟨k + j, by rw [follow_add, hk, Option.bind_some, hj]⟩

end Registry

/-! ### What is asked of an element -/

section Rules

variable [Patience] (reg : Registry) (notes : NodeMap)

/-- What is noted for the node may be given for the parameter. -/
def Takes (param : Ty) (node : Nat) : Prop := ∃ t, notes.ty? node = some t ∧ reg.assignable param t = true

/-- The element of `object` at `args` is read by `getter` and written by `setter`, which the type of the object has for elements
and whose signatures are `reads` and `writes`. -/
structure Accessed (object : Nat) (objectTy : Ty) (getter setter : FuncRef) (args : List Nat) (ty : Ty)
    (reads writes : Signature) : Prop where
  objectTyped : notes.ty? object = some objectTy
  getterFound : reg.method? objectTy .indexerGet = .ok (some getter)
  setterFound : reg.method? objectTy .indexerSet = .ok (some setter)
  readsAs : reg.funcType getter = .ok reads
  writesAs : reg.funcType setter = .ok writes
  count : writes.params.length = reads.params.length + 1
  gives : reads.ret = ty
  taken : List.Forall₂ (Takes reg notes) reads.params args
  /-- The function that writes takes the arguments where it takes no less than the one that reads. -/
  takenToWrite : (∀ n ∈ args, ∀ t, notes.ty? n = some t → ∃ k, follow reg.baseOf k t = none) →
    List.Forall₂ (fun q p => reg.assignable q p = true) writes.params.dropLast reads.params →
    List.Forall₂ (Takes reg notes) writes.params.dropLast args

/-- A target that is an element has functions to read and write it. -/
def Target.Serves : Target → Prop
  | .direct _ _ => True
  | .callBased object objectTy getter setter args ty =>
    ∃ reads writes, Accessed reg notes object objectTy getter setter args ty reads writes

/-- What is asked of the target at a site that assigns or steps. -/
def Site.Serves : Site → Prop
  | ⟨_, .expr (.assign node _ _)⟩ => ∃ target, notes.info? node.id = some (.assign target) ∧ target.Serves reg notes
  | ⟨_, .expr (.unary node (.step _ before) _)⟩ => ∃ target operator sig,
      notes.info? node.id = some (.step target operator before) ∧ target.Serves reg notes ∧
      reg.funcType operator = .ok sig ∧ sig.params = [] ∧ target.Stores reg sig.ret
  | _ => True

end Rules

variable {reg : Registry} {notes : NodeMap}

/-- Arguments may be given to a function that takes no less than one they may be given to. -/
theorem Takes.wider {_ : Patience} {params wider : List Ty} {args : List Nat} (h : List.Forall₂ (Takes reg notes) params args)
    (hends : ∀ n ∈ args, ∀ t, notes.ty? n = some t → ∃ k, follow reg.baseOf k t = none)
    (hw : List.Forall₂ (fun q p => reg.assignable q p = true) wider params) : List.Forall₂ (Takes reg notes) wider args := by
  induction h generalizing wider with
  | nil =>
    cases hw
    exact .nil
  | @cons p n ps ns hp hps ih =>
    obtain ⟨hend, hends⟩ := List.forall_mem_cons.1 hends
    cases hw with
    | @cons q _ qs _ hq hqs =>
      obtain ⟨t, ht, hfit⟩ := hp
      exact .cons ⟨t, ht, Registry.assignable_trans (hend t ht) hfit hq⟩ (ih hends hqs)

/-! ### What has been checked -/

section Sites

variable {A : Finished} {p : Place} {node : Node}

/-- A target that was found is a place or an element with functions to read and write it. -/
theorem Check.Settled.target_serves (hA : A.Resolved) {ctx : Context} (hc : A.Covers ctx) {e : Expr} {s s' : State}
    {target : Target} (h : Settled A.notes e.ids (Check.target ctx e (Check.expr ctx e none)) s (some target) s')
    (hr : AllResolved target.types) : @Target.Serves A.patience A.registry A.notes target := by
  rcases h.target_found with ⟨_, _, _, _, _, storage, _, declared, -, -, -, rfl⟩ | ⟨_, _, _, _, _, storage, ty, -, -, rfl⟩ |
    ⟨_, object, index, objectTy, getter, setter, ret, _, rfl, rfl, -, -⟩
  · trivial
  · trivial
  · obtain ⟨o, u, i, v, ho, hi, hnone | ⟨_, _, reads, writes, hget, hset, hreads, hwrites, hadm, hlen, htarget⟩⟩ :=
      h.element_target
    · cases hnone
    · cases htarget
      rw [Context.method?, hc.registry, hc.patience] at hget hset
      rw [hc.registry] at hreads hwrites
      have hgetter : AllResolved getter.types := hr.subset fun t ht => by simp [Target.types, ht]
      obtain ⟨-, hparams⟩ := allResolved_cons.1 (Registry.funcType_inherits hA.registry hgetter hreads)
      have hgiven : List.Forall₂ (@Takes A.patience A.registry A.notes) reads.params [index.node.id] := by
        generalize reads.params = params at hadm hparams
        cases hadm with
        | @cons param _ _ _ hfirst hrest =>
          cases hrest
          rw [allResolved_cons] at hparams
          exact .cons ⟨i, hi.noted, (hc.assignable hfirst hparams.1 (hA.ty hi.noted)).2⟩ .nil
      let _ := A.patience
      exact ⟨reads, writes, ho.noted, hget, hset, hreads, hwrites, hlen, rfl, hgiven, Takes.wider hgiven⟩

theorem Visited.assign_serves (hA : A.Resolved) {left value : Expr} (h : Visited A ⟨p, .expr (.assign node left value)⟩) :
    @Site.Serves A.patience A.registry A.notes ⟨p, .expr (.assign node left value)⟩ := by
  obtain ⟨ctx, mode, s, s', hc, -, hh⟩ := h
  obtain ⟨hint, t, hv⟩ := hh.as_value rfl
  obtain ⟨target, _, _, _, _, htarget, -, -, -, -, hinfo⟩ := hv.assign hA.known
  exact ⟨target, hinfo, htarget.target_serves hA hc (hA.info hinfo)⟩

theorem Visited.step_serves (hA : A.Resolved) {op : StepOp} {before : Bool} {operand : Expr}
    (h : Visited A ⟨p, .expr (.unary node (.step op before) operand)⟩) :
    @Site.Serves A.patience A.registry A.notes ⟨p, .expr (.unary node (.step op before) operand)⟩ := by
  obtain ⟨ctx, mode, s, s', hc, -, hh⟩ := h
  obtain ⟨hint, t, hv⟩ := hh.as_value rfl
  obtain ⟨target, operator, ret, u, htarget, hinfo, hsig, hfits⟩ := hv.step_found hA.known
  rw [hc.registry] at hsig hfits
  rw [Registry.operatorSignature_eq] at hsig
  obtain ⟨sig, htype, hpair⟩ := Except.map_eq_ok.1 hsig
  obtain ⟨hcount, rfl⟩ := Prod.mk.inj hpair
  have htypes : AllResolved target.types := (hA.info hinfo).subset fun t ht => by simp [NodeInfo.types, ht]
  exact ⟨target, operator, sig, hinfo, htarget.target_serves hA hc htypes, htype, List.length_eq_zero_iff.1 hcount,
    Registry.stores_of_stepFits hfits⟩

/-- What the walk has visited has targets that serve, where no unknown type is left. -/
theorem Visited.serves (hA : A.Resolved) {site : Site} (h : Visited A site) :
    @Site.Serves A.patience A.registry A.notes site := by
  obtain ⟨p, part⟩ := site
  cases part with
  | expr e =>
    cases e with
    | assign node left value => exact h.assign_serves hA
    | unary node op operand =>
      cases op with
      | step op before => exact h.step_serves hA
      | _ => trivial
    | _ => trivial
  | _ => trivial

end Sites

/-! ### The main statement -/

/-- After an analysis with an output, every assignment and every step has a target, and where the target is an element, the
functions that read and write it are those of the object's type: the one that writes takes one parameter more than the one that
reads, and what is noted for the arguments may be given to the one that reads, and to the one that writes as well where the
latter takes no less. A step has an operator that takes nothing and returns what is stored in the target. The nodes of the
script have to be different ones, and the records of the modules must not mention an unknown type. -/
theorem element_targets_take_their_arguments (setup : Setup) (script : Script) (out : Output) (hn : script.ids.Nodup)
    (hm : ∀ m ∈ setup.modules, m.Resolved) (h : analyze setup script = .ok (.ok out)) :
    letI := setup.patience
    ∀ site ∈ script.sites (.root setup.moduleName),
      site.Serves (out.module :: Builtin.declarations :: setup.modules) out.nodes := by
  have hvisited := analyze_visited hn h
  obtain ⟨m, s, ha, hs, -, rfl⟩ := analyze_eq_ok h
  obtain ⟨hmod, hstate⟩ := ha.resolved hm hs
  have hA : (setup.finished script m s.nodes).Resolved :=
    ⟨Registry.AllTypes.cons hmod (Registry.AllTypes.cons Builtin.declarations_resolved hm),
      NodeMap.dataOf_types hstate.nodes⟩
  intro site hsite
  exact (hvisited site hsite).serves hA

namespace Sample

/-- The functions that read and write elements: an `index` is read at, a `place` is written at. The nodes are `n` and the eleven
after it. -/
def indexer (n : Nat) (index place element : String) : List Member := [
  .func {
    node := nd n
    name := .indexerGet
    typeParams := []
    params := [⟨nd (n + 1), "i", .named (nd (n + 2)) index []⟩]
    ret := .named (nd (n + 3)) element []
    isSequence := false
    isStatic := false
    body := .mk (nd (n + 4)) [] },
  .func {
    node := nd (n + 5)
    name := .indexerSet
    typeParams := []
    params := [⟨nd (n + 6), "i", .named (nd (n + 7)) place []⟩, ⟨nd (n + 8), "v", .named (nd (n + 9)) element []⟩]
    ret := .void (nd (n + 10))
    isSequence := false
    isStatic := false
    body := .mk (nd (n + 11)) [] }]

/-- `Count operator++() { }` -/
def increment : FuncDecl where
  node := nd 12
  name := .increment
  typeParams := []
  params := []
  ret := .named (nd 13) "Count" []
  isSequence := false
  isStatic := false
  body := .mk (nd 14) []

/-- `class Key { } class Latch : Key { } class Count { ... } class Board { ... } Board board; Latch latch; board[latch]++;`,
where a `Board` is read at a `Latch` and written at a `Key`. -/
def board : Script := [
  .type (.mk (nd 15) .classDecl "Key" [] none []),
  .type (.mk (nd 16) .classDecl "Latch" [] (some (.named (nd 17) "Key" [])) []),
  .type (.mk (nd 18) .classDecl "Count" [] none [.func increment]),
  .type (.mk (nd 19) .classDecl "Board" [] none (indexer 0 "Latch" "Key" "Count")),
  .stmt (.varDecl (nd 20) (.named (nd 21) "Board" []) "board" none),
  .stmt (.varDecl (nd 22) (.named (nd 23) "Latch" []) "latch" none),
  .stmt (.expr (nd 24) (.unary (nd 25) (.step .up false)
    (.index (nd 26) (.identifier (nd 27) "board" []) (.identifier (nd 28) "latch" []))))]

/-- `class Rack { ... } Rack rack; rack[0] = 1;`, where a `Rack` is read at an `int` and written at a `string`. -/
def rack : Script := [
  .type (.mk (nd 12) .classDecl "Rack" [] none (indexer 0 "int" "string" "int")),
  .stmt (.varDecl (nd 13) (.named (nd 14) "Rack" []) "rack" none),
  .stmt (.expr (nd 15) (.assign (nd 16) (.index (nd 17) (.identifier (nd 18) "rack" []) (.intLit (nd 19) 0))
    (.intLit (nd 20) 1)))]

/-- The type without parameters that the script declares under this name. -/
def ownTy (name : String) : Ty := .nominal (plainId "Sample" name) [[]]

/-- The function that such a type declares under a reserved name. -/
def ownFunc (owner : String) (name : Name) : FuncRef := ⟨(plainId "Sample" owner).child name 0, [[], []]⟩

end Sample

/-- `board[latch]++` has an element for its target. -/
theorem sample_element_targets_take_their_arguments : Sample.board.ids.Nodup ∧
    ∃ out, analyze Sample.setup Sample.board = .ok (.ok out) ∧
      (∀ site ∈ Sample.board.sites (.root "Sample"), site.Serves [out.module, Builtin.declarations] out.nodes) ∧
      out.nodes.info? 25 = some (.step (.callBased 27 (Sample.ownTy "Board") (Sample.ownFunc "Board" .indexerGet)
        (Sample.ownFunc "Board" .indexerSet) [28] (Sample.ownTy "Count")) (Sample.ownFunc "Count" .increment) false) := by
  have hids : Sample.board.ids.Nodup := by decide +kernel
  have hrun : ((analyze Sample.setup Sample.board).toOption.bind Except.toOption).any (fun out =>
      out.nodes.info? 25 = some (.step (.callBased 27 (Sample.ownTy "Board") (Sample.ownFunc "Board" .indexerGet)
        (Sample.ownFunc "Board" .indexerSet) [28] (Sample.ownTy "Count")) (Sample.ownFunc "Count" .increment) false)) =
      true := by
    decide +kernel
  obtain ⟨out, h, hout⟩ := exists_output hrun
  exact ⟨hids, out, h, element_targets_take_their_arguments Sample.setup Sample.board out hids (by simp [Sample.setup]) h,
    of_decide_eq_true hout⟩

/-- The index of `rack[0] = 1` may not be given to the function that writes a `Rack`, and nothing is reported. -/
theorem function_that_writes_may_not_take_the_index : Sample.rack.ids.Nodup ∧
    ∃ out writes, analyze Sample.setup Sample.rack = .ok (.ok out) ∧
      out.nodes.info? 16 = some (.assign (.callBased 18 (Sample.ownTy "Rack") (Sample.ownFunc "Rack" .indexerGet)
        (Sample.ownFunc "Rack" .indexerSet) [19] Builtin.int)) ∧
      Registry.funcType [out.module, Builtin.declarations] (Sample.ownFunc "Rack" .indexerSet) = .ok writes ∧
      ¬List.Forall₂ (Takes [out.module, Builtin.declarations] out.nodes) writes.params.dropLast [19] := by
  have hrun : ((analyze Sample.setup Sample.rack).toOption.bind Except.toOption).any (fun out =>
      out.nodes.info? 16 = some (.assign (.callBased 18 (Sample.ownTy "Rack") (Sample.ownFunc "Rack" .indexerGet)
        (Sample.ownFunc "Rack" .indexerSet) [19] Builtin.int)) ∧
      (Registry.funcType [out.module, Builtin.declarations] (Sample.ownFunc "Rack" .indexerSet)).toOption =
        some ⟨.void, [Builtin.string, Builtin.int]⟩ ∧
      out.nodes.ty? 19 = some Builtin.int ∧
      Registry.assignable [out.module, Builtin.declarations] Builtin.string Builtin.int = false) = true := by
    decide +kernel
  obtain ⟨out, h, hout⟩ := exists_output hrun
  obtain ⟨hinfo, hwrites, hindex, hfit⟩ := of_decide_eq_true hout
  refine ⟨by decide +kernel, out, ⟨.void, [Builtin.string, Builtin.int]⟩, h, hinfo, ?_, ?_⟩
  · cases hsig : Registry.funcType [out.module, Builtin.declarations] (Sample.ownFunc "Rack" .indexerSet) with
    | error fault =>
      rw [hsig] at hwrites
      cases hwrites
    | ok sig =>
      rw [hsig] at hwrites
      exact congrArg Except.ok (Option.some.inj hwrites)
  · intro htaken
    obtain ⟨⟨t, ht, hassignable⟩, -⟩ := List.forall₂_cons.1 htaken
    rw [hindex] at ht
    cases ht
    rw [hfit] at hassignable
    cases hassignable

end ScriptCheck
