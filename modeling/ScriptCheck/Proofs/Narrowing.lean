import ScriptCheck.Proofs.OutcomeBodies

/-!
# What is known about places

A test `x is T` lets `x` be read as a `T` inside the branches of its `if`, and an assignment, `++` or `--` drops what is known
about the place it writes. The theorem of this module says that the table of what is known does nothing else: a part of a body
leaves it as it was but for the places that are written in the part, and inside an `if` a name is read with the tested type up
to the first such write.
-/

namespace ScriptCheck

namespace Check

variable {ctx : Context} {s s' : State}
variable {place : Storage} {node : Node} {x : String}

/-- A name that refers to a variable is noted with the place of the variable. -/
theorem identifier_noted {known declared t : Ty} (h : typed node (identifier ctx node x []) s = .ok (t, s'))
    (hx : ctx.lookup s.frame s.globals x [] false = .ok (.var place known declared)) :
    s'.nodes.info? node.id = some (.storage place) := by
  simp only [typed, identifier, typeExprs, bind_eq_ok, pure_eq_ok, noteType_apply, ok_inj] at h
  obtain ⟨_, u, ⟨_, _, ⟨rfl, rfl⟩, meaning, _, hlookup, hvalue⟩, _, _, ⟨-, rfl⟩, -, rfl⟩ := h
  obtain ⟨hmeaning, rfl⟩ := lookup_eq_ok.1 hlookup
  rw [hx] at hmeaning
  cases hmeaning
  simp only [identifierValue, bind_eq_ok, noteInfo_apply, pure_eq_ok, ok_inj] at hvalue
  obtain ⟨_, _, ⟨-, rfl⟩, -, rfl⟩ := hvalue
  simp

theorem valued_run {x : Check Ty} {t : Ty} (h : valued node x s = .ok (t, s')) :
    ∃ found u, x s = .ok (found, u) ∧ s'.nodes = u.nodes := by
  obtain ⟨found, u, hx, h⟩ := bind_eq_ok.1 h
  refine ⟨found, u, hx, ?_⟩
  split at h <;> cases h <;> rfl

theorem condition_run {x : Check Ty} (h : condition node x s = .ok ((), s')) :
    ∃ found u, x s = .ok (found, u) ∧ s'.nodes = u.nodes := by
  obtain ⟨found, u, hx, h⟩ := bind_eq_ok.1 h
  refine ⟨found, u, hx, ?_⟩
  split at h <;> cases h <;> rfl

/-- A test of a variable for a declared type narrows the variable's place to that type. -/
theorem narrowingOf_test {test node : Node} {ty : TypeExpr} {known declared : Ty} {id : ItemId}
    {levels : List (List Ty)} (hnodup : (Expr.isTest test (.identifier node x []) ty).ids.Nodup)
    (h : condition test (valued test (expr ctx (.isTest test (.identifier node x []) ty) none)) s = .ok ((), s'))
    (hx : ctx.lookup s.frame s.globals x [] false = .ok (.var place known declared))
    (ht : s'.nodes.info? ty.node.id = some (.type (.nominal id levels))) :
    narrowingOf s'.nodes (.isTest test (.identifier node x []) ty) = some (place, .nominal id levels) := by
  obtain ⟨_, _, h, hnodes⟩ := condition_run h
  obtain ⟨_, u, h, hnodes'⟩ := valued_run h
  rw [hnodes, hnodes'] at ht ⊢
  simp only [expr, typed, isTest, bind_eq_ok, noteType_apply, pure_eq_ok, ok_inj] at h
  obtain ⟨_, r, ⟨_, v, hvalue, tested, w, htype, hnote⟩, _, _, ⟨-, rfl⟩, -, rfl⟩ := h
  simp only [Expr.ids, TypeExpr.idsOfList, List.singleton_append, List.nodup_cons, List.mem_cons, not_or] at hnodup
  obtain ⟨⟨htest, htestTy⟩, hnodeTy, -⟩ := hnodup
  have hne : ty.node.id ≠ test.id := fun heq => htestTy (heq ▸ ty.node_mem_ids)
  have hplace : w.nodes.info? node.id = some (.storage place) := by
    obtain ⟨_, v', hidentifier, hnodes⟩ := valued_run hvalue
    rw [NodeMap.info?, NodeMap.dataOf, (typeExpr_notes ctx ty htype).nodes _ hnodeTy, hnodes]
    exact identifier_noted hidentifier hx
  have htested : w.nodes.info? ty.node.id = some (.type tested) := typeExpr_noted htype
  -- Whatever the test came to, the note for the written type is that of the type that was tested.
  have hsame : r.nodes.info? ty.node.id = w.nodes.info? ty.node.id := by
    split at hnote <;> cases hnote <;> simp [Ne.symm hne]
  have hnominal : tested = .nominal id levels := by
    rw [NodeMap.info?_setType, hsame, htested] at ht
    simpa using ht
  subst hnominal
  cases hnote
  simp [narrowingOf, Expr.plainName?, Expr.node, htest, hplace]

/-- Inside an `if` that tests a variable, a name of the variable's place is read with the tested type up to the first write. -/
theorem ifThen_reads {node test xNode : Node} {ty : TypeExpr} {thenBody : Stmt} {elseBody : Option Stmt}
    {known declared : Ty} {id : ItemId} {levels : List (List Ty)}
    (hready : Ready (Stmt.ifThen node (.isTest test (.identifier xNode x []) ty) thenBody elseBody).ids s)
    (h : stmt ctx (.ifThen node (.isTest test (.identifier xNode x []) ty) thenBody elseBody) s = .ok ((), s'))
    (hx : ctx.lookup s.frame s.globals x [] false = .ok (.var place known declared))
    (ht : s'.nodes.info? ty.node.id = some (.type (.nominal id levels))) :
    ∀ r ∈ ((thenBody.outline false).seq (Stmt.outlineOfOption elseBody)).reads, s'.nodes.info? r.node = some (.storage place) →
      (∀ c ∈ r.guards, ∀ t, narrowingOf s'.nodes c ≠ some (place, t)) →
      ∃ declared, ctx.Declares s' place declared ∧
        s'.nodes.ty? r.node = some (if s'.nodes.writes r.before place then declared else .nominal id levels) := by
  rw [stmt] at h
  rw [Stmt.ids] at hready
  have hinner := hready.subperm (List.sublist_cons_self _ _).subperm
  have hcond : Follows ctx _ _ (valued test (expr ctx (.isTest test (.identifier xNode x []) ty) none)) :=
    valued_follows (expr_follows ctx _ none)
  have hbranches := (inBlock_follows (stmt_follows ctx thenBody).nested).bind fun _ => otherwise_follows ctx elseBody
  obtain ⟨u, v, hrun, -, rfl, htouch, hnarrowing, hout⟩ :=
    ifThen_outcome hcond hbranches (List.Subset.refl _) h hinner fun _ _ => rfl
  obtain ⟨hnodup, -, hdisjoint⟩ := List.nodup_append.1 hinner.nodup
  -- The branches make no note for the written type, so it is what the test was for.
  have htype : u.nodes.info? ty.node.id = some (.type (.nominal id levels)) := by
    have hmem : ty.node.id ∈ (Expr.isTest test (.identifier xNode x []) ty).ids := by simp [Expr.ids, ty.node_mem_ids]
    rwa [NodeMap.info?, NodeMap.dataOf, htouch.nodes _ fun hm => hdisjoint _ hmem _ hm rfl] at ht
  have htest := narrowingOf_test hnodup hrun hx htype
  intro r hr hplace hguards
  obtain ⟨declared, hdeclares, hty⟩ := hout.reads r hr place hplace hguards
  refine ⟨declared, hdeclares.mono (List.prefix_refl _) (List.prefix_refl _), hty.trans ?_⟩
  rw [Frame.readType, narrowedBy_find?, htest]
  simp

end Check

/-- In every run, with or without reports, what is known about places after an expression or a statement is what was known
before without the places that are noted as written in it, outside of the lambdas and tasks inside. And inside the branches of
`if (x is T)`, where `x` is a variable and `T` a declared type, a name of the variable's place that no test further in narrows
again is read as a `T` as long as no write of the place is noted before it in the branches, and with its declared type from
then on. What is noted for the part is to come from this run, so nothing but types may be noted for its nodes before. -/
theorem narrowings_are_exact (ctx : Context) (s : State) :
    (∀ e hint t s', Ready e.ids s → Check.expr ctx e hint s = .ok (t, s') →
      s'.frame.overrides = s.frame.overrides.filterKeys fun place => !s'.nodes.writes e.outline.writes place) ∧
    (∀ st s', Ready st.ids s → Check.stmt ctx st s = .ok ((), s') →
      s'.frame.overrides =
        s.frame.overrides.filterKeys fun place => !s'.nodes.writes (st.outline s.globalScope).writes place) ∧
    (∀ node test xNode x ty thenBody elseBody s' place known declared id levels,
      Ready (Stmt.ifThen node (.isTest test (.identifier xNode x []) ty) thenBody elseBody).ids s →
      Check.stmt ctx (.ifThen node (.isTest test (.identifier xNode x []) ty) thenBody elseBody) s = .ok ((), s') →
      ctx.lookup s.frame s.globals x [] false = .ok (.var place known declared) →
      s'.nodes.info? ty.node.id = some (.type (.nominal id levels)) →
      ∀ r ∈ ((thenBody.outline false).seq (Stmt.outlineOfOption elseBody)).reads,
        s'.nodes.info? r.node = some (.storage place) →
        (∀ c ∈ r.guards, ∀ t, narrowingOf s'.nodes c ≠ some (place, t)) →
        ∃ declared, ctx.Declares s' place declared ∧
          s'.nodes.ty? r.node = some (if s'.nodes.writes r.before place then declared else .nominal id levels)) := by
  refine ⟨?_, ?_, ?_⟩
  · intro e hint t s' hready h
    exact ((Check.expr_follows ctx e hint).outcome h trivial hready fun _ _ => rfl).overrides
  · intro st s' hready h
    exact ((Check.stmt_follows ctx st).outcome h trivial hready fun _ _ => rfl).overrides
  · intro node test xNode x ty thenBody elseBody s' place known declared id levels hready h hx ht
    exact Check.ifThen_reads hready h hx ht

namespace Sample

/-- `if (n is bool) { n; n++; n; }` -/
def test : Stmt :=
  .ifThen (nd 80) (.isTest (nd 81) (.identifier (nd 82) "n" []) (.named (nd 83) "bool" []))
    (.block (nd 84) (.mk (nd 85) [.expr (nd 86) (.identifier (nd 87) "n" []),
      .expr (nd 88) (.unary (nd 89) (.step .up false) (.identifier (nd 90) "n" [])),
      .expr (nd 91) (.identifier (nd 92) "n" [])])) none

/-- Two numbers `n` and `m`, of which `m` is known to be a `bool`. -/
def twoNumbers : State :=
  { State.initial with
    frame := ((Frame.script.declare "n" Builtin.int).declare "m" Builtin.int).narrow (.localSlot 1) Builtin.bool
    globalScope := false }

end Sample

/-- In `if (n is bool) { n; n++; n; }` the first name is read as a `bool` and the last as it is declared. Afterwards `m` is
known to be what it was known to be. -/
theorem sample_test_narrows : ∃ s', Check.stmt (Sample.setup.contextFor []) Sample.test Sample.twoNumbers = .ok ((), s') ∧
    s'.frame.overrides.find? (.localSlot 1) = some Builtin.bool ∧ s'.nodes.ty? 87 = some Builtin.bool ∧
    ∃ declared, (Sample.setup.contextFor []).Declares s' (.localSlot 0) declared ∧ s'.nodes.ty? 92 = some declared := by
  have hrun : (Check.stmt (Sample.setup.contextFor []) Sample.test Sample.twoNumbers).toOption.any (fun r =>
      r.2.nodes.info? 83 = some (.type Builtin.bool) ∧ r.2.nodes.info? 87 = some (.storage (.localSlot 0)) ∧
      r.2.nodes.info? 92 = some (.storage (.localSlot 0)) ∧ r.2.nodes.writes [89] (.localSlot 0) = true ∧
      r.2.nodes.writes [89] (.localSlot 1) = false) = true := by
    decide +kernel
  cases h : Check.stmt (Sample.setup.contextFor []) Sample.test Sample.twoNumbers with
  | error fault =>
    rw [h] at hrun
    cases hrun
  | ok r =>
    obtain ⟨_, s'⟩ := r
    rw [h] at hrun
    obtain ⟨htype, hfirst, hlast, hwrites, hkeeps⟩ := of_decide_eq_true hrun
    have hready : Ready Sample.test.ids Sample.twoNumbers :=
      ⟨by decide +kernel, fun n _ info hinfo => nomatch hinfo⟩
    obtain ⟨-, htable, hreads⟩ := narrowings_are_exact (Sample.setup.contextFor []) Sample.twoNumbers
    have hreads := hreads _ _ _ _ _ _ _ _ (.localSlot 0) Builtin.int Builtin.int _ _ hready h (by decide +kernel) htype
    refine ⟨s', rfl, ?_, ?_, ?_⟩
    · rw [htable _ _ hready h]
      simp only [Table.find?_filterKeys]
      rw [show (Sample.test.outline Sample.twoNumbers.globalScope).writes = [89] from rfl, hkeeps]
      rfl
    · obtain ⟨_, -, hty⟩ := hreads ⟨87, [], []⟩ (List.mem_of_getElem? (i := 0) rfl) hfirst (by simp)
      exact hty
    · obtain ⟨declared, hdeclares, hty⟩ := hreads ⟨92, [], [89]⟩ (List.mem_of_getElem? (i := 2) rfl) hlast (by simp)
      exact ⟨declared, hdeclares, hty.trans (by simp [hwrites])⟩

end ScriptCheck
