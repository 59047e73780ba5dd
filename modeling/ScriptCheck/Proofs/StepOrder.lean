import ScriptCheck.Proofs.Lockstep
import Mathlib.Data.List.Perm.Basic

/-!
# Steps in another order

A step is confined to some nodes if what it does depends on no other nodes, and if it changes nothing but what is known
about them (`Check.Confined`). Two steps that are confined to different nodes can change places (`Check.Confined.swap`), and
so a list of such steps can be run in any order (`Check.mapM_shuffle`): the answers are the same, the states at the end agree,
and what was gained on the way differs only in its order (`Shuffled`).
-/

namespace ScriptCheck

/-! ### What a confined step leaves alone -/

/-- The states differ at most in what was reported, in the templates, and in what is known about the nodes `ids`. -/
structure StaysIn (ids : List Nat) (s t : State) : Prop where
  frame : t.frame = s.frame
  globalScope : t.globalScope = s.globalScope
  globals : t.globals = s.globals
  nodes : ∀ n, n ∉ ids → t.nodes.find? n = s.nodes.find? n

namespace StaysIn

variable {ids : List Nat} {s t : State}

/-- The states agree about other nodes. -/
theorem agree (h : StaysIn ids s t) {N : Set Nat} (hN : ∀ n ∈ N, n ∉ ids) : Agree N s t :=
  ⟨h.frame, h.globalScope, h.globals, fun n hn => by rw [h.nodes n (hN n hn)]⟩

end StaysIn

/-! ### Gains that differ in order -/

/-- From `s'` to `t'` were gained as many diagnostics as from `s` to `t`, and the same templates, in any order. No node is
listed twice if none was. -/
structure Shuffled (s t s' t' : State) : Prop where
  diagnostics : ∃ k, t.diagnostics.length = s.diagnostics.length + k ∧ t'.diagnostics.length = s'.diagnostics.length + k
  templates : ∃ ts ts', t.templates = s.templates ++ ts ∧ t'.templates = s'.templates ++ ts' ∧ ts.Perm ts'
  keys : s.nodes.keys.Nodup ∧ s'.nodes.keys.Nodup → t.nodes.keys.Nodup ∧ t'.nodes.keys.Nodup

theorem Gained.shuffled {E : LookupError → LookupError → Prop} {N : Set Nat} {s t s' t' : State} (h : Gained E N s t s' t') :
    Shuffled s t s' t' where
  diagnostics := by
    obtain ⟨ds, ds', hd, hd', halike, -⟩ := h.diagnostics
    exact ⟨ds.length, by rw [hd, List.length_append], by rw [hd', List.length_append, halike.length_eq]⟩
  templates := by
    obtain ⟨ts, ht, ht'⟩ := h.templates
    exact ⟨ts, ts, ht, ht', .refl _⟩
  keys := h.keys

namespace Shuffled

variable {s t u s' t' u' t'' s'' : State}

/-- What is gained one after the other. -/
theorem next (h : Shuffled s t s' t') (h' : Shuffled t u t' u') : Shuffled s u s' u' where
  diagnostics := by
    obtain ⟨k, hk, hk'⟩ := h.diagnostics
    obtain ⟨l, hl, hl'⟩ := h'.diagnostics
    exact ⟨k + l, by omega, by omega⟩
  templates := by
    obtain ⟨ts, ts', ht, ht', hperm⟩ := h.templates
    obtain ⟨us, us', hu, hu', hperm'⟩ := h'.templates
    exact ⟨ts ++ us, ts' ++ us', by rw [hu, ht, List.append_assoc], by rw [hu', ht', List.append_assoc], hperm.append hperm'⟩
  keys := fun hk => h'.keys (h.keys hk)

/-- What is gained by a third run. -/
theorem trans (h : Shuffled s t s t') (h' : Shuffled s t' s'' t'') : Shuffled s t s'' t'' where
  diagnostics := by
    obtain ⟨k, hk, hk'⟩ := h.diagnostics
    obtain ⟨l, hl, hl'⟩ := h'.diagnostics
    exact ⟨k, hk, by omega⟩
  templates := by
    obtain ⟨ts, ts', ht, ht', hperm⟩ := h.templates
    obtain ⟨us, us', hu, hu', hperm'⟩ := h'.templates
    rw [ht'] at hu
    cases List.append_cancel_left hu
    exact ⟨ts, us', ht, hu', hperm.trans hperm'⟩
  keys := fun hk => ⟨(h.keys ⟨hk.1, hk.1⟩).1, (h'.keys hk).2⟩

theorem templates_eq_nil (h : Shuffled s t s' t') (ht : t.templates = []) (hs' : s'.templates = []) : t'.templates = [] := by
  obtain ⟨ts, ts', hts, hts', hperm⟩ := h.templates
  obtain rfl : ts = [] := (List.append_eq_nil_iff.1 (hts.symm.trans ht)).2
  rw [hts', hs', ← hperm.nil_eq, List.append_nil]

/-- Two runs gain the same two things, each in its own order. -/
theorem cross (h : Shuffled s t u' t') (h' : Shuffled t u s' u')
    (hkeys : s.nodes.keys.Nodup ∧ s'.nodes.keys.Nodup → u.nodes.keys.Nodup ∧ t'.nodes.keys.Nodup) : Shuffled s u s' t' where
  diagnostics := by
    obtain ⟨k, hk, hk'⟩ := h.diagnostics
    obtain ⟨l, hl, hl'⟩ := h'.diagnostics
    exact ⟨k + l, by omega, by omega⟩
  templates := by
    obtain ⟨ts, ts', ht, ht', hperm⟩ := h.templates
    obtain ⟨us, us', hu, hu', hperm'⟩ := h'.templates
    refine ⟨ts ++ us, us' ++ ts', by rw [hu, ht, List.append_assoc], by rw [ht', hu', List.append_assoc], ?_⟩
    exact (hperm.append hperm').trans List.perm_append_comm
  keys := hkeys

end Shuffled

/-- Two runs make the same notes about two sets of nodes, each in its own order. -/
theorem agree_of_cross {I J : List Nat} {s s₁ s₂ s' t₁ t₂ : State} (hs : Agree .univ s s') (h₁ : StaysIn I s s₁)
    (h₂ : StaysIn J s₁ s₂) (h₁' : StaysIn J s' t₁) (h₂' : StaysIn I t₁ t₂) (hd : ∀ n ∈ I, n ∉ J)
    (hJ : Agree {n | n ∈ J} s₂ t₁) (hI : Agree {n | n ∈ I} s₁ t₂) : Agree .univ s₂ t₂ where
  frame := by rw [h₂'.frame, h₁'.frame, hs.frame, h₂.frame, h₁.frame]
  globalScope := by rw [h₂'.globalScope, h₁'.globalScope, hs.globalScope, h₂.globalScope, h₁.globalScope]
  globals := by rw [h₂'.globals, h₁'.globals, hs.globals, h₂.globals, h₁.globals]
  nodes := by
    intro n _
    by_cases hn : n ∈ I
    · rw [h₂.nodes n (hd n hn), hI.nodes n hn]
    · rw [h₂'.nodes n hn]
      by_cases hn' : n ∈ J
      · exact hJ.nodes n hn'
      · rw [h₁'.nodes n hn', h₂.nodes n hn', h₁.nodes n hn, hs.nodes n trivial]

namespace Check

variable {E : LookupError → LookupError → Prop} {N : Set Nat} {α β γ δ ι : Type}

theorem bind_ok {x : Check α} {f : α → Check β} {s t : State} {a : α} (h : x s = .ok (a, t)) : (x >>= f) s = f a t := by
  change (x s >>= fun r => f r.1 r.2) = f a t
  rw [h]
  rfl

theorem bind_fault {x : Check α} {f : α → Check β} {s : State} {e : Fault} (h : x s = .error e) : (x >>= f) s = .error e := by
  change (x s >>= fun r => f r.1 r.2) = .error e
  rw [h]
  rfl

/-! ### Runs that end alike -/

/-- From states that agree, both steps end in a fault, or both end in states that agree, with related answers, having gained
the same up to order. -/
def Shuffle (R : α → β → Prop) (x : Check α) (y : Check β) : Prop :=
  ∀ ⦃s s' : State⦄, Agree .univ s s' → Together
    (fun r r' => R r.1 r'.1 ∧ Agree .univ r.2 r'.2 ∧ Shuffled s r.2 s' r'.2) (x s) (y s')

namespace Shuffle

variable {R : α → β → Prop}
variable {x : Check α} {y : Check β}

theorem of_lockstep (h : Lockstep E .univ R x y) : Shuffle R x y :=
  fun _ _ hs => (h hs).mono fun _ _ hr => ⟨hr.1, hr.2.1, hr.2.2.shuffled⟩

theorem pure {a : α} {b : β} (h : R a b) : Shuffle R (pure a) (pure b) := of_lockstep (E := Eq) (.pure h)

theorem bind {R' : γ → δ → Prop} {f : α → Check γ} {g : β → Check δ}
    (h : Shuffle R x y) (hf : ∀ a b, R a b → Shuffle R' (f a) (g b)) : Shuffle R' (x >>= f) (y >>= g) := by
  intro s s' hs
  refine Together.bind (h hs) ?_
  rintro ⟨a, t⟩ ⟨b, t'⟩ ⟨hab, ht, hgain⟩
  exact (hf a b hab ht).mono fun _ _ hr => ⟨hr.1, hr.2.1, hgain.next hr.2.2⟩

theorem trans {R' : β → γ → Prop} {R'' : α → γ → Prop} {z : Check γ} (h : Shuffle R x y)
    (h' : Shuffle R' y z) (hR : ∀ a b c, R a b → R' b c → R'' a c) : Shuffle R'' x z := by
  intro s s' hs
  refine (h (.refl _ s)).trans (h' hs) ?_
  rintro ⟨a, t⟩ ⟨b, t'⟩ ⟨c, t''⟩ ⟨hab, hagree, hgain⟩ ⟨hbc, hagree', hgain'⟩
  exact ⟨hR a b c hab hbc, hagree.trans hagree', hgain.trans hgain'⟩

/-- What is known of every answer of the first step. -/
theorem and_left {P : α → Prop} (h : Shuffle R x y) (hx : ∀ ⦃s a t⦄, x s = .ok (a, t) → P a) :
    Shuffle (fun a b => R a b ∧ P a) x y := by
  refine fun s s' hs => ((h hs).and_left (P := fun r => P r.1) fun r hr => hx hr).mono ?_
  rintro r r' ⟨⟨hR, hrest⟩, hP⟩
  exact ⟨⟨hR, hP⟩, hrest⟩

end Shuffle

/-! ### Confined steps -/

/-- The step reads and writes notes about the nodes `ids` only, and changes neither the frame nor the script's variables. -/
structure Confined (ids : List Nat) (x : Check α) : Prop where
  reads : ∀ N : Set Nat, (∀ n ∈ ids, n ∈ N) → Lockstep Eq N Eq x x
  writes : Keeps (StaysIn ids) x

namespace Confined

variable {I J : List Nat} {x : Check α} {y : Check β} {s t : State} {a : α}

theorem nodup_keys (h : Confined I x) (hrun : x s = .ok (a, t)) (hkeys : s.nodes.keys.Nodup) : t.nodes.keys.Nodup :=
  (((h.reads .univ fun _ _ => trivial).gained hrun).keys ⟨hkeys, hkeys⟩).1

/-- Steps that are confined to different nodes can change places. -/
theorem swap (hx : Confined I x) (hy : Confined J y) (hd : ∀ n ∈ I, n ∉ J) :
    Shuffle Eq (do let a ← x; let b ← y; return (a, b)) (do let b ← y; let a ← x; return (a, b)) := by
  intro s s' hs
  -- Neither step notices whether the other has run before it.
  have hy' : ∀ {a s₁}, x s = .ok (a, s₁) → Together (fun r r' => r.1 = r'.1 ∧ Agree {n | n ∈ J} r.2 r'.2 ∧
      Gained Eq {n | n ∈ J} s₁ r.2 s' r'.2) (y s₁) (y s') := fun hrun => by
    have hbefore := (hx.writes hrun).agree (N := {n | n ∈ J}) fun n hn hi => hd n hi hn
    exact hy.reads _ (fun _ hn => hn) (hbefore.symm.trans (hs.mono (Set.subset_univ _)))
  have hx' : ∀ {b t₁}, y s' = .ok (b, t₁) → Together (fun r r' => r.1 = r'.1 ∧ Agree {n | n ∈ I} r.2 r'.2 ∧
      Gained Eq {n | n ∈ I} s r.2 t₁ r'.2) (x s) (x t₁) := fun hrun => by
    have hbefore := (hy.writes hrun).agree (N := {n | n ∈ I}) hd
    exact hx.reads _ (fun _ hn => hn) ((hs.mono (Set.subset_univ _)).trans hbefore)
  cases hxs : x s with
  | error e =>
    rw [bind_fault hxs]
    cases hys : y s' with
    | error e' =>
      rw [bind_fault hys]
      exact .fault e e'
    | ok r =>
      have hrun := hx' hys
      rw [hxs] at hrun
      obtain ⟨e', he'⟩ := hrun.of_fault
      rw [bind_ok hys, bind_fault he']
      exact .fault e e'
  | ok r =>
    obtain ⟨a, s₁⟩ := r
    have hrun := hy' hxs
    rw [bind_ok hxs]
    cases hys : y s₁ with
    | error e =>
      rw [hys] at hrun
      obtain ⟨e', he'⟩ := hrun.of_fault
      rw [bind_fault hys, bind_fault he']
      exact .fault e e'
    | ok r =>
      obtain ⟨b, s₂⟩ := r
      rw [hys] at hrun
      obtain ⟨⟨_, t₁⟩, hys', rfl, hagree, hgain⟩ := hrun.of_ok
      have hrun := hx' hys'
      rw [hxs] at hrun
      obtain ⟨⟨_, t₂⟩, hxs', rfl, hagree', hgain'⟩ := hrun.of_ok
      rw [bind_ok hys, bind_ok hys', bind_ok hxs']
      refine .ok ⟨rfl, ?_, hgain'.shuffled.cross hgain.shuffled fun hk => ⟨?_, ?_⟩⟩
      · exact agree_of_cross hs (hx.writes hxs) (hy.writes hys) (hy.writes hys') (hx.writes hxs') hd hagree hagree'
      · exact hy.nodup_keys hys (hx.nodup_keys hxs hk.1)
      · exact hx.nodup_keys hxs' (hy.nodup_keys hys' hk.2)

end Confined

/-! ### Lists of steps -/

theorem mapM_lockstep {x y : ι → Check β} {l : List ι} (h : ∀ e ∈ l, Lockstep E N Eq (x e) (y e)) :
    Lockstep E N Eq (l.mapM x) (l.mapM y) := by
  induction l with
  | nil => exact .pure rfl
  | cons e rest ih =>
    rw [List.mapM_cons, List.mapM_cons]
    rw [List.forall_mem_cons] at h
    exact h.1.next fun b => (ih h.2).next fun bs => .pure rfl

/-- Steps that are confined to different nodes can be run in any order. -/
theorem mapM_shuffle {ids : ι → List Nat} {x : ι → Check β} {l l' : List ι} (h : l.Perm l')
    (hx : ∀ e ∈ l, Confined (ids e) (x e)) (hids : (l.flatMap ids).Nodup) : Shuffle List.Perm (l.mapM x) (l'.mapM x) := by
  have hall : ∀ {l : List ι}, (∀ e ∈ l, Confined (ids e) (x e)) → Shuffle List.Perm (l.mapM x) (l.mapM x) := fun hx =>
    .of_lockstep ((mapM_lockstep fun e he => (hx e he).reads .univ fun _ _ => trivial).weaken fun _ _ h => h ▸ .refl _)
  induction h with
  | nil => exact hall hx
  | cons e _ ih =>
    rw [List.forall_mem_cons] at hx
    rw [List.flatMap_cons] at hids
    rw [List.mapM_cons, List.mapM_cons]
    refine Shuffle.bind (.of_lockstep (hx.1.reads .univ fun _ _ => trivial)) ?_
    rintro b _ rfl
    exact (ih hx.2 (List.nodup_append.1 hids).2.1).bind fun bs bs' hbs => .pure (hbs.cons b)
  | swap e f rest =>
    simp only [List.forall_mem_cons] at hx
    obtain ⟨hf, he, hrest⟩ := hx
    have hd : ∀ n ∈ ids f, n ∉ ids e := by
      intro n hn hn'
      rw [List.flatMap_cons, List.flatMap_cons, List.nodup_append] at hids
      exact hids.2.2 n hn n (by simp [hn']) rfl
    have hfirst : (f :: e :: rest).mapM x =
        (do let p ← (do let b ← x f; let c ← x e; return (b, c)); let bs ← rest.mapM x; return p.1 :: p.2 :: bs) := by
      simp
    have hsecond : (e :: f :: rest).mapM x =
        (do let p ← (do let c ← x e; let b ← x f; return (b, c)); let bs ← rest.mapM x; return p.2 :: p.1 :: bs) := by
      simp
    rw [hfirst, hsecond]
    refine (hf.swap he hd).bind ?_
    rintro p _ rfl
    exact (hall hrest).bind fun bs bs' hbs => .pure ((List.Perm.swap _ _ _).trans ((hbs.cons _).cons _))
  | trans h₁ _ ih ih' =>
    exact (ih hx hids).trans (ih' (fun e he => hx e (h₁.mem_iff.2 he)) ((h₁.flatMap_right _).nodup_iff.1 hids))
      fun _ _ _ hr hr' => hr.trans hr'

end Check

end ScriptCheck
