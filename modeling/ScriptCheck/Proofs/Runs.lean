import ScriptCheck.Analysis.Check
import Mathlib.Order.Defs.Unbundled

/-!
# Runs of a step

A step either ends in a fault or gives an answer and a new state. `Check.bind_eq_ok` takes a run of two steps in a row apart,
and the equations here do the same for the primitive steps. What a step does to the state whatever its input is said by
`Keeps R`: every run that ends takes a state to one that `R` relates to it. A run is quiet when no diagnostic stands in the
state it ends in; steps only ever add diagnostics, so every part of a quiet run is quiet.
-/

namespace ScriptCheck.Check

variable {α β : Type} {s s' : State}

/-! ### The primitive steps -/

@[simp] theorem get_apply (s : State) : (get : Check State) s = .ok (s, s) := rfl

@[simp] theorem modify_apply (f : State → State) (s : State) : (modify f : Check Unit) s = .ok ((), f s) := rfl

@[simp] theorem set_apply (t s : State) : (set t : Check PUnit) s = .ok (⟨⟩, t) := rfl

/-- A look-up that may end in a fault leaves the state as it is. -/
@[simp] theorem lift_eq_ok {x : Except Fault α} {a : α} : (liftM x : Check α) s = .ok (a, s') ↔ x = .ok a ∧ s' = s := by
  cases x with
  | error e => exact ⟨fun h => (nomatch h), fun h => (nomatch h.1)⟩
  | ok b =>
    constructor
    · intro h
      cases h
      exact ⟨rfl, rfl⟩
    · rintro ⟨h, rfl⟩
      cases h
      rfl

@[simp] theorem pure_eq_ok {a b : α} : (pure a : Check α) s = .ok (b, s') ↔ a = b ∧ s = s' := by
  simp [pure_apply]

/-- Two runs that end alike give the same answer in the same state. -/
theorem ok_inj {a b : α} : (.ok (a, s) : Except Fault (α × State)) = .ok (b, s') ↔ a = b ∧ s = s' := by simp

theorem pushTemplate_apply (kind : TemplateKind) (frame : Frame) (body : Option Nat) (s : State) :
    pushTemplate kind frame body s = .ok (s.templates.length,
      { s with templates := s.templates ++ [⟨kind, frame.size, frame.seqElem, frame.isThisCall, body⟩] }) := rfl

/-- Leaving a scope puts names and narrowings back into the state that the step ends in. -/
theorem inScope_eq_ok {x : Check α} {a : α} :
    inScope x s = .ok (a, s') ↔ ∃ t, x s = .ok (a, t) ∧
      s' = { t with frame := t.frame.leaveBlock s.frame, globalScope := s.globalScope } := by
  simp only [inScope, bind_eq_ok, get_apply, modify_apply, pure_eq_ok, ok_inj]
  constructor
  · rintro ⟨_, _, ⟨rfl, rfl⟩, b, t, h, _, _, ⟨-, rfl⟩, rfl, rfl⟩
    exact ⟨t, h, rfl⟩
  · rintro ⟨t, h, rfl⟩
    exact ⟨_, _, ⟨rfl, rfl⟩, a, t, h, (), _, ⟨trivial, rfl⟩, rfl, rfl⟩

/-- A block is a scope that starts outside the script's own variables. -/
theorem inBlock_eq_ok {x : Check α} {a : α} :
    inBlock x s = .ok (a, s') ↔ ∃ t, x { s with globalScope := false } = .ok (a, t) ∧
      s' = { t with frame := t.frame.leaveBlock s.frame, globalScope := s.globalScope } := by
  simp only [inBlock, inScope_eq_ok, bind_eq_ok, modify_apply, ok_inj]
  constructor
  · rintro ⟨t, ⟨_, _, ⟨-, rfl⟩, h⟩, rfl⟩
    exact ⟨t, h, rfl⟩
  · rintro ⟨t, h, rfl⟩
    exact ⟨t, ⟨(), _, ⟨trivial, rfl⟩, h⟩, rfl⟩

/-- A step in a frame of its own starts in that frame, and the frame before it comes back. -/
theorem inFrame_eq_ok {x : Check α} {frame : Frame} {r : α × Frame} :
    inFrame frame x s = .ok (r, s') ↔ ∃ t, x { s with frame := frame, globalScope := false } = .ok (r.1, t) ∧
      r.2 = t.frame ∧ s' = { t with frame := s.frame, globalScope := s.globalScope } := by
  simp only [inFrame, bind_eq_ok, get_apply, set_apply, pure_eq_ok, ok_inj]
  constructor
  · rintro ⟨_, _, ⟨rfl, rfl⟩, _, _, ⟨-, rfl⟩, b, t, h, _, _, ⟨rfl, rfl⟩, _, _, ⟨-, rfl⟩, rfl, rfl⟩
    exact ⟨t, h, rfl, rfl⟩
  · obtain ⟨a, f⟩ := r
    rintro ⟨t, h, rfl, rfl⟩
    exact ⟨_, _, ⟨rfl, rfl⟩, (), _, ⟨trivial, rfl⟩, a, t, h, _, _, ⟨rfl, rfl⟩, (), _, ⟨trivial, rfl⟩, rfl, rfl⟩

/-! ### What a step does to every state -/

/-- Every run of the step takes a state to one that `R` relates to it. -/
def Keeps (R : State → State → Prop) (x : Check α) : Prop := ∀ ⦃s a s'⦄, x s = .ok (a, s') → R s s'

namespace Keeps

variable {R : State → State → Prop}

theorem weaken {R' : State → State → Prop} {x : Check α} (h : Keeps R x) (hR : ∀ s s', R s s' → R' s s') :
    Keeps R' x := fun _ _ _ hx => hR _ _ (h hx)

theorem pure [Std.Refl R] (a : α) : Keeps R (pure a : Check α) := by
  intro s b s' h
  obtain ⟨-, rfl⟩ := pure_eq_ok.1 h
  exact Std.Refl.refl s

theorem lift [Std.Refl R] (x : Except Fault α) : Keeps R (liftM x : Check α) := by
  intro s b s' h
  obtain ⟨-, rfl⟩ := lift_eq_ok.1 h
  exact Std.Refl.refl _

theorem get [Std.Refl R] : Keeps R (get : Check State) := by
  intro s b s' h
  cases h
  exact Std.Refl.refl s

theorem bind [IsTrans State R] {x : Check α} {f : α → Check β} (hx : Keeps R x) (hf : ∀ a, Keeps R (f a)) :
    Keeps R (x >>= f) := by
  intro s b s' h
  obtain ⟨a, t, h₁, h₂⟩ := bind_eq_ok.1 h
  exact IsTrans.trans _ _ _ (hx h₁) (hf a h₂)

theorem forM [Std.Refl R] [IsTrans State R] {f : α → Check PUnit} : ∀ {l : List α}, (∀ a ∈ l, Keeps R (f a)) →
    Keeps R (l.forM f)
  | [], _ => .pure _
  | _ :: _, h => (h _ List.mem_cons_self).bind fun _ => forM fun a ha => h a (List.mem_cons_of_mem _ ha)

end Keeps

/-! ### Quiet runs -/

/-- The step gives the answer `a` and the state `s'`, and no diagnostic stands there. -/
structure Quiet (x : Check α) (s : State) (a : α) (s' : State) : Prop where
  run : x s = .ok (a, s')
  silent : s'.diagnostics = []

/-- No run of the step takes a diagnostic away. -/
def Adds (s s' : State) : Prop := s.diagnostics <+: s'.diagnostics

instance : Std.Refl Adds := ⟨fun s => List.prefix_refl s.diagnostics⟩

instance : IsTrans State Adds := ⟨fun _ _ _ h h' => List.IsPrefix.trans h h'⟩

/-- Where there is no diagnostic at the end there was none before. -/
theorem Adds.silent (h : Adds s s') (hs : s'.diagnostics = []) : s.diagnostics = [] := by
  rw [Adds, hs, List.prefix_nil] at h
  exact h

end ScriptCheck.Check
