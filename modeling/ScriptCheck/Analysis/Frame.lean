import ScriptCheck.Analysis.Storage

/-!
# Frames

A frame is what one body (of the script, a function, a lambda or a task) keeps while it is analysed. Its slots only ever
grow: a slot is never given out twice, also where blocks that stand side by side declare the same name. Names and
narrowed types, in contrast, belong to a block and are put back when it ends; a narrowing that an assignment has
dropped inside the block stays dropped.
-/

namespace ScriptCheck

/-- What the `return`s of a body are checked against. -/
inductive ReturnMode where
  | fixed (ty : Ty)
  /-- A lambda that does not say what it returns: the first `return` decides. -/
  | inferred (ty : Option Ty)
  deriving DecidableEq, Repr

/-- A slot: the name it was made for and the type it was declared with. -/
structure LocalVar where
  name : String
  ty : Ty
  deriving DecidableEq, Repr

/-- What one body keeps while it is analysed. -/
structure Frame where
  /-- All slots ever made, in order. -/
  locals : List LocalVar
  /-- The slot each visible name refers to. -/
  names : Table String Nat
  /-- The types of places that a test has narrowed. -/
  overrides : Table Storage Ty
  ret : ReturnMode
  /-- What a sequence function yields. -/
  seqElem : Option Ty
  loopDepth : Nat
  isThisCall : Bool

namespace Frame

/-- The frame of a body that has not started. -/
def enter (ret : ReturnMode) (seqElem : Option Ty) (isThisCall : Bool) : Frame :=
  ⟨[], .empty, .empty, ret, seqElem, 0, isThisCall⟩

/-- The frame of a script's own statements. -/
def script : Frame := enter (.fixed .void) none false

/-- The number of slots made so far, which is the next slot. -/
def size (f : Frame) : Nat := f.locals.length

/-- Makes the next slot and lets the name refer to it. -/
def declare (f : Frame) (name : String) (ty : Ty) : Frame :=
  { f with locals := f.locals ++ [⟨name, ty⟩], names := f.names.insert name f.size }

/-- The slot a visible name refers to, and its declared type. -/
def lookup? (f : Frame) (name : String) : Option (Nat × Ty) := do
  let slot ← f.names.find? name
  let var ← f.locals[slot]?
  return (slot, var.ty)

/-- The same for a name that is met in the script, whose slot has to have been made. -/
def lookup (f : Frame) (name : String) : Except Fault (Option (Nat × Ty)) :=
  match f.names.find? name with
  | none => .ok none
  | some slot => return some (slot, (← Fault.require f.locals[slot]?).ty)

/-- A look-up that succeeds finds what the name refers to. -/
theorem lookup?_of_lookup {f : Frame} {name : String} {found : Option (Nat × Ty)} (h : f.lookup name = .ok found) :
    f.lookup? name = found := by
  unfold lookup at h
  unfold lookup?
  cases hn : f.names.find? name with
  | none => simpa [hn] using h
  | some slot =>
    cases hv : f.locals[slot]? with
    | none => simp [hn, hv, Fault.require, bind, Except.bind] at h
    | some v => simpa [hn, hv, Fault.require, bind, Except.bind, pure, Except.pure] using h

/-- A name that refers to a slot is found. -/
theorem lookup_of_lookup? {f : Frame} {name : String} {found : Nat × Ty} (h : f.lookup? name = some found) :
    f.lookup name = .ok (some found) := by
  unfold lookup? at h
  unfold lookup
  cases hn : f.names.find? name with
  | none => simp [hn] at h
  | some slot =>
    cases hv : f.locals[slot]? with
    | none => simp [hn, hv, bind] at h
    | some v => simpa [hn, hv, Fault.require, bind, Except.bind, pure, Except.pure] using h

/-- The type a place is read with: the narrowed one, or else the declared one. -/
def readType (f : Frame) (storage : Storage) (declared : Ty) : Ty := (f.overrides.find? storage).getD declared

/-- Takes a place to have a narrower type. -/
def narrow (f : Frame) (storage : Storage) (ty : Ty) : Frame := { f with overrides := f.overrides.insert storage ty }

/-- Forgets what is known about a place besides its declared type. -/
def widen (f : Frame) (storage : Storage) : Frame := { f with overrides := f.overrides.erase storage }

/-- Leaves a block that was entered with the frame `before`: names and narrowings are as they were, without the narrowings
that were dropped inside. -/
def leaveBlock (f before : Frame) : Frame :=
  { f with
    names := before.names
    overrides := before.overrides.filterKeys f.overrides.contains }

end Frame

/-- The variables that stand at the top level of the script's body, one slot each; a name that is declared again refers to
the new slot. -/
structure PrivateGlobals where
  slots : List Ty
  names : Table String Nat

namespace PrivateGlobals

/-- No variables yet. -/
def empty : PrivateGlobals := ⟨[], .empty⟩

/-- The number of slots made so far, which is the next slot. -/
def size (g : PrivateGlobals) : Nat := g.slots.length

/-- Makes the next slot and lets the name refer to it. -/
def declare (g : PrivateGlobals) (name : String) (ty : Ty) : PrivateGlobals :=
  ⟨g.slots ++ [ty], g.names.insert name g.size⟩

/-- The slot a name refers to, which has to have been made, and its declared type. -/
def lookup (g : PrivateGlobals) (name : String) : Except Fault (Option (Nat × Ty)) :=
  match g.names.find? name with
  | none => .ok none
  | some slot => return some (slot, ← Fault.require g.slots[slot]?)

/-- What is found is the slot that the name refers to and the type that stands there. -/
theorem lookup_eq_some {g : PrivateGlobals} {name : String} {slot : Nat} {ty : Ty} (h : g.lookup name = .ok (some (slot, ty))) :
    g.names.find? name = some slot ∧ g.slots[slot]? = some ty := by
  unfold lookup at h
  cases hn : g.names.find? name with
  | none => simp [hn] at h
  | some k =>
    cases hv : g.slots[k]? with
    | none => simp [hn, hv, Fault.require, bind, Except.bind] at h
    | some t =>
      simp only [hn, hv, Fault.require, bind, Except.bind, pure, Except.pure, Except.ok.injEq, Option.some.injEq,
        Prod.mk.injEq] at h
      obtain ⟨rfl, rfl⟩ := h
      exact ⟨rfl, hv⟩

end PrivateGlobals

end ScriptCheck
