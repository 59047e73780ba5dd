import ScriptCheck.Typing.Instantiation

/-!
# Base types

A type may be derived from another, which may be derived in turn. The base is written in the parameters of the derived
type, so it is known once the derived type has its arguments. A climb looks at a type, then at its base, then at the base
of that, and stops at the first that it finds an answer at.

Where bases do not go round in circles a climb ends by itself, and `Registry.climbLimit` steps are enough for it, also where a
base is one of the derived type's own arguments. A chain may also never end: two types can be derived from each other, and the
bases of `class X<T> : X<X<T>>` grow without end. The loops of an analyzer that climbs without a bound go on forever there
unless they find what they look for, and give no answer. Here a climb is given up after a number of steps, as if nothing had
been found. How many steps it takes beyond the limit is a parameter (`Patience`), so that what is said of all analyses is said
of every such number, and no chain that ends is cut short by any of them.
-/

namespace ScriptCheck

/-- How many steps a climb takes beyond those that a chain of bases takes if it ends. -/
class Patience where
  extra : Nat

/-- None. -/
instance : Patience := ⟨0⟩

namespace Registry

/-- The declared base of a type, written with that type's own arguments. -/
def baseOf (reg : Registry) : Ty → Option Ty
  | .nominal id levels => do
    let record ← reg.type? id
    let base ← record.base
    return reg.applyIn id levels base
  | _ => none

/-- The total size of all declared bases. -/
def baseWeight (reg : Registry) : Nat :=
  (reg.flatMap fun m => m.types.values).foldr (fun r n => (r.base.map Ty.size).getD 0 + n) 0

/-- At least as many steps as a chain of bases from `t` takes, if it ends. To be done with a type of `n` parts at most `n`
heads are followed, each to its base; and bases are followed inside bases at most `baseWeight + 1` deep, because a base that
is met again before it is done with never ends. -/
def climbLimit (reg : Registry) (t : Ty) : Nat := t.size * Nat.pow (reg.baseWeight + 1) (reg.baseWeight + 1)

/-- What `visit` first finds at `t`, at its base, and so on, within a number of steps. -/
def climbWithin (reg : Registry) {α : Type} (visit : Ty → Option α) : Nat → Ty → Option α
  | limit, t =>
    match visit t with
    | some a => some a
    | none =>
      match limit with
      | 0 => none
      | limit + 1 =>
        match reg.baseOf t with
        | none => none
        | some base => reg.climbWithin visit limit base

section

variable [Patience]

/-- The number of steps after which a climb from `t` is given up. -/
def reach (reg : Registry) (t : Ty) : Nat := reg.climbLimit t + Patience.extra

/-- What `visit` first finds at `t` or on the way up its bases. -/
def climb (reg : Registry) {α : Type} (visit : Ty → Option α) (t : Ty) : Option α :=
  reg.climbWithin visit (reg.reach t) t

/-- Whether a value of type `source` may stand where `target` is expected: the two are equal, or `target` is met on the way
up the bases of `source`. -/
def assignable (reg : Registry) (target source : Ty) : Bool :=
  (reg.climb (fun t => if t = target then some () else none) source).isSome

end

end Registry

end ScriptCheck
