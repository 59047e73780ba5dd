/-!
# Names of declarations and members

A name is either a text somebody wrote or one of four names the language keeps for itself: the two halves of an indexer
and the two step operators. A reserved name differs from every written one, also from one that is spelled as it is shown,
so a member called `indexer get` never hides an indexer.
-/

namespace ScriptCheck

/-- A written name, or one of the names kept for indexers and for `++` and `--`. -/
inductive Name where
  | text (chars : String)
  | indexerGet
  | indexerSet
  | increment
  | decrement
  deriving DecidableEq, Repr, Inhabited

namespace Name

/-- The text of a written name; a reserved name has none. -/
def written? : Name → Option String
  | text chars => some chars
  | _ => none

/-- Whether the language keeps this name for itself. -/
def reserved : Name → Bool
  | text _ => false
  | _ => true

/-- How a name is shown in a message. -/
def display : Name → String
  | text chars => chars
  | indexerGet => "indexer get"
  | indexerSet => "indexer set"
  | increment => "operator++"
  | decrement => "operator--"

/-- A name is reserved exactly when nobody wrote it. -/
theorem reserved_eq_true_iff (n : Name) : n.reserved = true ↔ n.written? = none := by
  cases n <;> simp [reserved, written?]

end Name

end ScriptCheck
