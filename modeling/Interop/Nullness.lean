/-
Whether a value may be absent.

A declaration may say nothing about it, and emitted text must: so there are two
types.  `Nullability` is what a declaration says, with silence as a third answer,
and `Nullness` is what is written out.  Precedence runs from the member to its
type, and only where both are silent does the run's own choice decide.
-/

namespace Interop

/-- What is written about a value: it is always there, or it may be absent. -/
inductive Nullness where
  | nonNull
  | nullable
  deriving DecidableEq, Repr, Inhabited

namespace Nullness

def all : List Nullness := [.nonNull, .nullable]

theorem mem_all (n : Nullness) : n ∈ all := by cases n <;> decide

def isNullable : Nullness → Bool
  | .nonNull => false
  | .nullable => true

end Nullness

/-- What a declaration says about a value. -/
inductive Nullability where
  | nonNull
  | nullable
  /-- The declaration is silent. -/
  | notSpecified
  deriving DecidableEq, Repr, Inhabited

namespace Nullability

def isSpecified : Nullability → Bool
  | .notSpecified => false
  | .nonNull | .nullable => true

/-- What the first of two declarations to speak says. -/
def orElse : Nullability → Nullability → Nullability
  | .notSpecified, fallback => fallback
  | stated, _ => stated

/-- Silence is filled in with `unspecified`. -/
def settle (unspecified : Nullness) : Nullability → Nullness
  | .nonNull => .nonNull
  | .nullable => .nullable
  | .notSpecified => unspecified

/-- What is written about a member: its own word first, then its type's, then the run's choice. -/
def settleMember (unspecified : Nullness) (member typeDefault : Nullability) : Nullness :=
  (member.orElse typeDefault).settle unspecified

theorem settle_of_isSpecified {n : Nullability} (h : n.isSpecified = true) (a b : Nullness) :
    n.settle a = n.settle b := by
  cases n with
  | nonNull => rfl
  | nullable => rfl
  | notSpecified => cases h

end Nullability

end Interop
