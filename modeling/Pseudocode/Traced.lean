import Pseudocode.Error

/-!
# Traced results

Resolving a handle writes to the log and may fail.  Both are part of the result: `Traced α` holds
the records in the order in which they were written and either a value or a failure.  Records stay
when a later step fails.

A failure is either an `Error`, which callers may inspect and print, or a breach: a registration
built an item of the wrong class.  A breach is a mistake in the program that registered the kind,
so nothing recovers from it.
-/

namespace Pseudocode

/-- Why there is no result. -/
inductive Failure where
  | error (cause : Error)
  /-- The kind registered under `name` is not of the class of its tag. -/
  | breach (name : String)
  deriving DecidableEq, Repr

/-- A result together with what was logged on the way to it. -/
structure Traced (α : Type u) where
  records : List Record
  outcome : Except Failure α

namespace Traced

/-- A result without records. -/
def ok (a : α) : Traced α := ⟨[], .ok a⟩

/-- A failure without records. -/
def failed (f : Failure) : Traced α := ⟨[], .error f⟩

/-- An error without records. -/
def error (e : Error) : Traced α := failed (.error e)

/-- Writes one record. -/
def log (r : Record) : Traced Unit := ⟨[r], .ok ()⟩

/-- The same result after some earlier records. -/
def after (earlier : List Record) (t : Traced α) : Traced α := ⟨earlier ++ t.records, t.outcome⟩

/-- One result after another. -/
def andThen (t : Traced α) (f : α → Traced β) : Traced β :=
  match t.outcome with
  | .ok a => (f a).after t.records
  | .error e => ⟨t.records, .error e⟩

instance : Monad Traced where
  pure := ok
  bind := andThen

/-- The result of something that writes no records. -/
def ofExcept : Except Error α → Traced α
  | .ok a => ok a
  | .error e => error e

@[ext] theorem ext {s t : Traced α} (hr : s.records = t.records) (ho : s.outcome = t.outcome) :
    s = t := by
  cases s
  cases t
  simp_all

@[simp] theorem pure_eq (a : α) : (pure a : Traced α) = ok a := rfl

@[simp] theorem bind_eq (t : Traced α) (f : α → Traced β) : t >>= f = t.andThen f := rfl

@[simp] theorem ok_andThen (a : α) (f : α → Traced β) : (ok a).andThen f = f a := rfl

@[simp] theorem andThen_ok (t : Traced α) : t.andThen ok = t := by
  obtain ⟨r, o⟩ := t
  cases o <;> simp [andThen, after, ok]

theorem andThen_assoc (t : Traced α) (f : α → Traced β) (g : β → Traced γ) :
    (t.andThen f).andThen g = t.andThen fun a => (f a).andThen g := by
  obtain ⟨r, o⟩ := t
  cases o with
  | error e => rfl
  | ok a =>
    simp only [andThen, after]
    cases (f a).outcome <;> simp

/-- Chains of traced results may be regrouped freely. -/
instance : LawfulMonad Traced :=
  LawfulMonad.mk' Traced andThen_ok (fun _ _ => rfl) andThen_assoc

end Traced

end Pseudocode
