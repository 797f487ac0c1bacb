import Mathlib.Data.Nat.Notation
import Mathlib.Logic.Function.Basic

/-!
# Machinery/Descriptors — the open descriptors of a process, and who is told of them

A descriptor is a number.  While it is open it has an owner, which opened it; and somebody may be
registered for its events, whether or not it is open.  The operations change one number each, so all
there is to say of them is what they do to that number and that they leave the others alone.
-/

namespace Machinery

/-- The owner of each open descriptor, and who is registered for each number. -/
@[ext] structure Descriptors (ρ : Type*) where
  owner : ℕ → Option ρ
  registered : ℕ → Option ρ

namespace Descriptors

variable {ρ : Type*} (d : Descriptors ρ) (fd i : ℕ) (r : ρ)

/-- The number is not in use. -/
def Free : Prop := d.owner fd = none

instance [DecidableEq ρ] : Decidable (d.Free fd) := inferInstanceAs (Decidable (_ = _))

/-- A number is given out. -/
def opened : Descriptors ρ := { d with owner := Function.update d.owner fd (some r) }

/-- A number is given back. -/
def closed : Descriptors ρ := { d with owner := Function.update d.owner fd none }

def register : Descriptors ρ := { d with registered := Function.update d.registered fd (some r) }

def unregister : Descriptors ρ := { d with registered := Function.update d.registered fd none }

@[simp] theorem owner_opened : (d.opened fd r).owner i = if i = fd then some r else d.owner i :=
  Function.update_apply ..

@[simp] theorem registered_opened : (d.opened fd r).registered = d.registered := rfl

@[simp] theorem owner_closed : (d.closed fd).owner i = if i = fd then none else d.owner i :=
  Function.update_apply ..

@[simp] theorem registered_closed : (d.closed fd).registered = d.registered := rfl

@[simp] theorem owner_register : (d.register fd r).owner = d.owner := rfl

@[simp] theorem registered_register :
    (d.register fd r).registered i = if i = fd then some r else d.registered i :=
  Function.update_apply ..

@[simp] theorem owner_unregister : (d.unregister fd).owner = d.owner := rfl

@[simp] theorem registered_unregister :
    (d.unregister fd).registered i = if i = fd then none else d.registered i :=
  Function.update_apply ..

end Descriptors

end Machinery
