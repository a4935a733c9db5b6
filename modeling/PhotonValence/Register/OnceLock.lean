import Mathlib.Logic.Basic

namespace register

/-- A cell that is written at most once. -/
structure OnceLock (Value : Type*) where
  value : Option Value := none

namespace OnceLock

def get {Value : Type*} (self : OnceLock Value) : Option Value := self.value

/-- The first write wins; a later one hands its value back and changes
nothing. -/
def set {Value : Type*} (self : OnceLock Value) (value : Value) : OnceLock Value :=
  match self.value with
  | none => ⟨some value⟩
  | some _ => self

@[simp] theorem get_set {Value : Type*} (self : OnceLock Value) (value : Value) :
    (self.set value).get = some (self.get.getD value) := by
  unfold set get
  split <;> rename_i hheld <;> simp [hheld]

theorem set_of_get {Value : Type*} {self : OnceLock Value} {held : Value} (hheld : self.get = some held)
    (value : Value) : self.set value = self := by
  simp only [get] at hheld
  simp only [set, hheld]

end OnceLock

end register
