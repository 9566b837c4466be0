import Mathlib.Data.List.Basic

/-!
# Length-bounded collections

Lists whose length is fixed or bounded by their type.  `new` rejects a list of
the wrong length; `resize` and `truncate` make it fit.  Where a decoder does not
call `new`, the length is only declared.
-/

namespace Ssz

/-- A list of exactly `capacity` elements. -/
structure FixedVector (Element : Type) (capacity : Nat) where
  toList : List Element
  length_eq : toList.length = capacity
  deriving DecidableEq

/-- A list of at most `maximum` elements. -/
structure VariableList (Element : Type) (maximum : Nat) where
  toList : List Element
  length_le : toList.length ≤ maximum
  deriving DecidableEq

/-- A vector whose decoder does not compare its length with `capacity`. -/
@[ext]
structure UncheckedVector (Element : Type) (capacity : Nat) where
  toList : List Element
  deriving DecidableEq

/-- A list whose decoder does not compare its length with `maximum`. -/
@[ext]
structure UncheckedList (Element : Type) (maximum : Nat) where
  toList : List Element
  deriving DecidableEq

variable {Element : Type} {capacity maximum : Nat}

namespace FixedVector

/-- The elements as they are, if there are exactly `capacity` of them. -/
def new (elements : List Element) : Option (FixedVector Element capacity) :=
  if exactly : elements.length = capacity then some ⟨elements, exactly⟩ else none

theorem toList_of_new {elements : List Element} {vector : FixedVector Element capacity}
    (made : new elements = some vector) : vector.toList = elements := by
  simp only [new] at made
  split at made
  · cases made
    rfl
  · cases made

/-- The elements cut, or padded with `fill`, to length `capacity`. -/
def resize (fill : Element) (elements : List Element) : FixedVector Element capacity :=
  ⟨elements.take capacity ++ List.replicate (capacity - elements.length) fill, by simp; omega⟩

def replicate (element : Element) : FixedVector Element capacity :=
  ⟨List.replicate capacity element, List.length_replicate⟩

@[ext]
theorem ext {first second : FixedVector Element capacity}
    (same : first.toList = second.toList) : first = second := by
  cases first
  cases second
  cases same
  rfl

@[simp]
theorem new_toList (vector : FixedVector Element capacity) : new vector.toList = some vector := by
  simp [new, vector.length_eq]

@[simp]
theorem resize_toList (fill : Element) (vector : FixedVector Element capacity) :
    resize fill vector.toList = vector := by
  ext1
  simp [resize, vector.length_eq, List.take_of_length_le]

end FixedVector

namespace VariableList

/-- The elements as they are, if there are at most `maximum` of them. -/
def new (elements : List Element) : Option (VariableList Element maximum) :=
  if fits : elements.length ≤ maximum then some ⟨elements, fits⟩ else none

theorem new_of_le {elements : List Element} (fits : elements.length ≤ maximum) :
    new elements = some (⟨elements, fits⟩ : VariableList Element maximum) :=
  dif_pos fits

theorem toList_of_new {elements : List Element} {list : VariableList Element maximum}
    (made : new elements = some list) : list.toList = elements := by
  simp only [new] at made
  split at made
  · cases made
    rfl
  · cases made

def truncate (elements : List Element) : VariableList Element maximum :=
  ⟨elements.take maximum, List.length_take_le _ _⟩

@[simp]
theorem new_toList (list : VariableList Element maximum) : new list.toList = some list := by
  simp [new, list.length_le]

def empty : VariableList Element maximum := ⟨[], Nat.zero_le _⟩

@[ext]
theorem ext {first second : VariableList Element maximum}
    (same : first.toList = second.toList) : first = second := by
  cases first
  cases second
  cases same
  rfl

@[simp]
theorem truncate_toList (list : VariableList Element maximum) : truncate list.toList = list := by
  ext1
  exact List.take_of_length_le list.length_le

end VariableList

section Unchecked

def FixedVector.unchecked (vector : FixedVector Element capacity) :
    UncheckedVector Element capacity :=
  ⟨vector.toList⟩

def VariableList.unchecked (list : VariableList Element maximum) :
    UncheckedList Element maximum :=
  ⟨list.toList⟩

@[simp]
theorem FixedVector.toList_unchecked (vector : FixedVector Element capacity) :
    vector.unchecked.toList = vector.toList := rfl

@[simp]
theorem VariableList.toList_unchecked (list : VariableList Element maximum) :
    list.unchecked.toList = list.toList := rfl

def UncheckedList.empty : UncheckedList Element maximum := ⟨[]⟩

/-- The vector has the length that its type declares. -/
def UncheckedVector.Fits (vector : UncheckedVector Element capacity) : Prop :=
  vector.toList.length = capacity

/-- The list has no more elements than its type declares. -/
def UncheckedList.Fits (list : UncheckedList Element maximum) : Prop :=
  list.toList.length ≤ maximum

instance (vector : UncheckedVector Element capacity) : Decidable vector.Fits :=
  inferInstanceAs (Decidable (_ = _))

instance (list : UncheckedList Element maximum) : Decidable list.Fits :=
  inferInstanceAs (Decidable (_ ≤ _))

theorem FixedVector.fits_unchecked (vector : FixedVector Element capacity) :
    vector.unchecked.Fits :=
  vector.length_eq

theorem VariableList.fits_unchecked (list : VariableList Element maximum) : list.unchecked.Fits :=
  list.length_le

theorem UncheckedList.fits_empty : (empty : UncheckedList Element maximum).Fits :=
  Nat.zero_le _

end Unchecked

end Ssz
