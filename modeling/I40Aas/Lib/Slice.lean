import Mathlib.Data.List.Basic

/-!
Slices: the first elements of an array that has room for more. A slice that is cut short keeps
its array, so what is appended afterwards goes to the place that became free. Access outside of
the length fails.
-/

namespace I40Aas.Lib

structure Slice (α : Type*) where
  array : List α
  length : ℕ
  length_le : length ≤ array.length

namespace Slice

variable {α β : Type*}

def empty : Slice α where
  array := []
  length := 0
  length_le := Nat.le_refl _

def elements (s : Slice α) : List α :=
  s.array.take s.length

def get? (s : Slice α) (i : ℕ) : Option α :=
  s.elements[i]?

def set? (s : Slice α) (i : ℕ) (a : α) : Option (Slice α) :=
  if i < s.length then
    some ⟨s.array.set i a, s.length, by rw [List.length_set]; exact s.length_le⟩
  else none

/-- The first elements. There may be more of them than before, as far as the array goes. -/
def reslice? (s : Slice α) (n : ℕ) : Option (Slice α) :=
  if h : n ≤ s.array.length then some ⟨s.array, n, h⟩ else none

/-- Where the array is full the elements are copied to one of twice the length. -/
def append (s : Slice α) (a zero : α) : Slice α :=
  if h : s.length < s.array.length then
    ⟨s.array.set s.length a, s.length + 1, by rw [List.length_set]; exact h⟩
  else
    ⟨s.elements ++ a :: List.replicate s.length zero, s.length + 1, by
      rw [List.length_append, List.length_cons, elements, List.length_take,
        Nat.min_eq_left s.length_le]
      omega⟩

@[simp] theorem length_elements (s : Slice α) : s.elements.length = s.length := by
  rw [elements, List.length_take, Nat.min_eq_left s.length_le]

theorem set?_of_lt {s : Slice α} {i : ℕ} (h : i < s.length) (a : α) :
    ∃ s', s.set? i a = some s' ∧ s'.length = s.length ∧ s'.elements = s.elements.set i a := by
  refine ⟨_, if_pos h, rfl, ?_⟩
  exact List.take_set

theorem reslice?_of_le {s : Slice α} {n : ℕ} (h : n ≤ s.length) :
    ∃ s', s.reslice? n = some s' ∧ s'.elements = s.elements.take n := by
  refine ⟨_, dif_pos (Nat.le_trans h s.length_le), ?_⟩
  rw [elements, elements, List.take_take, Nat.min_eq_left h]

@[simp] theorem elements_append (s : Slice α) (a zero : α) :
    (s.append a zero).elements = s.elements ++ [a] := by
  unfold append
  split
  · rename_i h
    change (s.array.set s.length a).take (s.length + 1) = s.array.take s.length ++ [a]
    have hlength : s.length < (s.array.set s.length a).length := by
      rw [List.length_set]
      exact h
    rw [List.take_succ_eq_append_getElem hlength, List.getElem_set_self,
      List.take_set_of_le (Nat.le_refl _)]
  · change (s.elements ++ a :: List.replicate s.length zero).take (s.length + 1) = _
    have hlength : s.length + 1 = s.elements.length + 1 := by
      rw [length_elements]
    rw [hlength, List.take_length_add_append, List.take_succ_cons, List.take_zero]

/-- `s[i] = s[len(s)-1]; s[len(s)-1] = zero; s = s[:len(s)-1]` -/
def removeByLast? (s : Slice α) (i : ℕ) (zero : α) : Option (Slice α) :=
  (s.get? (s.length - 1)).bind fun last =>
    (s.set? i last).bind fun s =>
      (s.set? (s.length - 1) zero).bind fun s => s.reslice? (s.length - 1)

/-- The last element takes the place of the one at the index. -/
theorem removeByLast?_eq {s : Slice α} {i : ℕ} {front : List α} {last : α} (zero : α)
    (hs : s.elements = front ++ [last]) (hi : i < s.length) :
    ∃ s', s.removeByLast? i zero = some s' ∧
      s'.elements = ((front ++ [last]).set i last).dropLast := by
  have hlength : s.length = front.length + 1 := by
    rw [← length_elements, hs, List.length_append, List.length_singleton]
  have hlast : s.get? (s.length - 1) = some last := by
    rw [get?, hs, hlength, Nat.add_sub_cancel, List.getElem?_concat_length]
  obtain ⟨moved, hmoved, hmovedLength, hmovedElements⟩ := set?_of_lt hi last
  have hlt : moved.length - 1 < moved.length := by omega
  obtain ⟨erased, herased, herasedLength, herasedElements⟩ := set?_of_lt hlt zero
  obtain ⟨cut, hcut, hcutElements⟩ := reslice?_of_le (s := erased) (Nat.sub_le erased.length 1)
  refine ⟨cut, ?_, ?_⟩
  · rw [removeByLast?, hlast, Option.bind_some, hmoved, Option.bind_some, herased,
      Option.bind_some, hcut]
  · rw [hcutElements, herasedElements, herasedLength, List.take_set_of_le (Nat.le_refl _),
      hmovedElements, hs, List.dropLast_eq_take, List.length_set, ← hs, length_elements,
      hmovedLength]

end Slice

end I40Aas.Lib
