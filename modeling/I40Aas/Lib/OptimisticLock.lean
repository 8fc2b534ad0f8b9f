import Mathlib.Order.Basic
import Mathlib.Tactic.Common

/-!
Optimistic locking of one cell of a store. A writer names the version it
expects; the store compares it with the version of the record in the cell and
counts it up when it takes the write. `Sees cell b` says that `b` is what a
client once found in the cell or put there itself. It survives every later
write, and a client that names the version of what it has seen replaces
exactly that.
-/

namespace I40Aas.Lib

/-- A record of a versioned store. -/
structure Versioned (α : Type*) where
  version : ℕ
  value : α
  deriving DecidableEq, Repr

variable {α : Type*}

/-- The record that a write of `a` under the expected version `v` leaves in the
cell. An empty cell takes every write; a record with another version than `v`
refuses it. -/
def upsert (v : ℕ) (a : α) : Option (Versioned α) → Option (Versioned α)
  | none => some ⟨v + 1, a⟩
  | some r => if r.version = v then some ⟨v + 1, a⟩ else none

/-- The version a client names after it has seen `b` in the cell. -/
def expectedVersion (b : Option (Versioned α)) : ℕ := (b.map (·.version)).getD 0

/-- `b` was in the cell at some earlier moment (`none`: the cell was empty). -/
def Sees (cell : Option (Versioned α)) : Option (Versioned α) → Prop
  | none => ∀ r, cell = some r → 0 < r.version
  | some b => ∃ r, cell = some r ∧ b.version ≤ r.version ∧ (b.version = r.version → r = b)

@[simp] theorem expectedVersion_none : expectedVersion (none : Option (Versioned α)) = 0 := rfl

@[simp] theorem expectedVersion_some (b : Versioned α) :
    expectedVersion (some b) = b.version := rfl

theorem upsert_eq_some_iff {v : ℕ} {a : α} {cell : Option (Versioned α)} {r : Versioned α} :
    upsert v a cell = some r ↔
      r = ⟨v + 1, a⟩ ∧ ∀ old, cell = some old → old.version = v := by
  cases cell with
  | none => simp [upsert, eq_comm]
  | some old =>
      by_cases h : old.version = v
      · simp [upsert, h, eq_comm]
      · simp [upsert, h]

theorem upsert_eq_none_iff {v : ℕ} {a : α} {cell : Option (Versioned α)} :
    upsert v a cell = none ↔ ∃ old, cell = some old ∧ old.version ≠ v := by
  cases cell with
  | none => simp [upsert]
  | some old => simp [upsert]

theorem sees_self (cell : Option (Versioned α)) : Sees cell cell := by
  cases cell with
  | none => intro r hr; cases hr
  | some b => exact ⟨b, rfl, Nat.le_refl _, fun _ => rfl⟩

/-- A client has not seen a version later than the one in the cell. -/
theorem Sees.expectedVersion_le {cell b : Option (Versioned α)} (h : Sees cell b) :
    expectedVersion b ≤ expectedVersion cell := by
  cases b with
  | none => exact Nat.zero_le _
  | some b =>
      obtain ⟨r, rfl, hle, -⟩ := h
      exact hle

/-- What was there before something that was there before. -/
theorem Sees.trans {cell b c : Option (Versioned α)} (h : Sees cell b) (h' : Sees b c) :
    Sees cell c := by
  cases c with
  | none =>
      intro r hr
      cases b with
      | none => exact h r hr
      | some b =>
          obtain ⟨r', hr', hle, -⟩ := h
          obtain rfl := Option.some.inj (hr.symm.trans hr')
          exact Nat.lt_of_lt_of_le (h' b rfl) hle
  | some c =>
      obtain ⟨b', rfl, hle', heq'⟩ := h'
      obtain ⟨r, rfl, hle, heq⟩ := h
      refine ⟨r, rfl, Nat.le_trans hle' hle, fun hversion => ?_⟩
      rw [heq (by omega), heq' (by omega)]

/-- What a client has seen stays seen when anybody writes to the cell. -/
theorem Sees.upsert {cell b : Option (Versioned α)} {v : ℕ} {a : α} {r : Versioned α}
    (h : Sees cell b) (hw : upsert v a cell = some r) : Sees (some r) b := by
  obtain ⟨rfl, hv⟩ := upsert_eq_some_iff.mp hw
  cases b with
  | none => intro r hr; cases hr; exact Nat.succ_pos v
  | some b =>
      obtain ⟨old, hcell, hle, -⟩ := h
      have hold := hv old hcell
      refine ⟨_, rfl, ?_, fun heq => ?_⟩
      · show b.version ≤ v + 1
        omega
      · have : b.version = v + 1 := heq
        omega

/-- A write that names the version its client has seen replaces what the client
has seen. -/
theorem Sees.eq_of_upsert {cell b : Option (Versioned α)} {a : α} {r : Versioned α}
    (h : Sees cell b) (hw : Lib.upsert (expectedVersion b) a cell = some r) : cell = b := by
  obtain ⟨-, hv⟩ := upsert_eq_some_iff.mp hw
  cases b with
  | none =>
      cases cell with
      | none => rfl
      | some old =>
          have hpos := h old rfl
          have hzero : old.version = 0 := hv old rfl
          omega
  | some b =>
      obtain ⟨old, rfl, -, heq⟩ := h
      rw [heq (hv old rfl).symm]

/-- A record with another version than the one a client names is not what the
client has seen. -/
theorem some_ne_of_version_ne {b : Option (Versioned α)} {old : Versioned α}
    (hne : old.version ≠ expectedVersion b) : some old ≠ b := by
  rintro rfl
  exact hne rfl

end I40Aas.Lib
