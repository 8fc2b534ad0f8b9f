import Mathlib.Data.List.Basic

/-!
The deferred dispatcher of `MessageDispatcherDeferredWrapper` over the queue of
`CommandCollector`. Calls on the wrapped dispatcher are queued; `commit` hands
them to the plain dispatcher in order and stops at the first call that throws.
-/

namespace I40Aas.OnboardingSkill

variable {κ : Type*}

/-- One `commit`: the calls it makes on the plain dispatcher, what it leaves in
the collector, and whether the last call it made threw. -/
structure CommitResult (κ : Type*) where
  performed : List κ
  left : List κ
  threw : Bool

/-- `retVal.commit`. A command is taken out of the collector before it is
interpreted, so the one that throws is gone and the later ones stay. -/
def commit (throws : κ → Bool) : List κ → CommitResult κ
  | [] => ⟨[], [], false⟩
  | c :: cs =>
      if throws c then ⟨[c], cs, true⟩
      else
        let rest := commit throws cs
        ⟨c :: rest.performed, rest.left, rest.threw⟩

/-- No call is lost, repeated or moved: what a commit performs and what it
leaves is the collector in its order. -/
theorem commit_performed_append_left (throws : κ → Bool) (cs : List κ) :
    (commit throws cs).performed ++ (commit throws cs).left = cs := by
  induction cs with
  | nil => rfl
  | cons c cs ih =>
      by_cases h : throws c
      · simp [commit, h]
      · simpa [commit, h] using ih

theorem mem_of_mem_performed {throws : κ → Bool} {cs : List κ} {c : κ}
    (h : c ∈ (commit throws cs).performed) : c ∈ cs := by
  rw [← commit_performed_append_left throws cs]
  exact List.mem_append_left _ h

theorem mem_of_mem_left {throws : κ → Bool} {cs : List κ} {c : κ}
    (h : c ∈ (commit throws cs).left) : c ∈ cs := by
  rw [← commit_performed_append_left throws cs]
  exact List.mem_append_right _ h

/-- A commit on a collector that is not empty makes a call. -/
theorem commit_performed_cons (throws : κ → Bool) (c : κ) (cs : List κ) :
    c ∈ (commit throws (c :: cs)).performed := by
  by_cases h : throws c <;> simp [commit, h]

/-- A commit none of whose calls throws makes all of them. -/
theorem commit_of_forall_not_throws {throws : κ → Bool} {cs : List κ}
    (h : ∀ c ∈ cs, throws c = false) : commit throws cs = ⟨cs, [], false⟩ := by
  induction cs with
  | nil => rfl
  | cons c cs ih =>
      have hc : throws c = false := h c List.mem_cons_self
      have htail := ih fun c' hc' => h c' (List.mem_cons_of_mem _ hc')
      rw [commit, hc, htail]
      rfl

/-- A commit stops at the first call that throws. -/
theorem commit_append_cons {throws : κ → Bool} {done : List κ} {c : κ}
    (hdone : ∀ c ∈ done, throws c = false) (hc : throws c = true) (rest : List κ) :
    commit throws (done ++ c :: rest) = ⟨done ++ [c], rest, true⟩ := by
  induction done with
  | nil => simp [commit, hc]
  | cons c' done ih =>
      have hc' : throws c' = false := hdone c' List.mem_cons_self
      have htail := ih fun d hd => hdone d (List.mem_cons_of_mem _ hd)
      rw [List.cons_append, commit, hc', htail]
      rfl

end I40Aas.OnboardingSkill
