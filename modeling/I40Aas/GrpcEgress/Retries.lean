import Mathlib.Data.Int.Notation
import I40Aas.GrpcEgress.Clients
import I40Aas.Lib.Retry

/-!
The attempts to send a message. After each failure the backoff gives how long to wait, and
the log tells how many attempts are left. There is one attempt more than it tells: the bound
is checked against the attempts that have failed, and the last of them is still followed by
another one.
-/

namespace I40Aas.GrpcEgress.Retries

open I40Aas.Interaction I40Aas.GrpcIngress I40Aas.Lib

/-- A `backoff.Backoff` in the states `β`, with durations in nanoseconds. -/
structure Backoff (β : Type) where
  duration : β → ℕ × β
  attempt : β → ℕ
  /-- The durations since the last reset are counted. -/
  attempt_duration : ∀ b, attempt (duration b).2 = attempt b + 1

inductive Event
  | rpc (outcome : Except Error InteractionStatusCode)
  /-- The message "… attempts left - retrying in …". -/
  | retrying (err : Error) (left : ℤ) (d : ℕ)
  | sleep (d : ℕ)

variable {β : Type}

/-- The message sent from the call at `n` on, and what happens meanwhile. -/
def sendInteractionMessage (backoff : Backoff β) (rpc : ℕ → Except Error InteractionStatusCode)
    (n : ℕ) (b : β) : Except Error InteractionStatusCode × List Event :=
  match rpc n with
  | .error err =>
      let d := (backoff.duration b).1
      let b' := (backoff.duration b).2
      let failed := [.rpc (.error err),
        .retrying err (maxAttempts - backoff.attempt b') d, .sleep d]
      if maxAttempts < backoff.attempt b' then (.error err, failed)
      else
        let sent := sendInteractionMessage backoff rpc (n + 1) b'
        (sent.1, failed ++ sent.2)
  | .ok status => (.ok status, [.rpc (.ok status)])
termination_by maxAttempts - backoff.attempt b
decreasing_by
  rename_i hleft
  change ¬ maxAttempts < backoff.attempt (backoff.duration b).2 at hleft
  rw [backoff.attempt_duration] at hleft ⊢
  omega

def Event.rpc? : Event → Option (Except Error InteractionStatusCode)
  | .rpc outcome => some outcome
  | _ => none

def rpcs (events : List Event) : List (Except Error InteractionStatusCode) :=
  events.filterMap Event.rpc?

theorem rpcs_append (front rest : List Event) : rpcs (front ++ rest) = rpcs front ++ rpcs rest :=
  List.filterMap_append

/-- What the attempts keep to: none after a success, the result of the last one, and never
more of them than the log has told. -/
structure AttemptsKept (sent : Except Error InteractionStatusCode × List Event) : Prop where
  eq_nil_of_ok : ∀ front status rest, rpcs sent.2 = front ++ .ok status :: rest → rest = []
  ok_iff : ∀ status, sent.1 = .ok status ↔ (rpcs sent.2).getLast? = some (.ok status)
  length_rpcs_le : (rpcs sent.2).length ≤ maxAttempts
  length_rpcs_le_left : ∀ front err left d rest,
    sent.2 = front ++ .retrying err left d :: rest → ((rpcs rest).length : ℤ) ≤ left

section

variable {backoff : Backoff β} {rpc : ℕ → Except Error InteractionStatusCode} {n : ℕ} {b : β}

/-- The calls are the ones that are repeated as long as the backoff has attempts left. -/
theorem rpcs_sendInteractionMessage : rpcs (sendInteractionMessage backoff rpc n b).2 =
    Retry.calls rpc (maxAttempts - backoff.attempt b) n := by
  fun_induction sendInteractionMessage backoff rpc n b with
  | case1 n b err hrpc d b' failed hmax =>
      have hcount : backoff.attempt b' = backoff.attempt b + 1 := backoff.attempt_duration b
      have hbudget : maxAttempts - backoff.attempt b = 0 := by omega
      rw [hbudget, Retry.calls, hrpc]
      rfl
  | case2 n b err hrpc d b' failed hmax sent ih =>
      have hcount : backoff.attempt b' = backoff.attempt b + 1 := backoff.attempt_duration b
      have hbudget : maxAttempts - backoff.attempt b = maxAttempts - backoff.attempt b' + 1 := by
        omega
      rw [hbudget, Retry.calls_of_error hrpc, ← ih]
      rfl
  | case3 n b status hrpc =>
      rw [Retry.calls_of_ok hrpc]
      rfl

/-- The result is that of the last call. -/
theorem getLast?_rpcs : (rpcs (sendInteractionMessage backoff rpc n b).2).getLast? =
    some (sendInteractionMessage backoff rpc n b).1 := by
  fun_induction sendInteractionMessage backoff rpc n b with
  | case1 n b err hrpc d b' failed hmax => rfl
  | case2 n b err hrpc d b' failed hmax sent ih =>
      show (Except.error err :: rpcs sent.2).getLast? = some sent.1
      rw [List.getLast?_cons, ih, Option.getD_some]
  | case3 n b status hrpc => rfl

/-- The result is the one of the deliveries. -/
theorem fst_sendInteractionMessage (hcount : backoff.attempt b = n) :
    (sendInteractionMessage backoff rpc n b).1 = GrpcEgress.sendInteractionMessage rpc n := by
  fun_induction sendInteractionMessage backoff rpc n b with
  | case1 n b err hrpc d b' failed hmax =>
      have hcount' : backoff.attempt b' = n + 1 := by
        rw [← hcount]
        exact backoff.attempt_duration b
      rw [GrpcEgress.sendInteractionMessage, hrpc]
      exact (if_pos (hcount' ▸ hmax)).symm
  | case2 n b err hrpc d b' failed hmax sent ih =>
      have hcount' : backoff.attempt b' = n + 1 := by
        rw [← hcount]
        exact backoff.attempt_duration b
      rw [GrpcEgress.sendInteractionMessage, hrpc]
      exact (ih hcount').trans (if_neg (hcount' ▸ hmax)).symm
  | case3 n b status hrpc => rw [GrpcEgress.sendInteractionMessage, hrpc]

/-- A message of the log is that of the failure, or one of a later failure. -/
theorem eq_or_later {outcome : Except Error InteractionStatusCode} {err err' : Error}
    {left left' : ℤ} {wait wait' : ℕ} {front rest later : List Event}
    (h : [.rpc outcome, .retrying err' left' wait', .sleep wait'] ++ later =
      front ++ .retrying err left wait :: rest) :
    (left = left' ∧ rpcs front = [outcome]) ∨
      ∃ front', rpcs front = outcome :: rpcs front' ∧
        later = front' ++ .retrying err left wait :: rest := by
  match front, h with
  | [_], h =>
      simp only [List.cons_append, List.nil_append, List.cons.injEq, Event.retrying.injEq] at h
      obtain ⟨rfl, ⟨-, rfl, -⟩, -⟩ := h
      exact .inl ⟨rfl, rfl⟩
  | _ :: _ :: _ :: front', h =>
      simp only [List.cons_append, List.nil_append, List.cons.injEq] at h
      obtain ⟨rfl, rfl, rfl, rfl⟩ := h
      exact .inr ⟨front', rfl, rfl⟩

/-- The log tells the attempts that have not failed yet. -/
theorem left_eq {front rest : List Event} {err : Error} {left : ℤ} {wait : ℕ}
    (h : (sendInteractionMessage backoff rpc n b).2 = front ++ .retrying err left wait :: rest) :
    left = maxAttempts - (backoff.attempt b + (rpcs front).length) := by
  fun_induction sendInteractionMessage backoff rpc n b generalizing front with
  | case1 n b err' hrpc d b' failed =>
      have hcount : backoff.attempt b' = backoff.attempt b + 1 := backoff.attempt_duration b
      rw [← List.append_nil failed] at h
      rcases eq_or_later h with ⟨hleft, hfront⟩ | ⟨front', -, hlater⟩
      · rw [hleft, hfront, List.length_singleton, hcount]
        rfl
      · cases front' <;> cases hlater
  | case2 n b err' hrpc d b' failed hmax sent =>
      rename_i ih
      have hcount : backoff.attempt b' = backoff.attempt b + 1 := backoff.attempt_duration b
      rcases eq_or_later h with ⟨hleft, hfront⟩ | ⟨front', hfront, hlater⟩
      · rw [hleft, hfront, List.length_singleton, hcount]
        rfl
      · rw [ih hlater, hfront, List.length_cons, hcount]
        omega
  | case3 n b status hrpc =>
      match front, h with
      | [_], h => cases h

/-- There is never more than one attempt too many. -/
theorem length_rpcs_le_succ :
    (rpcs (sendInteractionMessage backoff rpc n b).2).length ≤ maxAttempts + 1 := by
  rw [rpcs_sendInteractionMessage]
  exact Nat.le_trans Retry.length_calls_le (Nat.succ_le_succ (Nat.sub_le _ _))

end

/-- The attempts keep to the log exactly if one of the first `maxAttempts` succeeds. -/
theorem attemptsKept_iff (backoff : Backoff β) (rpc : ℕ → Except Error InteractionStatusCode)
    {b : β} (hfresh : backoff.attempt b = 0) :
    AttemptsKept (sendInteractionMessage backoff rpc 0 b) ↔
      ∃ k < maxAttempts, ∃ status, rpc k = .ok status := by
  have hcalls : rpcs (sendInteractionMessage backoff rpc 0 b).2 =
      Retry.calls rpc maxAttempts 0 := by
    rw [rpcs_sendInteractionMessage, hfresh]
    rfl
  have hlength : (rpcs (sendInteractionMessage backoff rpc 0 b).2).length ≤ maxAttempts ↔
      ∃ k < maxAttempts, ∃ status, rpc k = .ok status := by
    rw [hcalls, Retry.length_calls_le_iff]
    simp only [Nat.zero_add]
  refine ⟨fun h => hlength.mp h.length_rpcs_le, fun h => ?_⟩
  have hbound := hlength.mpr h
  refine ⟨fun front status rest heq => ?_, fun status => ?_, hbound, ?_⟩
  · exact Retry.eq_nil_of_calls (hcalls ▸ heq)
  · rw [getLast?_rpcs, Option.some.injEq]
  · -- What the message leaves is what the attempts before it have left.
    intro front err left d rest heq
    rw [heq, rpcs_append, List.length_append] at hbound
    rw [left_eq heq, hfresh]
    change (rpcs front).length + (rpcs rest).length ≤ maxAttempts at hbound
    omega

/-- A fresh backoff whose durations are the least ones. -/
def least : Backoff ℕ where
  duration b := (100000000, b + 1)
  attempt b := b
  attempt_duration _ := rfl

def unavailable : Error := .errorf "connection refused"

/-- The second attempt is successful. -/
theorem attemptsKept_retried : AttemptsKept (sendInteractionMessage least
    (fun k => if k = 1 then .ok .ok else .error unavailable) 0 0) :=
  (attemptsKept_iff least _ rfl).mpr ⟨1, by decide, .ok, rfl⟩

/-- After ten failed attempts there are no attempts left, and there is one more. -/
theorem not_attemptsKept : ¬ ∀ (backoff : Backoff ℕ)
    (rpc : ℕ → Except Error InteractionStatusCode) (b : ℕ), backoff.attempt b = 0 →
    AttemptsKept (sendInteractionMessage backoff rpc 0 b) := by
  intro h
  have hbound := (h least (fun _ => .error unavailable) 0 rfl).length_rpcs_le
  rw [rpcs_sendInteractionMessage] at hbound
  obtain ⟨k, -, status, hk⟩ := Retry.length_calls_le_iff.mp hbound
  cases hk

end I40Aas.GrpcEgress.Retries
