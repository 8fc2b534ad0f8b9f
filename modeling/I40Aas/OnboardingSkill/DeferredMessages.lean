import I40Aas.OnboardingSkill.Runs

/-!
When the messages of a transition go out. The actions queue them on the deferred
dispatcher so that they are sent after the state they announce has been stored.
The queue belongs to the run and not to the transition, so the listener of an
earlier transition that goes on late empties it for the later one. Away from
that moment every message waits for its own write.
-/

namespace I40Aas.OnboardingSkill

open I40Aas.Lib

variable {ι : Type*}

/-- Every message that has reached the plain dispatcher was queued by a
transition whose state is stored. -/
def System.SentAfterStored (s : System ι) : Prop :=
  ∀ r, ∀ c ∈ (s.runs r).sent, (s.runs r).storedState c.1 ≠ none

/-- The listener goes on after a write that was stored, while a later write of
its run has not been stored. -/
def CommitsEarly (s : System ι) : Label ι → Prop
  | .updateReturns r k _ => (s.runs r).storedState k ≠ none ∧
      ∃ j w, k < j ∧ (s.runs r).writes[j]? = some w ∧ w.status ≠ .stored
  | _ => False

section LocalStep

variable {env : Env ι} {r : ι} {cell : Option IStateRecord} {ρ : Run} {k : ℕ} {w : Write}
  {throws : Command → Bool}

/-- What the listener sends after a stored write belongs to the last write of the
run, whichever write it goes on after. -/
theorem Run.WellFormed.sent_of_updateReturns (hwf : ρ.WellFormed) {event : String}
    {c : ℕ × Command} (hc : c ∈ (ρ.updateReturns event k w throws).sent) :
    c ∈ ρ.sent ∨ w.status = .stored ∧ c.1 + 1 = ρ.writes.length := by
  rw [Run.updateReturns_sent] at hc
  split at hc
  · rename_i hstored
    rcases List.mem_append.mp hc with hc | hc
    · exact .inl hc
    · exact .inr ⟨hstored, hwf.tags c (List.mem_append_left _ (mem_of_mem_performed hc))⟩
  · exact .inl hc

/-- After the second write of a run a commit always finds something to send,
unless it has been sent before. -/
theorem Run.WellFormed.sends (hwf : ρ.WellFormed) (k : ℕ) (throws : Command → Bool)
    (event : String) (hlen : ρ.writes.length = 2) (hstored : w.status = .stored) :
    ∃ c ∈ (ρ.updateReturns event k w throws).sent, c.1 = 1 := by
  rw [Run.updateReturns_sent, if_pos hstored]
  cases hcs : ρ.commandCollector with
  | nil =>
      have hsent : ρ.sent ≠ [] := by
        rcases hwf.answered hlen with hne | hne
        · exact absurd hcs hne
        · exact hne
      obtain ⟨c, hc⟩ := List.exists_mem_of_ne_nil _ hsent
      have htag := hwf.tags c (List.mem_append_right _ hc)
      exact ⟨c, List.mem_append_left _ hc, by omega⟩
  | cons c cs =>
      have htag := hwf.tags c (by simp [hcs])
      exact ⟨c, List.mem_append_right _ (commit_performed_cons _ c cs), by omega⟩

end LocalStep

section Messages

variable [DecidableEq ι] {env : Env ι} {s s' : System ι} {l : Label ι}

theorem System.SentAfterStored.step (hP : s.SentAfterStored) (hwf : s.WellFormed)
    (hok : ¬ CommitsEarly s l) (hstep : step env s l = some s') : s'.SentAfterStored := by
  intro q c
  rcases step_cases hstep with ⟨r, ρ, hlocal, rfl⟩ | ⟨r, k, w, record, -, hw, -, -, rfl⟩
  · rw [System.setRun_runs]
    split
    · intro hc
      rw [(hlocal.frame (hwf r)).1]
      rcases hlocal.sent with hsent | ⟨k, w, throws, rfl, hw, rfl⟩
      · rw [hsent] at hc
        exact hP r c hc
      · rcases (hwf r).sent_of_updateReturns hc with hc | ⟨hstored, htag⟩
        · exact hP r c hc
        · -- the message belongs to the last write, which is write `k` or a later one
          have hk : k < (s.runs r).writes.length := (List.getElem?_eq_some_iff.mp hw).1
          have hkstored : (s.runs r).storedState k ≠ none :=
            Run.storedState_ne_none_iff.mpr ⟨w, hw, hstored⟩
          rcases Nat.lt_or_ge k c.1 with hlt | hge
          · have hlast : c.1 < (s.runs r).writes.length := by omega
            refine Run.storedState_ne_none_iff.mpr
              ⟨_, List.getElem?_eq_getElem hlast, ?_⟩
            by_contra hpending
            exact hok ⟨hkstored, c.1, _, hlt, List.getElem?_eq_getElem hlast, hpending⟩
          · obtain rfl : c.1 = k := by omega
            exact hkstored
    · exact hP q c
  · rw [System.store_runs]
    split
    · intro hc
      have hold := hP r c hc
      show ((s.runs r).settle k .stored).storedState c.1 ≠ none
      rw [Run.storedState_settle_stored hw]
      split
      · simp
      · exact hold
    · exact hP q c

theorem System.not_sentAfterStored_of_commitsEarly (hwf : s.WellFormed) (hbad : CommitsEarly s l)
    (hstep : step env s l = some s') : ¬ s'.SentAfterStored := by
  cases l with
  | updateReturns r k throws =>
      obtain ⟨hk, j, w', hlt, hw', hpending⟩ := hbad
      rcases step_cases hstep with ⟨q, ρ, hlocal, rfl⟩ | ⟨q, i, w, record, hl, -⟩
      · cases hlocal with
        | updateReturns hw hstatus =>
            obtain ⟨w₀, hw₀, hstored⟩ := Run.storedState_ne_none_iff.mp hk
            obtain rfl := Option.some.inj (hw.symm.trans hw₀)
            have hj : j < (s.runs r).writes.length := (List.getElem?_eq_some_iff.mp hw').1
            have hle := (hwf r).length_le
            -- write `j` is the second one, and its transition has queued its message already
            obtain ⟨c, hc, htag⟩ := (hwf r).sends k throws (env.event r) (by omega) hstored
            intro hafter
            have hc' := hafter r c (by simpa [System.setRun_runs] using hc)
            have hlocal : LocalStep env r (s.db (env.conversationId r)) (s.runs r)
                (.updateReturns r k throws) _ := .updateReturns hw hstatus
            rw [System.setRun_runs, if_pos rfl, (hlocal.frame (hwf r)).1] at hc'
            obtain ⟨w₁, hw₁, hstored₁⟩ := Run.storedState_ne_none_iff.mp hc'
            obtain rfl : j = c.1 := by omega
            obtain rfl := Option.some.inj (hw'.symm.trans hw₁)
            exact hpending hstored₁
      · cases hl
  | _ => cases hbad

/-- Every message waits for the write of its own transition exactly as long as no
listener commits after a stored write while a later write of its run has not
been stored. -/
theorem sentAfterStored_iff_not_commitsEarly (env : Env ι) (db : String → Option IStateRecord)
    (schedule : List (Label ι)) :
    Along (step env) System.SentAfterStored (System.initial db) schedule ↔
      Guarded (step env) (fun s l => ¬ CommitsEarly s l) (System.initial db) schedule := by
  refine along_iff_guarded (fun s l s' h hstep => System.WellFormed.step h hstep)
    (fun s l s' hwf hP hok hstep => hP.step hwf hok hstep)
    (fun s l s' hwf _ hbad hstep =>
      System.not_sentAfterStored_of_commitsEarly hwf (not_not.mp hbad) hstep)
    (fun r => Run.wellFormed_initial) ?_ schedule
  intro r c hc
  simp [System.initial, Run.initial] at hc

/-- One run without approval: the database takes its first write, but the
listener goes on only after the instance has been created. -/
def lateListener : Env Unit where
  configuration := ⟨false, false⟩
  restartsInvocation := false
  event _ := "PUBLISHINSTANCE_FROM_OPERATOR"
  conversationId _ := "conversation"
  message _ := ⟨"publishInstance", "Operator", "conversation", some ["{}"]⟩

def lateListenerSchedule : List (Label Unit) :=
  [.applyEvent (), .read () true, .resume (), .update () 0 true, .createInstanceEnds () none,
    .updateReturns () 0 fun _ => false, .update () 1 false]

/-- The operator is told about an instance whose publication is never stored. -/
theorem not_sentAfterStored_lateListener :
    ¬ ∀ (env : Env Unit) (db : String → Option IStateRecord) (schedule : List (Label Unit)),
      Along (step env) System.SentAfterStored (System.initial db) schedule := by
  intro h
  have hrun := h lateListener (fun _ => none) lateListenerSchedule
  have hsent : (exec (step lateListener) (System.initial fun _ => none) lateListenerSchedule).map
      (fun s => ((s.runs ()).sent, (s.runs ()).storedState 1)) =
      some ([(1, .sendResponseInstanceToOperator (some "{}"))], none) := by decide
  obtain ⟨s, hs, hfinal⟩ := Option.map_eq_some_iff.mp hsent
  rw [Prod.mk.injEq] at hfinal
  exact hrun.exec_eq hs () _ (by rw [hfinal.1]; exact List.mem_singleton_self _) hfinal.2

end Messages

end I40Aas.OnboardingSkill
