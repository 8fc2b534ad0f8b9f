import I40Aas.OnboardingSkill.Runs

/-!
What a run answers. A write that fails is answered with `replyError`, but the
interpreter goes on, and the next transition of the run has a write and a commit of
its own. When that second write is stored all the same, the messages of the second
transition follow the error.
-/

namespace I40Aas.OnboardingSkill

open I40Aas.Lib

variable {ι : Type*}

/-- The database has not taken the write. -/
def WriteStatus.failed : WriteStatus → Bool
  | .duplicateKey | .unreachable => true
  | .pending | .stored => false

/-- The listener has gone on after a write that failed. -/
def Write.gaveUp (w : Write) : Bool := w.status.failed && w.returned

/-- The listener has answered run `r` with `replyError` because the write of the
transition on the message failed. -/
def System.Refused (env : Env ι) (s : System ι) (r : ι) : Prop :=
  Reply.error ∈ (s.runs r).replies ∧
    ∃ w ∈ (s.runs r).writes, w.gaveUp = true ∧ w.eventType = env.event r

/-- The listener goes on after a write that was stored, although it has given up an
earlier write of the run. -/
def AnswersAgain (s : System ι) : Label ι → Prop
  | .updateReturns r k _ => (s.runs r).storedState k ≠ none ∧
      ∃ j w, j < k ∧ (s.runs r).writes[j]? = some w ∧ w.gaveUp = true
  | _ => False

/-- The events by which an interpreter learns the outcome of `createInstance`. -/
def outcomeEvents : List String := [createInstanceDone, createInstanceFailed]

theorem createInstanceEvent_mem (error : Option RequestError) :
    (createInstanceEvent error).type ∈ outcomeEvents := by
  cases error with
  | none => exact List.mem_cons_self
  | some error => exact List.mem_cons_of_mem _ List.mem_cons_self

theorem Enabled.not_outcome {configuration : Configuration} {v : StateValue} {type : String}
    {as : List Action} (h : Enabled configuration v type .creatingInstance as) :
    type ∉ outcomeEvents := by
  cases h with
  | publish _ => decide
  | approved => decide

/-- Which events the writes of a run belong to, when it sends and when it answers. -/
structure Run.Attributed (event : String) (ρ : Run) : Prop where
  entering : ∀ w ∈ ρ.writes, w.state = .creatingInstance →
    w.eventType = event ∧ event ∉ outcomeEvents
  later : ∀ k w, ρ.writes[k + 1]? = some w → w.eventType ∈ outcomeEvents
  sent : ρ.sent ≠ [] → ∃ w ∈ ρ.writes, w.status = .stored ∧ w.returned = true
  unreturned : ∀ w ∈ ρ.writes, w.status = .pending → w.returned = false
  replied : ∀ w ∈ ρ.writes, w.gaveUp = true → w.eventType = event → .error ∈ ρ.replies

theorem Run.attributed_initial (event : String) : Run.initial.Attributed event := by
  constructor <;> simp [Run.initial]

section LocalStep

variable {env : Env ι} {r : ι} {cell : Option IStateRecord} {l : Label ι} {ρ ρ' : Run}
  {event : String}

/-- Only writes, and what was sent and answered, count. -/
theorem Run.Attributed.of_eq (h : ρ.Attributed event) (hwrites : ρ'.writes = ρ.writes)
    (hsent : ρ'.sent = ρ.sent) (hreplies : ρ.replies ⊆ ρ'.replies) : ρ'.Attributed event := by
  constructor
  · rw [hwrites]
    exact h.entering
  · rw [hwrites]
    exact h.later
  · rw [hwrites, hsent]
    exact h.sent
  · rw [hwrites]
    exact h.unreturned
  · rw [hwrites]
    exact fun w hw hgaveUp hevent => hreplies (h.replied w hw hgaveUp hevent)

theorem Run.Attributed.reply (h : ρ.Attributed event) (answer : Reply) :
    (ρ.reply answer).Attributed event :=
  h.of_eq rfl rfl (List.subset_append_left _ _)

/-- The database deals with a pending write. -/
theorem Run.Attributed.settle (h : ρ.Attributed event) {k : ℕ} {w : Write}
    (hw : ρ.writes[k]? = some w) (hpending : w.status = .pending) (status : WriteStatus) :
    (ρ.settle k status).Attributed event := by
  have hreturned := h.unreturned w (List.mem_of_getElem? hw) hpending
  have hmem : ∀ w' ∈ (ρ.settle k status).writes,
      w' ∈ ρ.writes ∨ w' = { w with status := status } :=
    fun _ => Run.mem_modify_writes_of_get hw
  constructor
  · intro w' hw' hstate
    rcases hmem w' hw' with hw' | rfl
    · exact h.entering w' hw' hstate
    · exact h.entering w (List.mem_of_getElem? hw) hstate
  · intro j w' hw'
    simp only [Run.settle, List.getElem?_modify] at hw'
    obtain ⟨w₀, hw₀, rfl⟩ := Option.map_eq_some_iff.mp hw'
    split <;> exact h.later j w₀ hw₀
  · intro hsent
    obtain ⟨w', hw', hstored, hreturned'⟩ := h.sent hsent
    obtain ⟨j, hj⟩ := List.mem_iff_getElem?.mp hw'
    have hne : k ≠ j := by
      rintro rfl
      obtain rfl := Option.some.inj (hw.symm.trans hj)
      rw [hreturned] at hreturned'
      cases hreturned'
    have hget : (ρ.settle k status).writes[j]? = some w' := by
      simp [Run.settle, hj, hne]
    exact ⟨w', List.mem_of_getElem? hget, hstored, hreturned'⟩
  · intro w' hw' hpending'
    rcases hmem w' hw' with hw' | rfl
    · exact h.unreturned w' hw' hpending'
    · exact hreturned
  · intro w' hw' hgaveUp hevent
    rcases hmem w' hw' with hw' | rfl
    · exact h.replied w' hw' hgaveUp hevent
    · simp [Write.gaveUp, hreturned] at hgaveUp

theorem Run.Attributed.transition (h : ρ.Attributed event) (configuration : Configuration)
    (message : Message) (e : Event)
    (hfirst : e.type = event ∨ e.type ∈ outcomeEvents)
    (hlater : ρ.writes ≠ [] → e.type ∈ outcomeEvents) :
    (ρ.transition configuration message e).1.Attributed event := by
  rcases Run.transition_cases configuration message e ρ with
    heq | ⟨target, as, -, -, heq⟩ | ⟨target, as, commands, hen, -, heq⟩
  · rw [heq]
    exact h
  · rw [heq]
    exact h.of_eq rfl rfl (List.Subset.refl _)
  · rw [heq]
    constructor
    · intro w hw hstate
      simp only [Run.issueWrite, Run.enter, List.mem_append, List.mem_singleton] at hw
      rcases hw with hw | rfl
      · exact h.entering w hw hstate
      · obtain rfl : target = .creatingInstance := hstate
        rcases hfirst with rfl | hout
        · exact ⟨rfl, hen.not_outcome⟩
        · exact absurd hout hen.not_outcome
    · intro k w hw
      simp only [Run.issueWrite, Run.enter] at hw
      rcases Nat.lt_trichotomy (k + 1) ρ.writes.length with hk | hk | hk
      · rw [List.getElem?_append_left hk] at hw
        exact h.later k w hw
      · rw [hk, List.getElem?_concat_length] at hw
        obtain rfl := Option.some.inj hw
        exact hlater fun hnil => by simp [hnil] at hk
      · rw [List.getElem?_eq_none (by simp; omega)] at hw
        cases hw
    · intro hsent
      obtain ⟨w, hw, hstored⟩ := h.sent hsent
      exact ⟨w, List.mem_append_left _ hw, hstored⟩
    · intro w hw hpending
      simp only [Run.issueWrite, Run.enter, List.mem_append, List.mem_singleton] at hw
      rcases hw with hw | rfl
      · exact h.unreturned w hw hpending
      · rfl
    · intro w hw hgaveUp hevent
      simp only [Run.issueWrite, Run.enter, List.mem_append, List.mem_singleton] at hw
      rcases hw with hw | rfl
      · exact h.replied w hw hgaveUp hevent
      · cases hgaveUp

theorem Run.Attributed.updateReturns (h : ρ.Attributed event) {k : ℕ} {w : Write}
    (hw : ρ.writes[k]? = some w) (hsettled : w.status ≠ .pending) (throws : Command → Bool) :
    (ρ.updateReturns event k w throws).Attributed event := by
  obtain ⟨hwrites, -⟩ := ρ.updateReturns_frame event k w throws
  have hmem : ∀ w' ∈ (ρ.updateReturns event k w throws).writes,
      w' ∈ ρ.writes ∨ w' = { w with returned := true } := by
    intro w' hw'
    rw [hwrites] at hw'
    exact Run.mem_modify_writes_of_get hw hw'
  have hreplies : ρ.replies ⊆ (ρ.updateReturns event k w throws).replies := by
    simp only [Run.updateReturns]
    split_ifs <;> simp [Run.reply]
  constructor
  · intro w' hw' hstate
    rcases hmem w' hw' with hw' | rfl
    · exact h.entering w' hw' hstate
    · exact h.entering w (List.mem_of_getElem? hw) hstate
  · intro j w' hw'
    rw [hwrites, List.getElem?_modify] at hw'
    obtain ⟨w₀, hw₀, rfl⟩ := Option.map_eq_some_iff.mp hw'
    split <;> exact h.later j w₀ hw₀
  · rw [hwrites, Run.updateReturns_sent]
    intro hsent
    by_cases hstored : w.status = .stored
    · have hget : (ρ.writes.modify k fun w => { w with returned := true })[k]? =
          some { w with returned := true } := by
        simp [hw]
      exact ⟨_, List.mem_of_getElem? hget, hstored, rfl⟩
    · rw [if_neg hstored] at hsent
      obtain ⟨w', hw', hstored', hreturned⟩ := h.sent hsent
      obtain ⟨j, hj⟩ := List.mem_iff_getElem?.mp hw'
      have hne : k ≠ j := by
        rintro rfl
        obtain rfl := Option.some.inj (hw.symm.trans hj)
        exact hstored hstored'
      have hget : (ρ.writes.modify k fun w => { w with returned := true })[j]? = some w' := by
        simp [hj, hne]
      exact ⟨w', List.mem_of_getElem? hget, hstored', hreturned⟩
  · intro w' hw' hpending
    rcases hmem w' hw' with hw' | rfl
    · exact h.unreturned w' hw' hpending
    · exact absurd hpending hsettled
  · intro w' hw' hgaveUp hevent
    rcases hmem w' hw' with hw' | rfl
    · exact hreplies (h.replied w' hw' hgaveUp hevent)
    · have hfailed : w.status ≠ .stored := by
        rintro hstored
        simp [Write.gaveUp, WriteStatus.failed, hstored] at hgaveUp
      have hown : w.eventType = event := hevent
      simp [Run.updateReturns, hfailed, hown, Run.reply]

theorem Run.Attributed.send (h : ρ.Attributed event) (hnil : ρ.writes = [])
    (configuration : Configuration) (message : Message) :
    (ρ.send configuration message event).Attributed event := by
  have htransition := h.transition configuration message ⟨event, none⟩ (.inl rfl)
    fun hne => absurd hnil hne
  exact Run.send_induction (fun _ answer h => h.reply answer) h htransition

theorem Run.Attributed.resume (h : ρ.Attributed (env.event r)) (hnil : ρ.writes = []) :
    (ρ.resume env r).Attributed (env.event r) := by
  rw [Run.resume_eq]
  split
  · exact (h.reply .notUnderstood).of_eq rfl rfl (List.Subset.refl _)
  · have hbegin : (ρ.begin env.restartsInvocation (storedValue ρ.previousStateRecord)
        (expectedVersion ρ.previousStateRecord)).Attributed (env.event r) :=
      h.of_eq rfl rfl (List.Subset.refl _)
    exact hbegin.send hnil _ _

theorem Run.Attributed.step (h : ρ.Attributed (env.event r)) (hwf : ρ.WellFormed)
    (hstep : LocalStep env r cell ρ l ρ') : ρ'.Attributed (env.event r) := by
  cases hstep with
  | applyEvent _ => exact h.of_eq rfl rfl (List.Subset.refl _)
  | read _ => exact h.of_eq rfl rfl (List.Subset.refl _)
  | readFails _ => exact (h.reply .error).of_eq rfl rfl (List.Subset.refl _)
  | resume hphase => exact h.resume (hwf.quiet (by simp [hphase])).1
  | createInstanceEnds error _ =>
      exact h.transition _ _ _ (.inr (createInstanceEvent_mem error))
        fun _ => createInstanceEvent_mem error
  | updateFails hw hpending _ => exact h.settle hw hpending _
  | updateReturns hw hsettled => exact h.updateReturns hw hsettled _

end LocalStep

/-! ### All runs -/

section System

variable [DecidableEq ι] {env : Env ι} {s s' : System ι} {l : Label ι}

structure System.Attributed (env : Env ι) (s : System ι) : Prop where
  wellFormed : s.WellFormed
  attributed : ∀ r, (s.runs r).Attributed (env.event r)

theorem System.Attributed.step (h : s.Attributed env) (hstep : step env s l = some s') :
    s'.Attributed env := by
  refine ⟨h.wellFormed.step hstep, fun q => ?_⟩
  rcases step_cases hstep with ⟨r, ρ, hlocal, rfl⟩ | ⟨r, k, w, record, -, hw, hpending, -, rfl⟩
  · rw [System.setRun_runs]
    split
    · rename_i hq
      subst hq
      exact (h.attributed q).step (h.wellFormed q) hlocal
    · exact h.attributed q
  · rw [System.store_runs]
    split
    · rename_i hq
      subst hq
      exact ((h.attributed q).settle hw hpending .stored).of_eq rfl rfl (List.Subset.refl _)
    · exact h.attributed q

/-- The listener goes on with each write once. -/
theorem step_updateReturns {r : ι} {k : ℕ} {throws : Command → Bool}
    (hstep : step env s (.updateReturns r k throws) = some s') :
    ∃ w, (s.runs r).writes[k]? = some w ∧ w.returned = false ∧
      s' = s.setRun r ((s.runs r).updateReturns (env.event r) k w throws) := by
  simp only [OnboardingSkill.step, Option.bind_eq_some_iff, Option.ite_none_right_eq_some,
    Option.some.injEq] at hstep
  obtain ⟨w, hw, ⟨-, hreturned⟩, rfl⟩ := hstep
  exact ⟨w, hw, hreturned, rfl⟩

theorem Write.gaveUp_iff {w : Write} :
    w.gaveUp = true ↔ (w.status = .duplicateKey ∨ w.status = .unreachable) ∧ w.returned = true := by
  cases hstatus : w.status <;> simp [Write.gaveUp, WriteStatus.failed, hstatus]

/-- The only step by which a refused run sends is the one that answers again. -/
theorem System.sent_of_refused (h : s.Attributed env) (hok : ¬ AnswersAgain s l)
    (hstep : OnboardingSkill.step env s l = some s') {r : ι} (hrefused : s.Refused env r) :
    (s'.runs r).sent = (s.runs r).sent := by
  rcases step_cases hstep with ⟨q, ρ, hlocal, rfl⟩ | ⟨q, k, w, record, -, -, -, -, rfl⟩
  · rw [System.setRun_runs]
    split
    · rename_i hq
      subst hq
      rcases hlocal.sent with hsent | ⟨k, w, throws, rfl, hw, rfl⟩
      · exact hsent
      · rw [Run.updateReturns_sent]
        split
        · rename_i hstored
          exfalso
          obtain ⟨-, w₀, hw₀, hgaveUp, hevent⟩ := hrefused
          obtain ⟨j, hj⟩ := List.mem_iff_getElem?.mp hw₀
          rcases Nat.lt_trichotomy j k with hlt | rfl | hlt
          · exact hok ⟨Run.storedState_ne_none_iff.mpr ⟨w, hw, hstored⟩, j, w₀, hlt, hj, hgaveUp⟩
          · obtain rfl := Option.some.inj (hj.symm.trans hw)
            rcases (Write.gaveUp_iff.mp hgaveUp).1 with hs | hs <;> rw [hs] at hstored <;>
              cases hstored
          · -- the later write belongs to the outcome of `createInstance`, not to the message
            obtain ⟨i, rfl⟩ : ∃ i, j = i + 1 := ⟨j - 1, by omega⟩
            have hjlen := (List.getElem?_eq_some_iff.mp hj).1
            have hlater := (h.attributed r).later i w₀ hj
            have hentering := (h.attributed r).entering w (List.mem_of_getElem? hw)
              ((h.wellFormed r).earlier k w hw (by omega))
            rw [hevent] at hlater
            exact hentering.2 hlater
        · rfl
    · rfl
  · rw [System.store_runs]
    split
    · rename_i hq
      subst hq
      rfl
    · rfl

theorem System.refused_of_answersAgain (h : s.Attributed env) (hbad : AnswersAgain s l)
    (hstep : OnboardingSkill.step env s l = some s') :
    ∃ r, s.Refused env r ∧ (s'.runs r).sent ≠ (s.runs r).sent := by
  cases l with
  | updateReturns r k throws =>
      obtain ⟨hstored, j, w₀, hlt, hj, hgaveUp⟩ := hbad
      obtain ⟨w, hw, hreturned, rfl⟩ := step_updateReturns hstep
      obtain ⟨w', hw', hstatus⟩ := Run.storedState_ne_none_iff.mp hstored
      obtain rfl := Option.some.inj (hw.symm.trans hw')
      have hklen := (List.getElem?_eq_some_iff.mp hw).1
      have hlen := (h.wellFormed r).length_le
      have hentering := (h.attributed r).entering w₀ (List.mem_of_getElem? hj)
        ((h.wellFormed r).earlier j w₀ hj (by omega))
      have hreplied := (h.attributed r).replied w₀ (List.mem_of_getElem? hj) hgaveUp hentering.1
      refine ⟨r, ⟨hreplied, w₀, List.mem_of_getElem? hj, hgaveUp, hentering.1⟩, ?_⟩
      -- neither write has returned as stored, so nothing has been sent so far
      have hsilent : (s.runs r).sent = [] := by
        by_contra hne
        obtain ⟨w₁, hw₁, hstored₁, hreturned₁⟩ := (h.attributed r).sent hne
        obtain ⟨i, hi⟩ := List.mem_iff_getElem?.mp hw₁
        have hilen := (List.getElem?_eq_some_iff.mp hi).1
        obtain rfl | rfl : i = j ∨ i = k := by omega
        · obtain rfl := Option.some.inj (hi.symm.trans hj)
          rcases (Write.gaveUp_iff.mp hgaveUp).1 with hs | hs <;> rw [hs] at hstored₁ <;>
            cases hstored₁
        · obtain rfl := Option.some.inj (hi.symm.trans hw)
          rw [hreturned] at hreturned₁
          cases hreturned₁
      rw [System.setRun_runs, if_pos rfl, Run.updateReturns_sent, if_pos hstatus, hsilent,
        List.nil_append]
      cases hcs : (s.runs r).commandCollector with
      | nil =>
          rcases (h.wellFormed r).answered (by omega) with hne | hne
          · exact absurd hcs hne
          · exact absurd hsilent hne
      | cons c cs => exact List.ne_nil_of_mem (commit_performed_cons _ c cs)
  | _ => cases hbad

/-- No run that has answered its message with an error because of a failed write
hands a message to the plain dispatcher afterwards, exactly as long as no listener
goes on after a stored write when it has given up an earlier one. -/
theorem answers_once_iff (env : Env ι) (db : String → Option IStateRecord)
    (schedule : List (Label ι)) :
    Steps (step env) (fun s s' => ∀ r, s.Refused env r → (s'.runs r).sent = (s.runs r).sent)
        (System.initial db) schedule ↔
      Guarded (step env) (fun s l => ¬ AnswersAgain s l) (System.initial db) schedule := by
  refine steps_iff_guarded (I := System.Attributed env) (fun s l s' h hstep => h.step hstep)
    (fun s l s' h hstep => ⟨fun hsame hbad => ?_, fun hok r hrefused => ?_⟩)
    ⟨fun _ => Run.wellFormed_initial, fun r => Run.attributed_initial _⟩ schedule
  · obtain ⟨r, hrefused, hsent⟩ := System.refused_of_answersAgain h hbad hstep
    exact hsent (hsame r hrefused)
  · exact System.sent_of_refused h hok hstep hrefused

/-- One run without approval on a new conversation. The database cannot be reached
for the first write, and can be for the second one. -/
def brieflyUnreachable : Env Unit where
  configuration := ⟨false, false⟩
  restartsInvocation := false
  event _ := "PUBLISHINSTANCE_FROM_OPERATOR"
  conversationId _ := "conversation"
  message _ := ⟨"publishInstance", "Operator", "conversation", some ["{}"]⟩

def brieflyUnreachableSchedule : List (Label Unit) :=
  [.applyEvent (), .read () true, .resume (), .update () 0 false,
    .updateReturns () 0 fun _ => false, .createInstanceEnds () none, .update () 1 true]

/-- The operator gets an error first and then the response instance. -/
theorem not_answers_once_brieflyUnreachable :
    ¬ ∀ (env : Env Unit) (db : String → Option IStateRecord) (schedule : List (Label Unit)),
      Steps (step env) (fun s s' => ∀ r, s.Refused env r → (s'.runs r).sent = (s.runs r).sent)
        (System.initial db) schedule := by
  intro h
  have hsteps := h brieflyUnreachable (fun _ => none)
    (brieflyUnreachableSchedule ++ [.updateReturns () 1 fun _ => false])
  have hrun : ((exec (step brieflyUnreachable) (System.initial fun _ => none)
      brieflyUnreachableSchedule).bind fun s =>
        (step brieflyUnreachable s (.updateReturns () 1 fun _ => false)).map fun s' =>
          (decide (Reply.error ∈ (s.runs ()).replies) && (s.runs ()).writes.any fun w =>
            w.gaveUp && w.eventType = "PUBLISHINSTANCE_FROM_OPERATOR",
            (s.runs ()).sent, (s'.runs ()).sent)) =
      some (true, [], [(1, .sendResponseInstanceToOperator (some "{}"))]) := by decide
  obtain ⟨s, hs, hlast⟩ := Option.bind_eq_some_iff.mp hrun
  obtain ⟨s', hs', hsent⟩ := Option.map_eq_some_iff.mp hlast
  simp only [Prod.mk.injEq, List.any_eq_true, Bool.and_eq_true, decide_eq_true_eq] at hsent
  obtain ⟨⟨hreplied, w, hw, hgaveUp, hevent⟩, hbefore, hafter⟩ := hsent
  have hsame := hsteps.of_exec hs hs' () ⟨hreplied, w, hw, hgaveUp, hevent⟩
  rw [hbefore, hafter] at hsame
  cases hsame

end System

end I40Aas.OnboardingSkill
