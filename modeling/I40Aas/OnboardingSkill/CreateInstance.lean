import I40Aas.OnboardingSkill.ApprovedContent

/-!
The calls of `createInstance` and what follows from their outcome. A run calls it at most
once, and every message that a transition queues tells by which event it was brought about:
the answers to the operator by the outcome of the call, all others by the message that the
run has received.
-/

namespace I40Aas.OnboardingSkill

open I40Aas.Lib

variable {ι : Type*} {configuration : Configuration} {message : Message} {event : Event}
  {ρ ρ' : Run}

/-! ### How often it is called -/

/-- What every run keeps about its calls of `createInstance`. -/
structure Run.CallsOnce (ρ : Run) : Prop where
  le : ρ.createInstanceCalls ≤ 1
  quiet : ρ.phase ≠ .running → ρ.createInstanceCalls = 0
  invoking : ρ.invoking = true → 0 < ρ.createInstanceCalls
  /-- There is no way back before the call. -/
  called : 0 < ρ.createInstanceCalls →
    ρ.value ≠ .waitingForOnboardingRequest ∧ ρ.value ≠ .waitingForApproval

theorem Run.callsOnce_initial : Run.initial.CallsOnce := by
  constructor <;> simp [Run.initial]

/-- Only the two states before the call lead there. -/
theorem Enabled.early {v w : StateValue} {type : String} {as : List Action}
    (h : Enabled configuration v type w as)
    (hw : w = .creatingInstance ∨ w = .waitingForApproval) :
    v = .waitingForOnboardingRequest ∨ v = .waitingForApproval := by
  cases h with
  | publish _ => exact .inl rfl
  | publishForApproval _ => exact .inl rfl
  | approved => exact .inr rfl
  | _ => rcases hw with hw | hw <;> cases hw

theorem Run.CallsOnce.enter (h : ρ.CallsOnce) (hphase : ρ.phase = .running)
    {target : StateValue} {type : String} {as : List Action}
    (hen : Enabled configuration ρ.value type target as) (commands : List Command) :
    (ρ.enter target commands).CallsOnce := by
  have hearly : target = .creatingInstance ∨ target = .waitingForApproval →
      ρ.createInstanceCalls = 0 := by
    intro htarget
    refine Nat.eq_zero_of_not_pos fun hpos => ?_
    obtain ⟨hinitial, happroval⟩ := h.called hpos
    exact (hen.early htarget).elim hinitial happroval
  by_cases htarget : target = .creatingInstance
  · have hzero := hearly (.inl htarget)
    subst htarget
    refine ⟨?_, fun hno => absurd hphase hno, fun _ => ?_, fun _ => ⟨?_, ?_⟩⟩
    · simp [Run.enter, hzero]
    · simp [Run.enter]
    · show StateValue.creatingInstance ≠ _
      decide
    · show StateValue.creatingInstance ≠ _
      decide
  · have hcalls : (ρ.enter target commands).createInstanceCalls = ρ.createInstanceCalls := by
      simp [Run.enter, htarget]
    refine ⟨hcalls ▸ h.le, fun hno => absurd hphase hno, fun hinvoking => ?_, fun hpos => ?_⟩
    · simp [Run.enter, htarget] at hinvoking
    · refine ⟨hen.not_initial, fun happroval => ?_⟩
      rw [hcalls, hearly (.inr happroval)] at hpos
      exact Nat.lt_irrefl 0 hpos

theorem Run.CallsOnce.transition (h : ρ.CallsOnce) (hphase : ρ.phase = .running) :
    (ρ.transition configuration message event).1.CallsOnce := by
  rcases Run.transition_cases configuration message event ρ with
    heq | ⟨target, as, hen, -, heq⟩ | ⟨target, as, commands, hen, -, heq⟩
  · rw [heq]
    exact h
  · rw [heq]
    exact h.enter hphase hen []
  · rw [heq]
    have hentered := h.enter hphase hen commands
    exact ⟨hentered.le, hentered.quiet, hentered.invoking, hentered.called⟩

theorem Run.CallsOnce.begin (h : ρ.CallsOnce) (hphase : ρ.phase = .loaded)
    (restartsInvocation : Bool) (value : StateValue) (version : ℕ) :
    (ρ.begin restartsInvocation value version).CallsOnce := by
  have hzero := h.quiet (by simp [hphase])
  refine ⟨?_, fun hno => absurd rfl hno, fun hinvoking => ?_, fun hpos => ?_⟩
  · simp only [Run.begin, hzero]
    split <;> omega
  · simp only [Run.begin, hzero] at hinvoking ⊢
    rw [if_pos hinvoking]
    exact Nat.one_pos
  · simp only [Run.begin, hzero] at hpos ⊢
    split at hpos
    · rename_i hinvoked
      simp only [Bool.and_eq_true, decide_eq_true_eq] at hinvoked
      rw [hinvoked.2]
      exact ⟨by decide, by decide⟩
    · cases hpos

theorem Run.CallsOnce.reply (h : ρ.CallsOnce) (answer : Reply) : (ρ.reply answer).CallsOnce :=
  ⟨h.le, h.quiet, h.invoking, h.called⟩

theorem Run.CallsOnce.step {env : Env ι} {r : ι} {cell : Option IStateRecord} {l : Label ι}
    (h : ρ.CallsOnce) (hwf : ρ.WellFormed) (hstep : LocalStep env r cell ρ l ρ') :
    ρ'.CallsOnce := by
  have hquiet : ρ.phase ≠ .running → ∀ phase, { ρ with phase := phase : Run }.CallsOnce := by
    intro hphase phase
    exact ⟨h.le, fun _ => h.quiet hphase, h.invoking, h.called⟩
  cases hstep with
  | applyEvent hphase => exact hquiet (by simp [hphase]) _
  | read hphase =>
      have hloaded := hquiet (by simp [hphase]) .loaded
      exact ⟨hloaded.le, hloaded.quiet, hloaded.invoking, hloaded.called⟩
  | readFails hphase => exact (hquiet (by simp [hphase]) .ended).reply _
  | resume hphase =>
      rw [Run.resume_eq]
      split
      · exact (hquiet (by simp [hphase]) .ended).reply _
      · exact Run.send_induction (P := Run.CallsOnce) (fun _ answer h => h.reply answer)
          (h.begin hphase _ _ _) ((h.begin hphase _ _ _).transition rfl)
  | createInstanceEnds error hinvoking => exact h.transition (hwf.invoking hinvoking).1
  | updateFails _ _ _ => exact ⟨h.le, h.quiet, h.invoking, h.called⟩
  | updateReturns _ _ =>
      obtain ⟨-, hphase, -, -, hvalue, hcalls⟩ := ρ.updateReturns_frame (env.event r) _ _ _
      obtain ⟨-, hinvoking, -⟩ := ρ.updateReturns_said (env.event r) _ _ _
      refine ⟨by rw [hcalls]; exact h.le, fun hno => ?_, fun hinv => ?_, fun hpos => ?_⟩
      · rw [hcalls]
        exact h.quiet (by rwa [hphase] at hno)
      · rw [hcalls]
        exact h.invoking (by rwa [hinvoking] at hinv)
      · rw [hvalue]
        exact h.called (by rwa [hcalls] at hpos)

/-! ### What is queued -/

/-- The events with which the approver turns a request down. -/
def refusals : List String :=
  ["REQUESTREFUSED_FROM_APPROVER", "NOTUNDERSTOOD_FROM_APPROVER", "ERROR_FROM_APPROVER"]

/-- What brings a command about; `calls` is how often the run has called `createInstance`. -/
def Command.Caused (message : Message) (event : Event) (calls : ℕ) : Command → Prop
  | .requestApprovalFromApprover => event.type = "PUBLISHINSTANCE_FROM_OPERATOR"
  | .sendResponseInstanceToOperator submodel =>
      event.type = createInstanceDone ∧ submodel = message.interactionElements.bind List.head?
  | .requestTypeFromManufacturer => event.type = createInstanceDone
  | .sendErrorToOperator => event.type = createInstanceFailed
  | .sendNotUnderstoodToOperator =>
      event.type = createInstanceFailed ∧ event.data = some ⟨some 400⟩
  | .sendRequestRefusedToOperator =>
      event.type = createInstanceFailed ∧ event.data = some ⟨some 401⟩ ∨
        event.type ∈ refusals ∧ calls = 0
  | .sendResponseTypeToOperator => event.type = "RESPONSETYPE_FROM_MANUFACTURER"

theorem caused_of_enabled {v w : StateValue} {as : List Action}
    (hen : Enabled configuration v event.type w as) {calls : ℕ}
    (hcalls : v = .waitingForApproval → calls = 0) {c : Command}
    (hc : c ∈ (runActions event message as).commands) : c.Caused message event calls := by
  generalize htype : event.type = type at hen
  cases hen with
  | publish _ => cases hc
  | publishForApproval _ =>
      obtain rfl : c = .requestApprovalFromApprover := by simpa [Action.run] using hc
      exact htype
  | approved => cases hc
  | refused hrefusal =>
      obtain rfl : c = .sendRequestRefusedToOperator := by simpa [Action.run] using hc
      exact .inr ⟨by rw [htype]; exact hrefusal, hcalls rfl⟩
  | created _ =>
      cases hes : message.interactionElements with
      | none => simp [Action.run, hes] at hc
      | some es =>
          obtain rfl : c = .sendResponseInstanceToOperator es.head? := by
            simpa [Action.run, hes] using hc
          exact ⟨htype, by rw [hes]; rfl⟩
  | createdForType _ =>
      cases hes : message.interactionElements with
      | none => simp [Action.run, hes] at hc
      | some es =>
          simp only [runActions_singleton, Action.run, hes, List.mem_cons, List.not_mem_nil,
            or_false] at hc
          rcases hc with rfl | rfl
          · exact ⟨htype, by rw [hes]; rfl⟩
          · exact htype
  | failed =>
      simp only [runActions_singleton, Action.run] at hc
      split at hc
      · cases hc
      · rename_i error hdata
        split at hc <;> obtain rfl := List.mem_singleton.mp hc
        · exact htype
        · rename_i hstatus
          exact ⟨htype, by rw [hdata, ← hstatus]⟩
        · rename_i hstatus
          exact .inl ⟨htype, by rw [hdata, ← hstatus]⟩
        · exact htype
  | responseType =>
      obtain rfl : c = .sendResponseTypeToOperator := by simpa [Action.run] using hc
      exact htype
  | noType _ => cases hc

/-- What the transition of an interpreter queues is brought about by its event. -/
theorem Run.CallsOnce.caused (h : ρ.CallsOnce) {c : ℕ × Command}
    (hc : c ∈ (ρ.transition configuration message event).1.commandCollector) :
    c ∈ ρ.commandCollector ∨ c.2.Caused message event
      (ρ.transition configuration message event).1.createInstanceCalls := by
  unfold Run.transition at hc ⊢
  split at hc
  · exact .inl hc
  · rename_i t hselect
    have hen := enabled_of_select hselect
    have hqueued : c ∈ (ρ.enter t.target
        (runActions event message t.actions).commands).commandCollector := by
      dsimp only at hc
      split at hc <;> exact hc
    simp only [Run.enter, List.mem_append, List.mem_map] at hqueued
    rcases hqueued with hqueued | ⟨command, hcommand, rfl⟩
    · exact .inl hqueued
    · right
      refine caused_of_enabled hen (fun hvalue => ?_) hcommand
      have hzero : ρ.createInstanceCalls = 0 :=
        Nat.eq_zero_of_not_pos fun hpos => (h.called hpos).2 hvalue
      have htarget : t.target ≠ .creatingInstance := by
        intro htarget
        have hsilent := (htarget ▸ hen).into_creatingInstance.1
        rw [hsilent] at hcommand
        cases hcommand
      dsimp only
      split <;> simp [Run.issueWrite, Run.enter, hzero, htarget]

/-! ### One step of a run -/

section LocalStep

variable {env : Env ι} {r : ι} {cell : Option IStateRecord} {l : Label ι}

/-- The events that an interpreter is sent in a step. -/
inductive Sends (env : Env ι) (r : ι) : Label ι → Event → Prop
  | event : Sends env r (.resume r) ⟨env.event r, none⟩
  | createInstanceEvent (error : Option RequestError) :
      Sends env r (.createInstanceEnds r error) (createInstanceEvent error)

theorem Run.send_commands (ρ : Run) (configuration : Configuration) (message : Message)
    (type : String) :
    (ρ.send configuration message type).commandCollector ⊆
      (ρ.transition configuration message ⟨type, none⟩).1.commandCollector := by
  unfold Run.send
  split
  · dsimp only
    split <;> exact List.Subset.refl _
  · rename_i hdeclared
    cases hselect : select configuration ρ.value type with
    | none =>
        simp only [Run.transition, hselect, Run.reply]
        exact List.Subset.refl _
    | some t => exact absurd (mem_declaredEvents_of_select hselect) hdeclared

/-- A step queues nothing, unless the interpreter is sent an event that brings it about. -/
theorem LocalStep.caused (hstep : LocalStep env r cell ρ l ρ') (h : ρ.CallsOnce)
    (hwf : ρ.WellFormed) {c : ℕ × Command} (hc : c ∈ ρ'.commandCollector ++ ρ'.sent) :
    c ∈ ρ.commandCollector ++ ρ.sent ∨ ∃ event, Sends env r l event ∧
      c.2.Caused (env.message r) event ρ'.createInstanceCalls := by
  cases hstep with
  | applyEvent _ => exact .inl hc
  | read _ => exact .inl hc
  | readFails _ => exact .inl hc
  | resume hphase =>
      obtain ⟨-, -, hcollector, hsent⟩ := hwf.quiet (by simp [hphase])
      rw [(ρ.resume_frame env r).sent, hsent, List.append_nil] at hc
      rw [Run.resume_eq] at hc ⊢
      split at hc
      · exact .inl (List.mem_append_left _ hc)
      · rename_i hopen
        rw [if_neg hopen, Run.calls_send]
        have hbegin := h.begin hphase env.restartsInvocation
          (storedValue ρ.previousStateRecord) (expectedVersion ρ.previousStateRecord)
        rcases hbegin.caused (Run.send_commands _ _ _ _ hc) with hold | hcaused
        · exact .inl (List.mem_append_left _ hold)
        · exact .inr ⟨_, .event, hcaused⟩
  | createInstanceEnds error _ =>
      rcases List.mem_append.mp hc with hcollected | hsent
      · rcases h.caused hcollected with hold | hcaused
        · exact .inl (List.mem_append_left _ hold)
        · exact .inr ⟨_, .createInstanceEvent error, hcaused⟩
      · have hframe := Run.transition_frame env.configuration (env.message r)
          (createInstanceEvent error) ρ
        exact .inl (List.mem_append_right _ (hframe.sent ▸ hsent))
  | updateFails _ _ _ => exact .inl hc
  | updateReturns _ _ => exact .inl ((ρ.updateReturns_said (env.event r) _ _ _).2.2 hc)

theorem LocalStep.calls_le (hstep : LocalStep env r cell ρ l ρ') :
    ρ.createInstanceCalls ≤ ρ'.createInstanceCalls := by
  cases hstep with
  | resume _ =>
      rw [Run.resume_eq]
      split
      · exact Nat.le_refl _
      · rw [Run.calls_send]
        have hbegin : ρ.createInstanceCalls ≤ (ρ.begin env.restartsInvocation
            (storedValue ρ.previousStateRecord)
            (expectedVersion ρ.previousStateRecord)).createInstanceCalls := Nat.le_add_right _ _
        exact Nat.le_trans hbegin Run.calls_le_transition
  | createInstanceEnds error _ => exact Run.calls_le_transition
  | updateReturns _ _ =>
      exact Nat.le_of_eq (ρ.updateReturns_frame (env.event r) _ _ _).2.2.2.2.2.symm
  | _ => exact Nat.le_refl _

/-- An interpreter that is started without a call and has nothing to wait for calls it no
more. -/
theorem LocalStep.calls_eq_zero (hstep : LocalStep env r cell ρ l ρ') (h : ρ.CallsOnce)
    (hphase : ρ.phase = .running) (hzero : ρ.createInstanceCalls = 0) :
    ρ'.createInstanceCalls = 0 := by
  cases hstep with
  | resume hloaded => exact absurd (hphase.symm.trans hloaded) (by decide)
  | createInstanceEnds error hinvoking =>
      exact absurd hzero (Nat.ne_of_gt (h.invoking hinvoking))
  | updateReturns _ _ =>
      rw [(ρ.updateReturns_frame (env.event r) _ _ _).2.2.2.2.2]
      exact hzero
  | _ => exact hzero

end LocalStep

/-! ### One step of the system -/

/-- What a successful write leaves alone. -/
structure Run.Same (ρ ρ' : Run) : Prop where
  phase : ρ'.phase = ρ.phase
  value : ρ'.value = ρ.value
  invoking : ρ'.invoking = ρ.invoking
  calls : ρ'.createInstanceCalls = ρ.createInstanceCalls
  commandCollector : ρ'.commandCollector = ρ.commandCollector
  sent : ρ'.sent = ρ.sent

theorem Run.CallsOnce.same (h : ρ.CallsOnce) (hsame : ρ.Same ρ') : ρ'.CallsOnce := by
  obtain ⟨hphase, hvalue, hinvoking, hcalls, -, -⟩ := hsame
  exact ⟨hcalls ▸ h.le, fun hno => hcalls ▸ h.quiet (hphase ▸ hno),
    fun hinv => hcalls ▸ h.invoking (hinvoking ▸ hinv),
    fun hpos => hvalue ▸ h.called (hcalls ▸ hpos)⟩

/-- What a step does to one run. -/
theorem step_run [DecidableEq ι] {env : Env ι} {s s' : System ι} {l : Label ι}
    (hstep : step env s l = some s') (q : ι) :
    (∃ cell, LocalStep env q cell (s.runs q) l (s'.runs q)) ∨ (s.runs q).Same (s'.runs q) := by
  rcases step_cases hstep with ⟨r, ρ, hlocal, rfl⟩ | ⟨r, k, w, record, -, -, -, -, rfl⟩
  · rw [System.setRun_runs]
    split
    · rename_i hq
      subst hq
      exact .inl ⟨_, hlocal⟩
    · exact .inr ⟨rfl, rfl, rfl, rfl, rfl, rfl⟩
  · rw [System.store_runs]
    split
    · rename_i hq
      subst hq
      exact .inr ⟨rfl, rfl, rfl, rfl, rfl, rfl⟩
    · exact .inr ⟨rfl, rfl, rfl, rfl, rfl, rfl⟩

end I40Aas.OnboardingSkill
