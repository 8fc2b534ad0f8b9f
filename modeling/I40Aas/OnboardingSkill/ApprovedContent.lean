import I40Aas.OnboardingSkill.Approval

/-!
Whose submodels an approved conversation creates. The machine is stored without its
context and taken up with the message that has come, so `createInstance` and the answer
to the operator use the interaction elements of the approval. They are those of the
operator exactly if the approver has sent the same ones.
-/

namespace I40Aas.OnboardingSkill

open I40Aas.Lib

variable {ι : Type*}

/-- The interaction elements that each call of `createInstance` of a run posts. -/
def System.posts (env : Env ι) (s : System ι) (r : ι) : List (Option (List String)) :=
  List.replicate (s.runs r).createInstanceCalls (env.message r).interactionElements

def Command.response : Command → Option (Option String)
  | .sendResponseInstanceToOperator submodel => some submodel
  | _ => none

/-- The submodels in the `responseInstance` messages that a run has sent. -/
def Run.responses (ρ : Run) : List (Option String) := ρ.sent.filterMap fun c => c.2.response

/-- The transition of an operator's `PUBLISHINSTANCE` is stored. -/
def System.Published (env : Env ι) (s : System ι) (o : ι) : Prop :=
  env.event o = "PUBLISHINSTANCE_FROM_OPERATOR" ∧
    ∃ w ∈ (s.runs o).writes, w.eventType = env.event o ∧ w.status = .stored

/-- A conversation posts and sends back the submodels of its operator's message only. -/
structure System.OperatorsContent (env : Env ι) (s : System ι) : Prop where
  posts : ∀ o r, s.Published env o → env.conversationId r = env.conversationId o →
    ∀ elements ∈ s.posts env r, elements = (env.message o).interactionElements
  responses : ∀ o r, s.Published env o → env.conversationId r = env.conversationId o →
    ∀ submodel ∈ (s.runs r).responses,
      submodel = (env.message o).interactionElements.bind List.head?

/-- The message makes the interpreter call `createInstance` when it takes up the
conversation in this state. -/
def Creates (env : Env ι) (r : ι) (v : StateValue) : Prop :=
  v = .waitingForApproval ∧ env.event r = "APPROVED_FROM_APPROVER" ∨
    v = .creatingInstance ∧ env.restartsInvocation = true

/-- A message that makes it call `createInstance` has the elements of the operator's. -/
def RepeatsContent (env : Env ι) (s : System ι) (l : Label ι) : Prop :=
  ∀ r, l = .resume r → Creates env r (storedValue (s.runs r).previousStateRecord) →
    ∀ o, s.Published env o → env.conversationId r = env.conversationId o →
      (env.message r).interactionElements = (env.message o).interactionElements

/-! ### When `createInstance` is called -/

section Calls

variable {env : Env ι} {r : ι} {configuration : Configuration} {message : Message} {event : Event}
  {ρ : Run}

theorem Enabled.not_initial {v w : StateValue} {type : String} {as : List Action}
    (h : Enabled configuration v type w as) : w ≠ .waitingForOnboardingRequest := by
  cases h <;> decide

theorem Run.calls_transition (hask : configuration.askForApproval = true) :
    (ρ.transition configuration message event).1.createInstanceCalls = ρ.createInstanceCalls ∨
      ρ.value = .waitingForApproval ∧ event.type = "APPROVED_FROM_APPROVER" := by
  have hcreating : ∀ target as, Enabled configuration ρ.value event.type target as →
      target = .creatingInstance →
        ρ.value = .waitingForApproval ∧ event.type = "APPROVED_FROM_APPROVER" := by
    rintro target as hen rfl
    refine hen.into_creatingInstance.2.resolve_left fun ⟨_, hno⟩ => ?_
    rw [hask] at hno
    cases hno
  rcases Run.transition_cases configuration message event ρ with
    heq | ⟨target, as, hen, -, heq⟩ | ⟨target, as, commands, hen, -, heq⟩
  · exact .inl (by rw [heq])
  · by_cases htarget : target = .creatingInstance
    · exact .inr (hcreating target as hen htarget)
    · exact .inl (by simp [heq, Run.enter, htarget])
  · by_cases htarget : target = .creatingInstance
    · exact .inr (hcreating target as hen htarget)
    · exact .inl (by simp [heq, Run.issueWrite, Run.enter, htarget])

theorem Run.calls_le_transition :
    ρ.createInstanceCalls ≤
      (ρ.transition configuration message event).1.createInstanceCalls := by
  rcases Run.transition_cases configuration message event ρ with
    heq | ⟨target, as, -, -, heq⟩ | ⟨target, as, commands, -, -, heq⟩
  · exact Nat.le_of_eq (congrArg (·.1.createInstanceCalls) heq).symm
  · rw [heq]
    exact Nat.le_add_right _ _
  · rw [heq]
    exact Nat.le_add_right _ _

theorem Run.calls_transition_approved (hvalue : ρ.value = .waitingForApproval)
    (hevent : event.type = "APPROVED_FROM_APPROVER") :
    0 < (ρ.transition configuration message event).1.createInstanceCalls := by
  have hen : Enabled configuration ρ.value event.type .creatingInstance [] := by
    rw [hvalue, hevent]
    exact .approved
  obtain ⟨t, ht, htarget, hactions⟩ := select_of_enabled hen
  simp [Run.transition, ht, htarget, hactions, runActions, Run.issueWrite, Run.enter]

theorem Run.calls_send (type : String) :
    (ρ.send configuration message type).createInstanceCalls =
      (ρ.transition configuration message ⟨type, none⟩).1.createInstanceCalls := by
  unfold Run.send
  split
  · dsimp only
    split <;> rfl
  · rename_i hdeclared
    cases hselect : select configuration ρ.value type with
    | none => simp [Run.transition, hselect, Run.reply]
    | some t => exact absurd (mem_declaredEvents_of_select hselect) hdeclared

theorem Run.calls_resume_iff (hask : env.configuration.askForApproval = true) :
    0 < (ρ.resume env r).createInstanceCalls ↔
      0 < ρ.createInstanceCalls ∨ Creates env r (storedValue ρ.previousStateRecord) := by
  rw [Run.resume_eq]
  generalize hv : storedValue ρ.previousStateRecord = v
  split
  · rename_i hfinal
    have hno : ¬ Creates env r v := by
      rintro (⟨rfl, -⟩ | ⟨rfl, -⟩) <;> cases hfinal
    rw [or_iff_left hno]
    rfl
  · generalize hbegun : ρ.begin env.restartsInvocation v _ = begun
    have hvalue : begun.value = v := by rw [← hbegun]; rfl
    have hcalls : 0 < begun.createInstanceCalls ↔ 0 < ρ.createInstanceCalls ∨
        v = .creatingInstance ∧ env.restartsInvocation = true := by
      rw [← hbegun]
      by_cases hinvoked : v = .creatingInstance ∧ env.restartsInvocation = true
      · simp [Run.begin, hinvoked]
      · have hno : (env.restartsInvocation && decide (v = .creatingInstance)) = false := by
          simpa [and_comm] using hinvoked
        simp [Run.begin, hno, hinvoked]
    rw [Run.calls_send]
    constructor
    · intro hpos
      have htransition : (begun.transition env.configuration (env.message r)
          ⟨env.event r, none⟩).1.createInstanceCalls = begun.createInstanceCalls ∨
            begun.value = .waitingForApproval ∧ env.event r = "APPROVED_FROM_APPROVER" :=
        Run.calls_transition hask
      rcases htransition with hsame | ⟨hwaiting, hevent⟩
      · rw [hsame] at hpos
        exact (hcalls.mp hpos).imp_right .inr
      · exact .inr (.inl ⟨hvalue.symm.trans hwaiting, hevent⟩)
    · rintro (hpos | ⟨hwaiting, hevent⟩ | hrestarts)
      · exact Nat.lt_of_lt_of_le (hcalls.mpr (.inl hpos)) Run.calls_le_transition
      · exact Run.calls_transition_approved (hvalue.trans hwaiting) hevent
      · exact Nat.lt_of_lt_of_le (hcalls.mpr (.inr hrestarts)) Run.calls_le_transition

end Calls

/-! ### Where the content of a run comes from -/

/-- The name of an event from outside has a separator in it. -/
theorem eventName_ne (toUpperCase : String → String) (message : Message) :
    eventName toUpperCase message ≠ createInstanceDone := by
  intro h
  have hmem : '_' ∈ (eventName toUpperCase message).toList := by
    simp [eventName, String.toList_append]
  rw [h] at hmem
  exact absurd hmem (by decide)

/-- The operator is only answered when `createInstance` has ended, with the first of the
elements. -/
theorem runActions_response {configuration : Configuration} {v w : StateValue} {type : String}
    {as : List Action} {event : Event} {message : Message} {submodel : Option String}
    (hen : Enabled configuration v type w as) {c : Command}
    (hc : c ∈ (runActions event message as).commands) (hresponse : c.response = some submodel) :
    type = createInstanceDone ∧ submodel = message.interactionElements.bind List.head? := by
  cases hen with
  | created _ =>
      refine ⟨rfl, ?_⟩
      cases hes : message.interactionElements with
      | none => simp [Action.run, hes] at hc
      | some es =>
          simp only [runActions_singleton, Action.run, hes, List.mem_singleton] at hc
          subst hc
          exact (Option.some.inj hresponse).symm
  | createdForType _ =>
      refine ⟨rfl, ?_⟩
      cases hes : message.interactionElements with
      | none => simp [Action.run, hes] at hc
      | some es =>
          simp only [runActions_singleton, Action.run, hes, List.mem_cons, List.not_mem_nil,
            or_false] at hc
          rcases hc with rfl | rfl
          · exact (Option.some.inj hresponse).symm
          · cases hresponse
  | failed =>
      simp only [runActions_singleton, Action.run] at hc
      split at hc
      · cases hc
      · split at hc <;> (obtain rfl := List.mem_singleton.mp hc; cases hresponse)
  | _ =>
      simp only [runActions, Action.run] at hc
      simp at hc
      try (subst hc; cases hresponse)

theorem Enabled.initial_of_publish {configuration : Configuration} {v w : StateValue}
    {type : String} {as : List Action} (h : Enabled configuration v type w as)
    (htype : type = "PUBLISHINSTANCE_FROM_OPERATOR") : v = .waitingForOnboardingRequest := by
  cases h with
  | publish _ => rfl
  | publishForApproval _ => rfl
  | refused hmem =>
      subst htype
      exact absurd hmem (by decide)
  | noType hmem =>
      subst htype
      exact absurd hmem (by decide)
  | _ => exact absurd htype (by decide)

/-- What a run knows about its content: it has come from a stored conversation when it
calls `createInstance`, and answers the operator with the first element of its message. -/
structure Run.Traced (elements : Option (List String)) (ρ : Run) : Prop where
  read : ∀ record, ρ.previousStateRecord = some record →
    record.value ≠ .waitingForOnboardingRequest
  fresh : ρ.value = .waitingForOnboardingRequest → ρ.versionCounter = 0
  states : ∀ w ∈ ρ.writes, w.state ≠ .waitingForOnboardingRequest
  published : ∀ w ∈ ρ.writes, w.eventType = "PUBLISHINSTANCE_FROM_OPERATOR" → w.filterVersion = 0
  started : 0 < ρ.createInstanceCalls → ρ.phase = .running ∧ ρ.previousStateRecord ≠ none
  invoking : ρ.invoking = true → 0 < ρ.createInstanceCalls
  responses : ∀ c ∈ ρ.commandCollector ++ ρ.sent, ∀ submodel, c.2.response = some submodel →
    0 < ρ.createInstanceCalls ∧ submodel = elements.bind List.head?

theorem Run.traced_initial (elements : Option (List String)) : Run.initial.Traced elements := by
  constructor <;> simp [Run.initial]

section LocalStep

variable {env : Env ι} {r : ι} {cell : Option IStateRecord} {l : Label ι} {ρ ρ' : Run}
  {message : Message} {event : Event} {elements : Option (List String)}

/-- Only what the run has read, written and said, and its calls, count. -/
theorem Run.Traced.of_eq (h : ρ.Traced elements)
    (hphase : ρ'.phase = ρ.phase ∨ ρ.phase ≠ .running)
    (hread : ρ'.previousStateRecord = ρ.previousStateRecord) (hvalue : ρ'.value = ρ.value)
    (hcounter : ρ'.versionCounter = ρ.versionCounter)
    (hwrites : ∀ w ∈ ρ'.writes, ∃ w₀ ∈ ρ.writes, w.state = w₀.state ∧
      w.eventType = w₀.eventType ∧ w.filterVersion = w₀.filterVersion)
    (hcalls : ρ'.createInstanceCalls = ρ.createInstanceCalls) (hinvoking : ρ'.invoking = ρ.invoking)
    (hsaid : ρ'.commandCollector ++ ρ'.sent ⊆ ρ.commandCollector ++ ρ.sent) :
    ρ'.Traced elements := by
  constructor
  · rw [hread]
    exact h.read
  · rw [hvalue, hcounter]
    exact h.fresh
  · intro w hw
    obtain ⟨w₀, hw₀, hstate, -⟩ := hwrites w hw
    rw [hstate]
    exact h.states w₀ hw₀
  · intro w hw htype
    obtain ⟨w₀, hw₀, -, htype₀, hfilter⟩ := hwrites w hw
    rw [hfilter]
    exact h.published w₀ hw₀ (htype₀.symm.trans htype)
  · rw [hcalls, hread]
    intro hpos
    obtain ⟨hrunning, hprev⟩ := h.started hpos
    exact ⟨(hphase.resolve_right (not_not_intro hrunning)).trans hrunning, hprev⟩
  · rw [hcalls, hinvoking]
    exact h.invoking
  · rw [hcalls]
    exact fun c hc => h.responses c (hsaid hc)

theorem Run.Traced.reply (h : ρ.Traced elements) (answer : Reply) :
    (ρ.reply answer).Traced elements :=
  h.of_eq (.inl rfl) rfl rfl rfl (fun w hw => ⟨w, hw, rfl, rfl, rfl⟩) rfl rfl (List.Subset.refl _)

theorem Run.Traced.modify (h : ρ.Traced elements) (k : ℕ) {f : Write → Write}
    (hf : ∀ w, (f w).state = w.state ∧ (f w).eventType = w.eventType ∧
      (f w).filterVersion = w.filterVersion)
    (hphase : ρ'.phase = ρ.phase) (hread : ρ'.previousStateRecord = ρ.previousStateRecord)
    (hvalue : ρ'.value = ρ.value)
    (hcounter : ρ'.versionCounter = ρ.versionCounter)
    (hwrites : ρ'.writes = ρ.writes.modify k f)
    (hcalls : ρ'.createInstanceCalls = ρ.createInstanceCalls) (hinvoking : ρ'.invoking = ρ.invoking)
    (hsaid : ρ'.commandCollector ++ ρ'.sent ⊆ ρ.commandCollector ++ ρ.sent) :
    ρ'.Traced elements := by
  refine h.of_eq (.inl hphase) hread hvalue hcounter (fun w hw => ?_) hcalls hinvoking hsaid
  rw [hwrites] at hw
  rcases Run.mem_modify_writes hw with hw | ⟨w₀, hw₀, rfl⟩
  · exact ⟨w, hw, rfl, rfl, rfl⟩
  · exact ⟨w₀, List.mem_of_getElem? hw₀, hf w₀⟩

theorem Run.Traced.enter {target : StateValue} {as : List Action}
    (h : ρ.Traced message.interactionElements) (hphase : ρ.phase = .running)
    (hask : env.configuration.askForApproval = true)
    (hen : Enabled env.configuration ρ.value event.type target as)
    (happroved : ρ.value = .waitingForApproval → event.type = "APPROVED_FROM_APPROVER" →
      ρ.previousStateRecord ≠ none)
    (hdone : event.type = createInstanceDone → 0 < ρ.createInstanceCalls) :
    (ρ.enter target (runActions event message as).commands).Traced
      message.interactionElements := by
  constructor
  · exact h.read
  · exact fun hvalue => absurd hvalue hen.not_initial
  · exact h.states
  · exact h.published
  · intro hcalls
    by_cases htarget : target = .creatingInstance
    · subst htarget
      rcases hen.into_creatingInstance.2 with ⟨-, hno⟩ | ⟨hvalue, hevent⟩
      · rw [hask] at hno
        cases hno
      · exact ⟨hphase, happroved hvalue hevent⟩
    · exact h.started (by simpa [Run.enter, htarget] using hcalls)
  · intro hinvoking
    have htarget : target = .creatingInstance := by simpa [Run.enter] using hinvoking
    simp [Run.enter, htarget]
  · intro c hc submodel hresponse
    have hcalls : ρ.createInstanceCalls ≤
        (ρ.enter target (runActions event message as).commands).createInstanceCalls :=
      Nat.le_add_right _ _
    simp only [Run.enter, List.mem_append, List.mem_map] at hc
    rcases hc with (hc | ⟨command, hcommand, rfl⟩) | hc
    · obtain ⟨hpos, heq⟩ := h.responses c (List.mem_append_left _ hc) submodel hresponse
      exact ⟨Nat.lt_of_lt_of_le hpos hcalls, heq⟩
    · obtain ⟨htype, heq⟩ := runActions_response hen hcommand hresponse
      exact ⟨Nat.lt_of_lt_of_le (hdone htype) hcalls, heq⟩
    · obtain ⟨hpos, heq⟩ := h.responses c (List.mem_append_right _ hc) submodel hresponse
      exact ⟨Nat.lt_of_lt_of_le hpos hcalls, heq⟩

theorem Run.Traced.issueWrite {type : String} (h : ρ.Traced elements)
    (hvalue : ρ.value ≠ .waitingForOnboardingRequest)
    (htype : type = "PUBLISHINSTANCE_FROM_OPERATOR" → ρ.versionCounter = 0) :
    (ρ.issueWrite type).Traced elements := by
  constructor
  · exact h.read
  · exact fun hno => absurd hno hvalue
  · intro w hw
    rcases List.mem_append.mp hw with hw | hw
    · exact h.states w hw
    · obtain rfl := List.mem_singleton.mp hw
      exact hvalue
  · intro w hw hpublish
    rcases List.mem_append.mp hw with hw | hw
    · exact h.published w hw hpublish
    · obtain rfl := List.mem_singleton.mp hw
      exact htype hpublish
  · exact h.started
  · exact h.invoking
  · exact h.responses

theorem Run.Traced.transition (h : ρ.Traced message.interactionElements)
    (hphase : ρ.phase = .running)
    (hask : env.configuration.askForApproval = true)
    (happroved : ρ.value = .waitingForApproval → event.type = "APPROVED_FROM_APPROVER" →
      ρ.previousStateRecord ≠ none)
    (hdone : event.type = createInstanceDone → 0 < ρ.createInstanceCalls) :
    (ρ.transition env.configuration message event).1.Traced message.interactionElements := by
  cases hselect : select env.configuration ρ.value event.type with
  | none => simpa [Run.transition, hselect] using h
  | some t =>
      have hen := enabled_of_select hselect
      have hentered := h.enter hphase hask hen happroved hdone
      simp only [Run.transition, hselect]
      split
      · exact hentered
      · exact hentered.issueWrite hen.not_initial fun htype =>
          h.fresh (hen.initial_of_publish htype)

theorem Run.Traced.resume (h : ρ.Traced (env.message r).interactionElements)
    (hphase : ρ.phase = .loaded)
    (hask : env.configuration.askForApproval = true) (hevent : env.event r ≠ createInstanceDone) :
    (ρ.resume env r).Traced (env.message r).interactionElements := by
  rw [Run.resume_eq]
  split
  · exact h.of_eq (.inr (by simp [hphase])) rfl rfl rfl (fun w hw => ⟨w, hw, rfl, rfl, rfl⟩) rfl rfl
      (List.Subset.refl _)
  · have hsome : storedValue ρ.previousStateRecord ≠ .waitingForOnboardingRequest →
        ρ.previousStateRecord ≠ none := by
      intro hvalue hnone
      rw [hnone] at hvalue
      exact hvalue rfl
    have hbegin : (ρ.begin env.restartsInvocation (storedValue ρ.previousStateRecord)
        (expectedVersion ρ.previousStateRecord)).Traced (env.message r).interactionElements := by
      constructor
      · exact h.read
      · intro hvalue
        cases hprev : ρ.previousStateRecord with
        | none => simp [Run.begin, hprev]
        | some record =>
            rw [hprev] at hvalue
            exact absurd hvalue (h.read record hprev)
      · exact h.states
      · exact h.published
      · intro hcalls
        refine ⟨rfl, ?_⟩
        by_cases hinvoked : storedValue ρ.previousStateRecord = .creatingInstance
        · exact hsome (by rw [hinvoked]; decide)
        · exact (h.started (by simpa [Run.begin, hinvoked] using hcalls)).2
      · intro hinvoking
        simp only [Run.begin] at hinvoking ⊢
        simp [hinvoking]
      · intro c hc submodel hresponse
        obtain ⟨hpos, heq⟩ := h.responses c hc submodel hresponse
        exact ⟨Nat.lt_of_lt_of_le hpos (Nat.le_add_right _ _), heq⟩
    refine Run.send_induction (P := fun ρ => ρ.Traced (env.message r).interactionElements)
      (fun _ answer h => h.reply answer) hbegin (hbegin.transition rfl hask ?_ ?_)
    · intro hvalue _
      have hstored : storedValue ρ.previousStateRecord = .waitingForApproval := hvalue
      exact hsome (by rw [hstored]; decide)
    · exact fun hdone => absurd hdone hevent

theorem Run.updateReturns_said (ρ : Run) (event : String) (k : ℕ) (w : Write)
    (throws : Command → Bool) :
    let ρ' := ρ.updateReturns event k w throws
    ρ'.versionCounter = ρ.versionCounter ∧ ρ'.invoking = ρ.invoking ∧
      ρ'.commandCollector ++ ρ'.sent ⊆ ρ.commandCollector ++ ρ.sent := by
  have hcommitted : ∀ throws : ℕ × Command → Bool,
      (commit throws ρ.commandCollector).left ++
          (ρ.sent ++ (commit throws ρ.commandCollector).performed) ⊆
        ρ.commandCollector ++ ρ.sent := by
    intro throws c hc
    simp only [List.mem_append] at hc ⊢
    rcases hc with hleft | hsent | hperformed
    · exact .inl (mem_of_mem_left hleft)
    · exact .inr hsent
    · exact .inl (mem_of_mem_performed hperformed)
  simp only [Run.updateReturns]
  split_ifs
  · exact ⟨rfl, rfl, hcommitted _⟩
  · exact ⟨rfl, rfl, hcommitted _⟩
  · exact ⟨rfl, rfl, hcommitted _⟩
  · exact ⟨rfl, rfl, List.Subset.refl _⟩
  · exact ⟨rfl, rfl, List.Subset.refl _⟩

theorem Run.Traced.step (h : ρ.Traced (env.message r).interactionElements)
    (hask : env.configuration.askForApproval = true) (hevent : env.event r ≠ createInstanceDone)
    (hcell : ∀ record, cell = some record → record.value ≠ .waitingForOnboardingRequest)
    (hstep : LocalStep env r cell ρ l ρ') : ρ'.Traced (env.message r).interactionElements := by
  have hkeep : ∀ w ∈ ρ.writes, ∃ w₀ ∈ ρ.writes, w.state = w₀.state ∧
      w.eventType = w₀.eventType ∧ w.filterVersion = w₀.filterVersion :=
    fun w hw => ⟨w, hw, rfl, rfl, rfl⟩
  cases hstep with
  | applyEvent hphase =>
      exact h.of_eq (.inr (by simp [hphase])) rfl rfl rfl hkeep rfl rfl (List.Subset.refl _)
  | read hphase =>
      refine ⟨hcell, h.fresh, h.states, h.published, fun hpos => ?_, h.invoking, h.responses⟩
      exact absurd (hphase.symm.trans (h.started hpos).1) (by decide)
  | readFails hphase =>
      exact h.of_eq (.inr (by simp [hphase])) rfl rfl rfl hkeep rfl rfl (List.Subset.refl _)
  | resume hphase => exact h.resume hphase hask hevent
  | createInstanceEnds error hinvoking =>
      have hpos := h.invoking hinvoking
      exact h.transition (h.started hpos).1 hask
        (fun _ happroved => absurd happroved (createInstanceEvent_ne error)) fun _ => hpos
  | @updateFails k _ _ status _ _ _ =>
      exact h.modify k (f := fun w => { w with status := status }) (fun _ => ⟨rfl, rfl, rfl⟩) rfl
        rfl rfl rfl rfl rfl rfl (List.Subset.refl _)
  | @updateReturns k w throws _ _ =>
      obtain ⟨hwrites, hphase, hprev, -, hvalue, hcalls⟩ :=
        ρ.updateReturns_frame (env.event r) k w throws
      obtain ⟨hcounter, hinvoking, hsaid⟩ := ρ.updateReturns_said (env.event r) k w throws
      exact h.modify k (f := fun w => { w with returned := true }) (fun _ => ⟨rfl, rfl, rfl⟩) hphase
        hprev hvalue hcounter hwrites hcalls hinvoking
        hsaid

/-! ### What a step adds -/

theorem LocalStep.calls (h : LocalStep env r cell ρ l ρ')
    (hask : env.configuration.askForApproval = true) (hpos : 0 < ρ'.createInstanceCalls) :
    0 < ρ.createInstanceCalls ∨
      l = .resume r ∧ Creates env r (storedValue ρ.previousStateRecord) := by
  cases h with
  | applyEvent _ => exact .inl hpos
  | read _ => exact .inl hpos
  | readFails _ => exact .inl hpos
  | resume _ => exact ((Run.calls_resume_iff hask).mp hpos).imp_right fun h => ⟨rfl, h⟩
  | createInstanceEnds error _ =>
      left
      have htransition : (ρ.createInstanceEnds env r error).createInstanceCalls =
          ρ.createInstanceCalls ∨ ρ.value = .waitingForApproval ∧
            (createInstanceEvent error).type = "APPROVED_FROM_APPROVER" :=
        Run.calls_transition hask
      rcases htransition with hsame | ⟨-, happroved⟩
      · rwa [← hsame]
      · exact absurd happroved (createInstanceEvent_ne error)
  | updateFails _ _ _ => exact .inl hpos
  | updateReturns _ _ =>
      left
      rwa [← (ρ.updateReturns_frame (env.event r) _ _ _).2.2.2.2.2]

theorem Run.stored_of_transition {configuration : Configuration} {w : Write}
    (hw : w ∈ (ρ.transition configuration message event).1.writes) (hstored : w.status = .stored) :
    w ∈ ρ.writes := by
  rcases Run.transition_cases configuration message event ρ with
    heq | ⟨target, as, -, -, heq⟩ | ⟨target, as, commands, -, -, heq⟩
  · rwa [heq] at hw
  · rwa [heq] at hw
  · rw [heq] at hw
    rcases List.mem_append.mp hw with hw | hw
    · exact hw
    · obtain rfl := List.mem_singleton.mp hw
      cases hstored

/-- No write is stored by a local step. -/
theorem LocalStep.stored (h : LocalStep env r cell ρ l ρ') {w : Write} (hw : w ∈ ρ'.writes)
    (hstored : w.status = .stored) :
    ∃ w₀ ∈ ρ.writes, w₀.eventType = w.eventType ∧ w₀.status = .stored := by
  cases h with
  | applyEvent _ => exact ⟨w, hw, rfl, hstored⟩
  | read _ => exact ⟨w, hw, rfl, hstored⟩
  | readFails _ => exact ⟨w, hw, rfl, hstored⟩
  | resume _ =>
      refine ⟨w, ?_, rfl, hstored⟩
      rw [Run.resume_eq] at hw
      split at hw
      · exact hw
      · have hbegun : w ∈ (ρ.begin env.restartsInvocation (storedValue ρ.previousStateRecord)
            (expectedVersion ρ.previousStateRecord)).writes := by
          refine Run.send_induction (P := fun ρ' => w ∈ ρ'.writes → w ∈ _) (fun _ _ h => h) id
            (fun hw => ?_) hw
          exact Run.stored_of_transition hw hstored
        exact hbegun
  | createInstanceEnds error _ => exact ⟨w, Run.stored_of_transition hw hstored, rfl, hstored⟩
  | updateFails _ _ hstatus =>
      rcases Run.mem_modify_writes hw with hw | ⟨w₀, -, rfl⟩
      · exact ⟨w, hw, rfl, hstored⟩
      · rcases hstatus with ⟨-, rfl⟩ | ⟨rfl, -⟩ <;> cases hstored
  | updateReturns _ _ =>
      rw [(ρ.updateReturns_frame (env.event r) _ _ _).1] at hw
      rcases Run.mem_modify_writes hw with hw | ⟨w₀, hw₀, rfl⟩
      · exact ⟨w, hw, rfl, hstored⟩
      · exact ⟨w₀, List.mem_of_getElem? hw₀, rfl, hstored⟩

end LocalStep

/-! ### All runs of a conversation -/

/-- A record is left for every conversation that a run has taken up, and no record is of the
initial state. -/
structure System.Traced (env : Env ι) (s : System ι) : Prop where
  runs : ∀ r, (s.runs r).Traced (env.message r).interactionElements
  taken : ∀ r, (s.runs r).previousStateRecord ≠ none → s.db (env.conversationId r) ≠ none
  db : ∀ conversationId record, s.db conversationId = some record →
    record.value ≠ .waitingForOnboardingRequest ∧ 0 < record.version

theorem System.traced_initial (env : Env ι) :
    (System.initial fun _ => none : System ι).Traced env where
  runs r := Run.traced_initial _
  taken r h := absurd rfl h
  db conversationId record h := by cases h

section System

variable [DecidableEq ι] {env : Env ι} {s s' : System ι} {l : Label ι}

theorem System.Traced.step (h : s.Traced env) (hwf : s.WellFormed)
    (hask : env.configuration.askForApproval = true)
    (hevents : ∀ r, env.event r ≠ createInstanceDone)
    (hstep : step env s l = some s') : s'.Traced env := by
  rcases step_cases hstep with ⟨r, ρ, hlocal, rfl⟩ | ⟨r, k, w, record, -, hw, -, hup, rfl⟩
  · constructor
    · intro q
      rw [System.setRun_runs]
      split
      · rename_i hqr
        subst hqr
        exact (h.runs q).step hask (hevents q) (fun record hrecord => (h.db _ record hrecord).1)
          hlocal
      · exact h.runs q
    · intro q
      rw [System.setRun_runs, System.setRun_db]
      split
      · rename_i hqr
        subst hqr
        rcases (hlocal.frame (hwf q)).2 with ⟨-, hprev, -⟩ | ⟨-, -, hprev⟩
        · rw [hprev]
          exact h.taken q
        · rw [hprev]
          exact id
      · exact h.taken q
    · exact h.db
  · obtain ⟨rfl, -⟩ := upsert_eq_some_iff.mp hup
    constructor
    · intro q
      rw [System.store_runs]
      split
      · rename_i hqr
        subst hqr
        exact (h.runs q).modify k (f := fun w => { w with status := .stored })
          (fun _ => ⟨rfl, rfl, rfl⟩) rfl rfl rfl rfl rfl rfl rfl (List.Subset.refl _)
      · exact h.runs q
    · intro q hprev
      rw [System.store_db]
      split
      · exact Option.some_ne_none _
      · refine h.taken q ?_
        rename_i hother
        rw [System.store_runs, if_neg fun hqr => hother (congrArg env.conversationId hqr)] at hprev
        exact hprev
    · intro conversationId record' hrecord'
      rw [System.store_db] at hrecord'
      split at hrecord'
      · obtain rfl := Option.some.inj hrecord'
        exact ⟨(h.runs r).states w (List.mem_of_getElem? hw), Nat.succ_pos _⟩
      · exact h.db conversationId record' hrecord'

omit [DecidableEq ι] in
/-- The answers to the operator follow what is posted. -/
theorem System.Traced.content_iff (h : s.Traced env) :
    s.OperatorsContent env ↔
      ∀ o r, s.Published env o → env.conversationId r = env.conversationId o →
        0 < (s.runs r).createInstanceCalls →
          (env.message r).interactionElements = (env.message o).interactionElements := by
  constructor
  · intro hcontent o r hpublished hconversation hpos
    exact hcontent.posts o r hpublished hconversation _
      (List.mem_replicate.mpr ⟨Nat.ne_of_gt hpos, rfl⟩)
  · intro hposts
    constructor
    · intro o r hpublished hconversation elements helements
      obtain ⟨hcalls, rfl⟩ := List.mem_replicate.mp helements
      exact hposts o r hpublished hconversation (Nat.pos_of_ne_zero hcalls)
    · intro o r hpublished hconversation submodel hsubmodel
      obtain ⟨c, hc, hresponse⟩ := List.mem_filterMap.mp hsubmodel
      obtain ⟨hpos, rfl⟩ := (h.runs r).responses c (List.mem_append_right _ hc) submodel hresponse
      rw [hposts o r hpublished hconversation hpos]

omit [DecidableEq ι] in
/-- The record of a conversation in which an instance has been created is not written by
the transition of an operator's message any more. -/
theorem System.Traced.not_publish (h : s.Traced env) {o r : ι} {k : ℕ} {w : Write}
    {record : IStateRecord} (hw : (s.runs o).writes[k]? = some w)
    (htype : w.eventType = "PUBLISHINSTANCE_FROM_OPERATOR")
    (hup : upsert w.filterVersion w.state (s.db (env.conversationId o)) = some record)
    (hconversation : env.conversationId r = env.conversationId o) :
    ¬ 0 < (s.runs r).createInstanceCalls := by
  intro hpos
  have hfilter := (h.runs o).published w (List.mem_of_getElem? hw) htype
  obtain ⟨old, hold⟩ := Option.ne_none_iff_exists'.mp (h.taken r ((h.runs r).started hpos).2)
  rw [hconversation] at hold
  have hversion := (upsert_eq_some_iff.mp hup).2 old hold
  have := (h.db _ old hold).2
  omega

theorem System.OperatorsContent.step (hP : s.OperatorsContent env) (h : s.Traced env)
    (h' : s'.Traced env) (hask : env.configuration.askForApproval = true)
    (hok : RepeatsContent env s l) (hstep : step env s l = some s') : s'.OperatorsContent env := by
  rw [h.content_iff] at hP
  rw [h'.content_iff]
  intro o r ⟨hevent, w', hw', htype, hstored⟩ hconversation hpos
  rcases step_cases hstep with ⟨q, ρ, hlocal, rfl⟩ | ⟨q, k, w, record, -, hw, -, hup, rfl⟩
  · have hpublished : s.Published env o := by
      rw [System.setRun_runs] at hw'
      split at hw'
      · rename_i hoq
        subst hoq
        obtain ⟨w, hw, hsame, hstored⟩ := hlocal.stored hw' hstored
        exact ⟨hevent, w, hw, hsame.trans htype, hstored⟩
      · exact ⟨hevent, w', hw', htype, hstored⟩
    rw [System.setRun_runs] at hpos
    split at hpos
    · rename_i hrq
      subst hrq
      rcases hlocal.calls hask hpos with hpos | ⟨rfl, hcreates⟩
      · exact hP o r hpublished hconversation hpos
      · exact hok r rfl hcreates o hpublished hconversation
    · exact hP o r hpublished hconversation hpos
  · have hcalls : 0 < (s.runs r).createInstanceCalls := by
      rw [System.store_runs] at hpos
      split at hpos
      · rename_i hrq
        subst hrq
        exact hpos
      · exact hpos
    refine hP o r ⟨hevent, ?_⟩ hconversation hcalls
    rw [System.store_runs] at hw'
    split at hw'
    · rename_i hoq
      subst hoq
      rcases Run.mem_modify_writes_of_get hw hw' with hw' | rfl
      · exact ⟨w', hw', htype, hstored⟩
      · exact absurd hcalls (h.not_publish hw (htype.trans hevent) hup hconversation)
    · exact ⟨w', hw', htype, hstored⟩

theorem System.not_operatorsContent (h' : s'.Traced env)
    (hask : env.configuration.askForApproval = true) (hbad : ¬ RepeatsContent env s l)
    (hstep : step env s l = some s') : ¬ s'.OperatorsContent env := by
  rw [h'.content_iff]
  simp only [RepeatsContent, not_forall] at hbad
  obtain ⟨r, rfl, hcreates, o, ⟨hevent, w, hw⟩, hconversation, hne⟩ := hbad
  have hor : o ≠ r := by
    rintro rfl
    exact hne rfl
  simp only [OnboardingSkill.step, Option.ite_none_right_eq_some, Option.some.injEq] at hstep
  obtain ⟨-, rfl⟩ := hstep
  intro hposts
  refine hne (hposts o r ⟨hevent, w, ?_⟩ hconversation ?_)
  · rwa [System.setRun_runs, if_neg hor]
  · rw [System.setRun_runs, if_pos rfl]
    exact (Run.calls_resume_iff hask).mpr (.inr hcreates)

/-- With `askForApproval` set, what a conversation posts and sends back are the submodels of
its operator's message exactly if every message that makes it call `createInstance` has the
same interaction elements. -/
theorem operatorsContent_iff (toUpperCase : String → String) (askForType restartsInvocation : Bool)
    (message : ι → Message) (schedule : List (Label ι)) :
    let env := Env.receive toUpperCase ⟨true, askForType⟩ restartsInvocation message
    Along (step env) (System.OperatorsContent env) (System.initial fun _ => none) schedule ↔
      Guarded (step env) (RepeatsContent env) (System.initial fun _ => none) schedule := by
  intro env
  have hevents : ∀ r, env.event r ≠ createInstanceDone := fun r => eventName_ne _ _
  have hinitial : (System.initial fun _ => none : System ι).Traced env := System.traced_initial env
  refine along_iff_guarded (I := fun s => s.WellFormed ∧ s.Traced env) ?_ ?_ ?_
    ⟨fun _ => Run.wellFormed_initial, hinitial⟩ ?_ schedule
  · exact fun _ _ _ ⟨hwf, h⟩ hstep => ⟨hwf.step hstep, h.step hwf rfl hevents hstep⟩
  · exact fun _ _ _ ⟨hwf, h⟩ hP hok hstep =>
      hP.step h (h.step hwf rfl hevents hstep) rfl hok hstep
  · exact fun _ _ _ ⟨hwf, h⟩ _ hbad hstep =>
      System.not_operatorsContent (h.step hwf rfl hevents hstep) rfl hbad hstep
  · rw [hinitial.content_iff]
    intro o r _ _ hpos
    cases hpos

end System

/-! An operator's message and an approval with other elements. -/

def substitutedMessages : Bool → Message
  | false => ⟨"publishInstance", "Operator", "conversation", some ["submodel"]⟩
  | true => ⟨"approved", "Approver", "conversation", some ["other"]⟩

def substitutedSchedule : List (Label Bool) :=
  [.applyEvent false, .read false true, .resume false, .update false 0 true,
    .updateReturns false 0 fun _ => false, .applyEvent true, .read true true, .resume true]

theorem not_operatorsContent_other :
    ¬ ∀ (toUpperCase : String → String) (askForType restartsInvocation : Bool)
        (message : Bool → Message) (schedule : List (Label Bool)),
      Along (step (Env.receive toUpperCase ⟨true, askForType⟩ restartsInvocation message))
        (System.OperatorsContent
          (Env.receive toUpperCase ⟨true, askForType⟩ restartsInvocation message))
        (System.initial fun _ => none) schedule := by
  intro h
  have hcontent := h toUpperCaseAscii false false substitutedMessages substitutedSchedule
  have hrun : (exec (step (Env.receive toUpperCaseAscii ⟨true, false⟩ false substitutedMessages))
      (System.initial fun _ => none) substitutedSchedule).map (fun s =>
        ((s.runs false).writes.map fun w => (w.eventType, w.status),
          (s.runs true).createInstanceCalls)) =
      some ([("PUBLISHINSTANCE_FROM_OPERATOR", .stored)], 1) := by decide
  obtain ⟨s, hs, hvalues⟩ := Option.map_eq_some_iff.mp hrun
  obtain ⟨hwrites, hcalls⟩ := Prod.mk.inj hvalues
  obtain ⟨w, hw, hevent⟩ := List.mem_map.mp (hwrites ▸ List.mem_singleton_self _)
  obtain ⟨htype, hstored⟩ := Prod.mk.inj hevent
  have hpublish : eventName toUpperCaseAscii (substitutedMessages false) =
      "PUBLISHINSTANCE_FROM_OPERATOR" := by decide
  have helements := (hcontent.exec_eq hs).posts false true
    ⟨hpublish, w, hw, htype.trans hpublish.symm, hstored⟩ rfl (some ["other"])
    (by rw [System.posts, hcalls]; exact List.mem_singleton_self _)
  exact absurd helements (by decide)

end I40Aas.OnboardingSkill
