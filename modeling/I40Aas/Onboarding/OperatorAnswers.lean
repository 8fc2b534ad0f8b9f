import I40Aas.Onboarding.Network

/-!
What the operator can rely on. Whatever the order of the steps of the skill, of the data
manager and of everybody else: an operator who is sent the submodel was sent it after all
submodels of the message had been stored where the registry had named an adapter for them,
and one who is told that the request was refused or not understood has none of them stored.
-/

namespace I40Aas.Onboarding

open I40Aas.Lib I40Aas.OnboardingSkill

variable {ι κ : Type*} {env : Env ι κ} {r : ι}

/-! ### One command -/

/-- What a command of a run says about its request, which is in this phase. -/
def Tells (env : Env ι κ) (r : ι) (calls : ℕ) (phase : DataManager.Phase) : Command → Prop
  | .sendResponseInstanceToOperator submodel =>
      (∃ status, phase = .answered status ∧ status < 300) ∧
        submodel = (env.message r).interactionElements.bind List.head?
  | .sendNotUnderstoodToOperator => phase = .answered 400
  | .sendRequestRefusedToOperator =>
      phase = .answered 401 ∨ calls = 0 ∧ eventName env.toUpperCase (env.message r) ∈ refusals
  | _ => True

theorem Tells.mono {calls calls' : ℕ} {phase phase' : DataManager.Phase} {c : Command}
    (h : Tells env r calls phase c) (hcalls : calls = 0 → calls' = 0)
    (hphase : ∀ status, phase = .answered status → phase' = .answered status) :
    Tells env r calls' phase' c := by
  cases c with
  | sendResponseInstanceToOperator submodel =>
      obtain ⟨⟨status, hanswered, hstatus⟩, hsubmodel⟩ := h
      exact ⟨⟨status, hphase status hanswered, hstatus⟩, hsubmodel⟩
  | sendNotUnderstoodToOperator => exact hphase 400 h
  | sendRequestRefusedToOperator =>
      exact h.imp (hphase 401) fun ⟨hzero, hrefusal⟩ => ⟨hcalls hzero, hrefusal⟩
  | _ => trivial

theorem eventName_ne_failed (toUpperCase : String → String) (message : Message) :
    eventName toUpperCase message ≠ createInstanceFailed := by
  intro h
  have hmem : '_' ∈ (eventName toUpperCase message).toList := by
    simp [eventName, String.toList_append]
  rw [h] at hmem
  exact absurd hmem (by decide)

theorem tells_of_caused {l : OnboardingSkill.Label ι} {event : Event} {calls : ℕ}
    {phase : DataManager.Phase} {c : Command} (hsends : Sends env.skill r l event)
    (hlearns : ∀ error, l = .createInstanceEnds r error → learns phase error = true)
    (hcaused : c.Caused (env.message r) event calls) : Tells env r calls phase c := by
  cases hsends with
  | event =>
      have hdone := eventName_ne env.toUpperCase (env.message r)
      have hfailed := eventName_ne_failed env.toUpperCase (env.message r)
      cases c with
      | sendResponseInstanceToOperator submodel => exact absurd hcaused.1 hdone
      | sendNotUnderstoodToOperator => exact absurd hcaused.1 hfailed
      | sendRequestRefusedToOperator =>
          rcases hcaused with ⟨hno, -⟩ | ⟨hrefusal, hzero⟩
          · exact absurd hno hfailed
          · exact .inr ⟨hzero, hrefusal⟩
      | _ => trivial
  | createInstanceEvent error =>
      have hlearned := hlearns error rfl
      cases error with
      | none =>
          cases c with
          | sendResponseInstanceToOperator submodel =>
              refine ⟨?_, hcaused.2⟩
              unfold learns at hlearned
              dsimp only at hlearned
              split at hlearned
              · rename_i status
                exact ⟨status, rfl, (of_decide_eq_true hlearned).2⟩
              · cases hlearned
          | sendNotUnderstoodToOperator => exact absurd hcaused.1 (by decide)
          | sendRequestRefusedToOperator =>
              rcases hcaused with ⟨hno, -⟩ | ⟨hno, -⟩ <;> exact absurd hno (by decide)
          | _ => trivial
      | some error =>
          have hanswered : ∀ status, error = ⟨some status⟩ → phase = .answered status := by
            rintro status rfl
            exact (of_decide_eq_true hlearned).1
          have hne : createInstanceFailed ≠ createInstanceDone := by decide
          cases c with
          | sendResponseInstanceToOperator submodel => exact absurd hcaused.1 hne
          | sendNotUnderstoodToOperator => exact hanswered 400 (Option.some.inj hcaused.2)
          | sendRequestRefusedToOperator =>
              rcases hcaused with ⟨-, hdata⟩ | ⟨hno, -⟩
              · exact .inl (hanswered 401 (Option.some.inj hdata))
              · exact absurd hno (by decide : createInstanceFailed ∉ refusals)
          | _ => trivial

/-! ### All runs -/

/-- What every step of the two keeps. -/
structure State.Sound (env : Env ι κ) (s : State ι κ) : Prop where
  wellFormed : s.skill.WellFormed
  callsOnce : ∀ r, (s.skill.runs r).CallsOnce
  manager : s.manager.Sound env.manager
  /-- Only what was called can have arrived. -/
  posted : ∀ r, (s.manager.requests r).phase ≠ .idle → 0 < (s.skill.runs r).createInstanceCalls
  tells : ∀ r, ∀ c ∈ (s.skill.runs r).commandCollector ++ (s.skill.runs r).sent,
    Tells env r (s.skill.runs r).createInstanceCalls (s.manager.requests r).phase c.2

theorem State.sound_initial (env : Env ι κ) (records : String → Option IStateRecord)
    (storage : AdapterRegistry.Storage) (db : κ → StorageAdapter.Collection) :
    (State.initial records storage db).Sound env where
  wellFormed _ := Run.wellFormed_initial
  callsOnce _ := Run.callsOnce_initial
  manager := DataManager.State.sound_initial _ storage db
  posted _ hno := absurd rfl hno
  tells _ _ hc := by cases hc

section Step

variable [DecidableEq ι] {s s' : State ι κ}

/-- A step of the skill. -/
theorem State.Sound.skill (h : s.Sound env) {l : OnboardingSkill.Label ι}
    (hstep : OnboardingSkill.step env.skill s.skill l = some s'.skill)
    (hmanager : s'.manager = s.manager)
    (hlearns : ∀ r error, l = .createInstanceEnds r error →
      learns (s.manager.requests r).phase error = true) : s'.Sound env := by
  refine ⟨h.wellFormed.step hstep, fun q => ?_, hmanager ▸ h.manager, fun q hphase => ?_,
    fun q c hc => ?_⟩
  · rcases step_run hstep q with ⟨cell, hlocal⟩ | hsame
    · exact (h.callsOnce q).step (h.wellFormed q) hlocal
    · exact (h.callsOnce q).same hsame
  · have hpos := h.posted q (hmanager ▸ hphase)
    rcases step_run hstep q with ⟨cell, hlocal⟩ | hsame
    · exact Nat.lt_of_lt_of_le hpos hlocal.calls_le
    · rwa [hsame.calls]
  · rw [hmanager]
    rcases step_run hstep q with ⟨cell, hlocal⟩ | hsame
    · rcases hlocal.caused (h.callsOnce q) (h.wellFormed q) hc with hold | ⟨event, hsends, hcaused⟩
      · have hrunning : (s.skill.runs q).phase = .running := by
          by_contra hno
          obtain ⟨-, -, hcollector, hsent⟩ := h.wellFormed q |>.quiet hno
          simp [hcollector, hsent] at hold
        exact (h.tells q c hold).mono (hlocal.calls_eq_zero (h.callsOnce q) hrunning) fun _ => id
      · exact tells_of_caused hsends (hlearns q) hcaused
    · rw [hsame.commandCollector, hsame.sent] at hc
      rw [hsame.calls]
      exact h.tells q c hc

variable [DecidableEq κ]

/-- A step of the data manager and of its neighbours. -/
theorem State.Sound.ofManager (h : s.Sound env) {l : DataManager.Label ι κ}
    (hstep : DataManager.step env.manager s.manager l = some s'.manager)
    (hskill : s'.skill = s.skill)
    (hposts : ∀ r, l = .postSubmodels r → 0 < (s.skill.runs r).createInstanceCalls) :
    s'.Sound env := by
  refine ⟨hskill ▸ h.wellFormed, hskill ▸ h.callsOnce, h.manager.step hstep, fun q hphase => ?_,
    fun q c hc => ?_⟩
  · rw [hskill]
    by_cases hidle : (s.manager.requests q).phase = .idle
    · exact hposts q (DataManager.eq_postSubmodels_of_step h.manager hstep hidle hphase)
    · exact h.posted q hidle
  · rw [hskill] at hc ⊢
    exact (h.tells q c hc).mono id fun _ => DataManager.answered_of_step hstep

theorem State.Sound.step {l : Label ι κ} (h : s.Sound env) (hstep : step env s l = some s') :
    s'.Sound env := by
  obtain ⟨hallows, ⟨a, rfl, hskill, hmanager⟩ | ⟨a, rfl, hmanager, hskill⟩⟩ := step_cases hstep
  · refine h.skill hskill hmanager ?_
    rintro r error rfl
    exact hallows
  · refine h.ofManager hmanager hskill ?_
    rintro r rfl
    exact of_decide_eq_true hallows

end Step

section Runs

variable [DecidableEq ι] [DecidableEq κ] {s : State ι κ} {records : String → Option IStateRecord}
  {storage : AdapterRegistry.Storage} {db : κ → StorageAdapter.Collection}
  {ls : List (Label ι κ)}

theorem sound_of_exec (hexec : exec (step env) (.initial records storage db) ls = some s) :
    s.Sound env :=
  (along_of_invariant (fun _ _ _ h hstep => h.step hstep)
    (State.sound_initial env records storage db) ls).exec_eq hexec

/-- An operator is sent a submodel, or is about to be, only when the message has submodels, of
which this is the first, and each of them was stored in the database of the adapter that the
registry had named for it before. -/
theorem stored_of_response (hexec : exec (step env) (.initial records storage db) ls = some s)
    {c : ℕ × Command}
    (hc : c ∈ (s.skill.runs r).commandCollector ++ (s.skill.runs r).sent)
    {submodel : Option String} (hresponse : c.2.response = some submodel) :
    ∃ elements, (env.message r).interactionElements = some elements ∧ elements ≠ [] ∧
      submodel = elements.head? ∧ ∀ element ∈ elements, ∃ url, Then (step env)
        (fun t => DataManager.Registered (env.submodel element) url t.manager.storage)
        (fun t => DataManager.Stored env.manager (env.submodel element) url t.manager)
        (.initial records storage db) ls := by
  have htells := (sound_of_exec hexec).tells r c hc
  have hcommand : c.2 = .sendResponseInstanceToOperator submodel := by
    cases hcommand : c.2 <;> rw [hcommand] at hresponse <;> cases hresponse
    rfl
  rw [hcommand] at htells
  obtain ⟨⟨status, hanswered, hstatus⟩, hsubmodel⟩ := htells
  have hmanager := (hasPart_manager env).exec hexec
  obtain ⟨hrefusal, hstored⟩ :=
    DataManager.hasStored_of_answered hmanager hanswered (Nat.lt_trans hstatus (by decide))
  obtain ⟨hbody, hne⟩ := DataManager.Env.submodels_ne_nil hrefusal
  obtain ⟨elements, helements, hmap⟩ := Option.map_eq_some_iff.mp hbody
  refine ⟨elements, helements, ?_, by rw [hsubmodel, helements]; rfl, fun element hmem => ?_⟩
  · rintro rfl
    exact hne hmap.symm
  · obtain ⟨i, hi⟩ := List.mem_iff_getElem?.mp hmem
    have hsubmodel : (env.manager.submodels r)[i]? = some (env.submodel element) := by
      rw [← hmap, List.getElem?_map, hi]
      rfl
    obtain ⟨url, hurl⟩ := hstored i _ hsubmodel
    exact ⟨url, (hasPart_manager env).then hexec
      (DataManager.then_of_hasStored hmanager hsubmodel hurl)⟩

/-- A request that was turned away or has not arrived is never posted to an adapter. -/
theorem not_posted_of_tasks (hexec : exec (step env) (.initial records storage db) ls = some s)
    (htasks : (s.manager.requests r).tasks = []) (i : ℕ) :
    Label.manager (.postSubmodel r i) ∉ ls := by
  refine (notMem_of_exec_eq (I := State.Sound env)
    (P := fun t => (t.manager.requests r).tasks = []) (fun _ _ _ h hstep => h.step hstep)
    (fun t l t' h hstep hnil => ?_) (fun t t' h hstep hnil => ?_)
    (State.sound_initial env records storage db) hexec htasks).2
  · obtain ⟨-, ⟨a, rfl, -, hmanager⟩ | ⟨a, rfl, hmanager, -⟩⟩ := step_cases hstep
    · rwa [← hmanager]
    · exact DataManager.tasks_eq_nil_of_step h.manager hmanager hnil
  · obtain ⟨-, ⟨a, heq, -⟩ | ⟨a, heq, hmanager, -⟩⟩ := step_cases hstep
    · cases heq
    · cases heq
      obtain ⟨task, htask⟩ := DataManager.task_of_postSubmodel hmanager
      rw [hnil] at htask
      cases htask

/-- An operator who is told that the message was not understood or refused has none of its
submodels posted to an adapter, and is told so only for a message without interaction elements,
and for a refusal by the approver or by the data manager. -/
theorem not_posted_of_refused
    (hexec : exec (step env) (.initial records storage db) ls = some s) {c : ℕ × Command}
    (hc : c ∈ (s.skill.runs r).commandCollector ++ (s.skill.runs r).sent)
    (hrefused : c.2 = .sendNotUnderstoodToOperator ∨ c.2 = .sendRequestRefusedToOperator) :
    (∀ i, Label.manager (.postSubmodel r i) ∉ ls) ∧
      (c.2 = .sendNotUnderstoodToOperator → (env.message r).interactionElements = none) ∧
      (c.2 = .sendRequestRefusedToOperator → env.authorized r = false ∨
        eventName env.toUpperCase (env.message r) ∈ refusals) := by
  have hsound := sound_of_exec hexec
  have htells := hsound.tells r c hc
  have hmanager := (hasPart_manager env).exec hexec
  have hanswered : ∀ status, 400 ≤ status → status < 500 →
      (s.manager.requests r).phase = .answered status →
        env.manager.refusal r = some status ∧ (s.manager.requests r).tasks = [] := by
    intro status hge hlt h
    cases hrefusal : env.manager.refusal r with
    | some refusal =>
        obtain ⟨htasks, heq⟩ := DataManager.tasks_of_refusal hmanager hrefusal
        rw [heq status h]
        exact ⟨rfl, htasks⟩
    | none =>
        rcases (hsound.manager r).answered status hrefusal h with ⟨rfl, -⟩ | ⟨rfl, -⟩ <;> omega
  rcases hrefused with heq | heq <;> rw [heq] at htells ⊢
  · obtain ⟨hrefusal, htasks⟩ := hanswered 400 (by decide) (by decide) htells
    refine ⟨not_posted_of_tasks hexec htasks, fun _ => ?_, fun hno => by cases hno⟩
    have hbody : env.manager.body r = none := by simpa using DataManager.Env.refusal_cases hrefusal
    exact Option.map_eq_none_iff.mp hbody
  · rcases htells with h | ⟨hzero, hevent⟩
    · obtain ⟨hrefusal, htasks⟩ := hanswered 401 (by decide) (by decide) h
      have hauthorized : env.manager.authorized r = false := by
        simpa using DataManager.Env.refusal_cases hrefusal
      exact ⟨not_posted_of_tasks hexec htasks, (fun hno => by cases hno),
        fun _ => .inl hauthorized⟩
    · have hidle : (s.manager.requests r).phase = .idle := by
        by_contra hno
        have hpos := hsound.posted r hno
        omega
      exact ⟨not_posted_of_tasks hexec ((hsound.manager r).idle hidle),
        (fun hno => by cases hno), fun _ => .inr hevent⟩

end Runs

/-! An operator's message with one submodel, which may be refused, and one without interaction
elements. -/

def publishMessage (interactionElements : Option (List String)) : Message :=
  ⟨"publishInstance", "Operator", "conversation", interactionElements⟩

def publishEnv (authorized : Bool) (interactionElements : Option (List String)) :
    Env Unit Unit where
  toUpperCase := toUpperCaseAscii
  configuration := ⟨false, false⟩
  restartsInvocation := false
  message _ := publishMessage interactionElements
  submodel _ := DataManager.motor
  fits _ := true
  authorized _ := authorized
  md5 := id
  host _ := ()

def publishSchedule : List (Label Unit Unit) :=
  [.skill (.applyEvent ()), .skill (.read () true), .skill (.resume ())] ++
    DataManager.motorSchedule.map .manager ++ [.skill (.createInstanceEnds () none)]

def publishEnd (authorized : Bool) (interactionElements : Option (List String))
    (ls : List (Label Unit Unit)) : Option (List (ℕ × Command)) :=
  (exec (step (publishEnv authorized interactionElements))
    (.initial (fun _ => none) .empty fun _ => ∅) ls).map fun s => (s.skill.runs ()).commandCollector

theorem stored_of_response_motor : ∃ url,
    Then (step (publishEnv true (some [DataManager.motorText])))
      (fun t => DataManager.Registered DataManager.motor url t.manager.storage)
      (fun t => DataManager.Stored (publishEnv true (some [DataManager.motorText])).manager
        DataManager.motor url t.manager)
      (.initial (fun _ => none) .empty fun _ => ∅) publishSchedule := by
  have hend : publishEnd true (some [DataManager.motorText]) publishSchedule =
      some [(1, .sendResponseInstanceToOperator (some DataManager.motorText))] := by decide
  obtain ⟨s, hexec, hcollector⟩ := Option.map_eq_some_iff.mp hend
  have hc : (1, .sendResponseInstanceToOperator (some DataManager.motorText)) ∈
      (s.skill.runs ()).commandCollector ++ (s.skill.runs ()).sent := by
    rw [hcollector]
    exact List.mem_append_left _ (List.mem_singleton_self _)
  obtain ⟨elements, helements, -, -, hstored⟩ := stored_of_response hexec hc rfl
  obtain rfl := Option.some.inj helements
  exact hstored DataManager.motorText (List.mem_singleton_self _)

/-- The data manager answers with an error status. -/
def refusedSchedule (status : ℕ) : List (Label Unit Unit) :=
  [.skill (.applyEvent ()), .skill (.read () true), .skill (.resume ()),
    .manager (.postSubmodels ()), .skill (.createInstanceEnds () (some ⟨some status⟩))]

/-- The submodel of somebody who is not authorized, and a message without elements. -/
theorem not_posted_of_refused_motor :
    (publishEnd false (some [DataManager.motorText]) (refusedSchedule 401) =
        some [(1, .sendRequestRefusedToOperator)] ∧
      ∀ i, Label.manager (.postSubmodel () i) ∉ refusedSchedule 401) ∧
    publishEnd true none (refusedSchedule 400) = some [(1, .sendNotUnderstoodToOperator)] ∧
      ∀ i, Label.manager (.postSubmodel () i) ∉ refusedSchedule 400 := by
  have hnever : ∀ authorized elements status command,
      publishEnd authorized elements (refusedSchedule status) = some [(1, command)] →
      command = .sendNotUnderstoodToOperator ∨ command = .sendRequestRefusedToOperator →
      ∀ i, Label.manager (.postSubmodel () i) ∉ refusedSchedule status := by
    intro authorized elements status command hend hrefused
    obtain ⟨s, hexec, hcollector⟩ := Option.map_eq_some_iff.mp hend
    have hc : (1, command) ∈ (s.skill.runs ()).commandCollector ++ (s.skill.runs ()).sent := by
      rw [hcollector]
      exact List.mem_append_left _ (List.mem_singleton_self _)
    exact (not_posted_of_refused hexec hc hrefused).1
  have hunauthorized : publishEnd false (some [DataManager.motorText]) (refusedSchedule 401) =
      some [(1, .sendRequestRefusedToOperator)] := by decide
  have hempty : publishEnd true none (refusedSchedule 400) =
      some [(1, .sendNotUnderstoodToOperator)] := by decide
  exact ⟨⟨hunauthorized, hnever _ _ _ _ hunauthorized (.inr rfl)⟩, hempty,
    hnever _ _ _ _ hempty (.inl rfl)⟩

end I40Aas.Onboarding
