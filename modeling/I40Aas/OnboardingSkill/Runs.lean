import I40Aas.OnboardingSkill.Skill

/-!
What a step can do, said once, and what every run keeps. `step_cases` splits a
step of the system into a local step of one run and a successful write;
`Run.WellFormed` is the bookkeeping of one run that all three results about the
skill (version race, deferred messages, approval) rest on. The decisive fact is
the shape of a run: it takes at most two transitions, and when it takes two the
first one enters `creatingInstance` and sends nothing.
-/

namespace I40Aas.OnboardingSkill

open I40Aas.Lib

variable {ι : Type*}

/-- The state in which a conversation is taken up: no record stands for the initial
state of the machine. -/
def storedValue (cell : Option IStateRecord) : StateValue :=
  (cell.map (·.value)).getD .waitingForOnboardingRequest

@[simp] theorem storedValue_none : storedValue none = .waitingForOnboardingRequest := rfl

@[simp] theorem storedValue_some (record : IStateRecord) :
    storedValue (some record) = record.value := rfl

/-- A run takes up the stored state with its version, unless the state is final. -/
theorem Run.resume_eq (env : Env ι) (r : ι) (ρ : Run) :
    ρ.resume env r = if (storedValue ρ.previousStateRecord).isFinal then
        { ρ.reply .notUnderstood with phase := .ended }
      else (ρ.begin env.restartsInvocation (storedValue ρ.previousStateRecord)
        (expectedVersion ρ.previousStateRecord)).send env.configuration (env.message r)
          (env.event r) := by
  unfold Run.resume
  cases ρ.previousStateRecord with
  | none => rfl
  | some record => rfl

/-- What replies do not touch holds after `send` if it holds before and after the
transition. -/
theorem Run.send_induction {P : Run → Prop} {configuration : Configuration} {message : Message}
    {event : String} {ρ : Run} (hreply : ∀ ρ answer, P ρ → P (ρ.reply answer)) (h : P ρ)
    (htransition : P (ρ.transition configuration message ⟨event, none⟩).1) :
    P (ρ.send configuration message event) := by
  unfold Run.send
  split
  · dsimp only
    split
    · exact hreply _ _ htransition
    · exact htransition
  · exact hreply _ _ h

/-- Nothing is left to happen in the run: the call has returned, the request to
create an instance has ended, and the listener has gone on after every write. -/
structure Run.Finished (ρ : Run) : Prop where
  returned : ρ.phase = .ended ∨ ρ.phase = .running
  invoking : ρ.invoking = false
  writes : ∀ w ∈ ρ.writes, w.returned = true

instance (ρ : Run) : Decidable ρ.Finished :=
  decidable_of_iff ((ρ.phase = .ended ∨ ρ.phase = .running) ∧ ρ.invoking = false ∧
    ∀ w ∈ ρ.writes, w.returned = true) ⟨fun ⟨h₁, h₂, h₃⟩ => ⟨h₁, h₂, h₃⟩,
      fun ⟨h₁, h₂, h₃⟩ => ⟨h₁, h₂, h₃⟩⟩

/-- The steps of run `r` that leave the state records alone. `cell` is the
record of its conversation. -/
inductive LocalStep (env : Env ι) (r : ι) (cell : Option IStateRecord) (ρ : Run) :
    Label ι → Run → Prop
  | applyEvent : ρ.phase = .idle →
      LocalStep env r cell ρ (.applyEvent r) { ρ with phase := .reading }
  | read : ρ.phase = .reading →
      LocalStep env r cell ρ (.read r true)
        { ρ with phase := .loaded, previousStateRecord := cell, basis := cell }
  | readFails : ρ.phase = .reading →
      LocalStep env r cell ρ (.read r false) { ρ.reply .error with phase := .ended }
  | resume : ρ.phase = .loaded → LocalStep env r cell ρ (.resume r) (ρ.resume env r)
  | createInstanceEnds (error : Option RequestError) : ρ.invoking = true →
      LocalStep env r cell ρ (.createInstanceEnds r error) (ρ.createInstanceEnds env r error)
  | updateFails {k : ℕ} {w : Write} {reachable : Bool} {status : WriteStatus} :
      ρ.writes[k]? = some w → w.status = .pending →
      (reachable = false ∧ status = .unreachable ∨
        status = .duplicateKey ∧ upsert w.filterVersion w.state cell = none) →
      LocalStep env r cell ρ (.update r k reachable) (ρ.settle k status)
  | updateReturns {k : ℕ} {w : Write} {throws : Command → Bool} :
      ρ.writes[k]? = some w → w.status ≠ .pending →
      LocalStep env r cell ρ (.updateReturns r k throws)
        (ρ.updateReturns (env.event r) k w throws)

theorem step_cases [DecidableEq ι] {env : Env ι} {s s' : System ι} {l : Label ι}
    (h : step env s l = some s') :
    (∃ r ρ, LocalStep env r (s.db (env.conversationId r)) (s.runs r) l ρ ∧
      s' = s.setRun r ρ) ∨
    ∃ r k w record, l = .update r k true ∧ (s.runs r).writes[k]? = some w ∧
      w.status = .pending ∧
      upsert w.filterVersion w.state (s.db (env.conversationId r)) = some record ∧
      s' = s.store env r k record := by
  cases l with
  | applyEvent r =>
      simp only [step, Option.ite_none_right_eq_some, Option.some.injEq] at h
      exact .inl ⟨r, _, .applyEvent h.1, h.2.symm⟩
  | read r reachable =>
      simp only [step, Option.ite_none_right_eq_some, Option.some.injEq] at h
      obtain ⟨hphase, rfl⟩ := h
      cases reachable with
      | true => exact .inl ⟨r, _, .read hphase, rfl⟩
      | false => exact .inl ⟨r, _, .readFails hphase, rfl⟩
  | resume r =>
      simp only [step, Option.ite_none_right_eq_some, Option.some.injEq] at h
      exact .inl ⟨r, _, .resume h.1, h.2.symm⟩
  | createInstanceEnds r error =>
      simp only [step, Option.ite_none_right_eq_some, Option.some.injEq] at h
      exact .inl ⟨r, _, .createInstanceEnds error h.1, h.2.symm⟩
  | update r k reachable =>
      simp only [step, Option.bind_eq_some_iff, Option.ite_none_right_eq_some] at h
      obtain ⟨w, hw, hpending, h⟩ := h
      cases reachable with
      | false =>
          obtain rfl := Option.some.inj h
          exact .inl ⟨r, _, .updateFails hw hpending (.inl ⟨rfl, rfl⟩), rfl⟩
      | true =>
          cases hup : upsert w.filterVersion w.state (s.db (env.conversationId r)) with
          | none =>
              simp only [hup, if_true, Option.some.injEq] at h
              exact .inl ⟨r, _, .updateFails hw hpending (.inr ⟨rfl, hup⟩), h.symm⟩
          | some record =>
              simp only [hup, if_true, Option.some.injEq] at h
              exact .inr ⟨r, k, w, record, rfl, hw, hpending, hup, h.symm⟩
  | updateReturns r k throws =>
      simp only [step, Option.bind_eq_some_iff, Option.ite_none_right_eq_some,
        Option.some.injEq] at h
      obtain ⟨w, hw, ⟨hstatus, -⟩, rfl⟩ := h
      exact .inl ⟨r, _, .updateReturns hw hstatus, rfl⟩

/-! ### The transition of an interpreter -/

@[simp] theorem Run.enter_writes (t : StateValue) (cs : List Command) (ρ : Run) :
    (ρ.enter t cs).writes = ρ.writes := rfl

/-- The actions of one transition either throw at once or queue something,
unless there are none. -/
theorem runActions_of_enabled {configuration : Configuration} {v w : StateValue}
    {type : String} {as : List Action} {event : Event} {message : Message}
    (h : Enabled configuration v type w as) :
    ((runActions event message as).threw = true →
        (runActions event message as).commands = [] ∧ as ≠ []) ∧
      ((runActions event message as).threw = false →
        ((runActions event message as).commands = [] ↔ as = [])) := by
  have hlen : as = [] ∨ ∃ a, as = [a] := by cases h <;> simp
  rcases hlen with rfl | ⟨a, rfl⟩
  · simp [runActions]
  · have hthrew : (a.run event message).threw = true → (a.run event message).commands = [] := by
      cases a with
      | sendResponseInstanceToOperator =>
          cases hes : message.interactionElements <;> simp [Action.run, hes]
      | sendResponseToOperatorAndRequestType =>
          cases hes : message.interactionElements <;> simp [Action.run, hes]
      | sendCreationErrorToOperator =>
          simp only [Action.run]
          split
          · simp
          · split <;> simp
      | _ => simp [Action.run]
    refine ⟨fun h => ?_, fun h => ⟨fun hnil => ?_, fun hnil => by cases hnil⟩⟩
    · by_cases ha : (a.run event message).threw = true
      · simp [runActions, ha, hthrew ha]
      · simp [runActions, ha] at h
    · exact absurd hnil (runActions_commands_ne_nil h (by simp))

/-- A transition does nothing, or throws in an action without having queued
anything, or enters the target, queues what the actions say and issues one
write. Entering `creatingInstance` never throws and queues nothing. -/
theorem Run.transition_cases (configuration : Configuration) (message : Message)
    (event : Event) (ρ : Run) :
    ρ.transition configuration message event = (ρ, false) ∨
    (∃ target as, Enabled configuration ρ.value event.type target as ∧
      target ≠ .creatingInstance ∧
      ρ.transition configuration message event = (ρ.enter target [], true)) ∨
    ∃ target as commands, Enabled configuration ρ.value event.type target as ∧
      (commands = [] ↔ as = []) ∧
      ρ.transition configuration message event =
        ((ρ.enter target commands).issueWrite event.type, false) := by
  cases hsel : select configuration ρ.value event.type with
  | none => exact .inl (by simp [Run.transition, hsel])
  | some t =>
      have hen := enabled_of_select hsel
      obtain ⟨hthrew, hok⟩ := @runActions_of_enabled _ _ _ _ _ event message hen
      by_cases ht : (runActions event message t.actions).threw = true
      · refine .inr (.inl ⟨t.target, t.actions, hen, ?_, ?_⟩)
        · rintro htarget
          rw [htarget] at hen
          exact (hthrew ht).2 hen.into_creatingInstance.1
        · simp [Run.transition, hsel, ht, (hthrew ht).1]
      · exact .inr (.inr ⟨t.target, t.actions, _, hen, hok (by simpa using ht),
          by simp [Run.transition, hsel, ht]⟩)

/-! ### The bookkeeping of a run -/

/-- What every run keeps, whatever the other runs and the database do. -/
structure Run.WellFormed (ρ : Run) : Prop where
  /-- Before the interpreter is started nothing has happened. -/
  quiet : ρ.phase ≠ .running → ρ.writes = [] ∧ ρ.invoking = false ∧
    ρ.commandCollector = [] ∧ ρ.sent = []
  /-- A closed conversation gets no interpreter. -/
  opened : ρ.phase = .running →
    ∀ record, ρ.previousStateRecord = some record → record.value.isFinal = false
  /-- `versionCounter` counts on from the version that was read. -/
  counter : ρ.phase = .running →
    ρ.versionCounter = expectedVersion ρ.previousStateRecord + ρ.writes.length
  filter : ∀ k w, ρ.writes[k]? = some w →
    w.filterVersion = expectedVersion ρ.previousStateRecord + k
  length_le : ρ.writes.length ≤ 2
  earlier : ∀ k w, ρ.writes[k]? = some w → k + 1 < ρ.writes.length →
    w.state = .creatingInstance
  /-- While `createInstance` is under way the run has written at most once and
  has nothing to say yet. -/
  invoking : ρ.invoking = true → ρ.phase = .running ∧ ρ.value = .creatingInstance ∧
    ρ.writes.length ≤ 1 ∧ (∀ w ∈ ρ.writes, w.state = .creatingInstance) ∧
    ρ.commandCollector = [] ∧ ρ.sent = []
  /-- Only the last transition of a run has queued messages. -/
  tags : ∀ c ∈ ρ.commandCollector ++ ρ.sent, c.1 + 1 = ρ.writes.length
  answered : ρ.writes.length = 2 → ρ.commandCollector ≠ [] ∨ ρ.sent ≠ []

theorem Run.wellFormed_initial : Run.initial.WellFormed := by
  constructor <;> simp [Run.initial]

/-- A run that is about to take its first or its second transition. -/
structure Run.Ready (ρ : Run) : Prop where
  running : ρ.phase = .running
  opened : ∀ record, ρ.previousStateRecord = some record → record.value.isFinal = false
  counter : ρ.versionCounter = expectedVersion ρ.previousStateRecord + ρ.writes.length
  filter : ∀ k w, ρ.writes[k]? = some w →
    w.filterVersion = expectedVersion ρ.previousStateRecord + k
  length_le : ρ.writes.length ≤ 1
  silent : ρ.commandCollector = [] ∧ ρ.sent = []
  states : ∀ w ∈ ρ.writes, w.state = .creatingInstance
  second : ρ.writes ≠ [] → ρ.value = .creatingInstance
  invoking : ρ.invoking = true → ρ.value = .creatingInstance

section Transition

variable {ρ : Run} {configuration : Configuration} {message : Message} {event : Event}
  {target : StateValue} {as : List Action} {commands : List Command}

theorem Run.Ready.wellFormed (h : ρ.Ready) : ρ.WellFormed where
  quiet hphase := absurd h.running hphase
  opened _ := h.opened
  counter _ := h.counter
  filter := h.filter
  length_le := by
    have := h.length_le
    omega
  earlier k w hw hk := by
    have := h.length_le
    omega
  invoking hinv :=
    ⟨h.running, h.invoking hinv, h.length_le, h.states, h.silent.1, h.silent.2⟩
  tags := by simp [h.silent.1, h.silent.2]
  answered hlen := by
    have := h.length_le
    omega

theorem Run.Ready.enter (h : ρ.Ready) (htarget : target ≠ .creatingInstance) :
    (ρ.enter target []).WellFormed := by
  have hwf := h.wellFormed
  refine ⟨fun hphase => absurd h.running hphase, hwf.opened, hwf.counter, hwf.filter,
    hwf.length_le, hwf.earlier, fun hinv => ?_, ?_, ?_⟩
  · simp [Run.enter, htarget] at hinv
  · simp [Run.enter, h.silent.1, h.silent.2]
  · intro hlen
    have := h.length_le
    rw [Run.enter_writes] at hlen
    omega

theorem Run.Ready.issueWrite (h : ρ.Ready)
    (hen : Enabled configuration ρ.value event.type target as)
    (hcs : commands = [] ↔ as = []) :
    ((ρ.enter target commands).issueWrite event.type).WellFormed := by
  have hlen := h.length_le
  refine ⟨fun hphase => absurd h.running hphase, fun _ => h.opened, fun _ => ?_, ?_, ?_, ?_, ?_,
    ?_, ?_⟩
  · simp [Run.issueWrite, Run.enter, h.counter, Nat.add_assoc]
  · intro k w hw
    simp only [Run.issueWrite, Run.enter] at hw ⊢
    rcases Nat.lt_trichotomy k ρ.writes.length with hk | rfl | hk
    · rw [List.getElem?_append_left hk] at hw
      exact h.filter k w hw
    · rw [List.getElem?_concat_length] at hw
      obtain rfl := Option.some.inj hw
      exact h.counter
    · rw [List.getElem?_append_right (by omega)] at hw
      simp [List.getElem?_eq_none (show [_].length ≤ k - ρ.writes.length by simp; omega)] at hw
  · simp [Run.issueWrite]
    omega
  · intro k w hw hk
    simp only [Run.issueWrite, Run.enter_writes, List.length_append, List.length_singleton] at hw hk
    rw [List.getElem?_append_left (by omega)] at hw
    exact h.states w (List.mem_of_getElem? hw)
  · intro hinv
    obtain rfl : target = .creatingInstance := by
      simpa [Run.issueWrite, Run.enter] using hinv
    have hwrites : ρ.writes = [] := by
      by_contra hne
      have hv := h.second hne
      rw [hv] at hen
      exact hen.out_of_creatingInstance.1 rfl
    have hnil := hcs.mpr hen.into_creatingInstance.1
    refine ⟨h.running, rfl, ?_, ?_, ?_, h.silent.2⟩
    · simp [Run.issueWrite, hwrites]
    · simp [Run.issueWrite, Run.enter, hwrites]
    · simp [Run.issueWrite, Run.enter, hnil, h.silent.1]
  · simp [Run.issueWrite, Run.enter, h.silent.1, h.silent.2]
  · intro hlen2
    simp only [Run.issueWrite, Run.enter_writes, List.length_append,
      List.length_singleton] at hlen2
    have hv := h.second (fun hnil => by simp [hnil] at hlen2)
    rw [hv] at hen
    have hne := mt hcs.mp hen.out_of_creatingInstance.2
    exact .inl (by simp [Run.issueWrite, Run.enter, hne])

theorem Run.Ready.transition (h : ρ.Ready) :
    (ρ.transition configuration message event).1.WellFormed := by
  rcases Run.transition_cases configuration message event ρ with
    heq | ⟨target, as, -, htarget, heq⟩ | ⟨target, as, commands, hen, hcs, heq⟩
  · rw [heq]
    exact h.wellFormed
  · rw [heq]
    exact h.enter htarget
  · rw [heq]
    exact h.issueWrite hen hcs

theorem Run.WellFormed.reply (h : ρ.WellFormed) (answer : Reply) : (ρ.reply answer).WellFormed :=
  ⟨h.quiet, h.opened, h.counter, h.filter, h.length_le, h.earlier, h.invoking, h.tags,
    h.answered⟩

theorem Run.Ready.send (h : ρ.Ready) (event : String) :
    (ρ.send configuration message event).WellFormed :=
  Run.send_induction (fun _ answer h => h.reply answer) h.wellFormed h.transition

/-- A run whose read has been answered may start its interpreter in any state
that is not final. -/
theorem Run.WellFormed.begin (h : ρ.WellFormed) (hphase : ρ.phase ≠ .running)
    (restartsInvocation : Bool) (value : StateValue)
    (hopen : ∀ record, ρ.previousStateRecord = some record → record.value.isFinal = false) :
    (ρ.begin restartsInvocation value (expectedVersion ρ.previousStateRecord)).Ready := by
  obtain ⟨hwrites, -, hcollector, hsent⟩ := h.quiet hphase
  constructor <;> simp [Run.begin, hwrites, hcollector, hsent]
  exact hopen

theorem Run.WellFormed.resume {env : Env ι} {r : ι} (h : ρ.WellFormed)
    (hphase : ρ.phase = .loaded) : (ρ.resume env r).WellFormed := by
  have hquiet := h.quiet (by simp [hphase])
  rw [Run.resume_eq]
  split
  · constructor <;> simp [Run.reply, hquiet]
  · rename_i hfinal
    have hopen : ∀ record, ρ.previousStateRecord = some record → record.value.isFinal = false := by
      intro record hrecord
      rw [hrecord, storedValue_some] at hfinal
      simpa using hfinal
    exact (h.begin (by simp [hphase]) env.restartsInvocation _ hopen).send _

/-- Changing how a write stands changes nothing in the bookkeeping. -/
theorem Run.WellFormed.modify (h : ρ.WellFormed) (k : ℕ) {f : Write → Write}
    (hf : ∀ w, (f w).filterVersion = w.filterVersion ∧ (f w).state = w.state) :
    { ρ with writes := ρ.writes.modify k f : Run }.WellFormed := by
  have hget : ∀ (j : ℕ) (w : Write), (ρ.writes.modify k f)[j]? = some w →
      ∃ w₀, ρ.writes[j]? = some w₀ ∧ w.filterVersion = w₀.filterVersion ∧ w.state = w₀.state := by
    intro j w hw
    rw [List.getElem?_modify] at hw
    obtain ⟨w₀, hw₀, rfl⟩ := Option.map_eq_some_iff.mp hw
    refine ⟨w₀, hw₀, ?_⟩
    split
    · exact hf w₀
    · exact ⟨rfl, rfl⟩
  refine ⟨fun hphase => ?_, h.opened, fun hphase => ?_, fun j w hw => ?_, ?_, fun j w hw hj => ?_,
    fun hinv => ?_, fun c hc => ?_, fun hlen => h.answered (by simpa using hlen)⟩
  · obtain ⟨hwrites, hrest⟩ := h.quiet hphase
    exact ⟨by simp [hwrites], hrest⟩
  · simpa using h.counter hphase
  · obtain ⟨w₀, hw₀, hfilter, -⟩ := hget j w hw
    exact hfilter.trans (h.filter j w₀ hw₀)
  · simpa using h.length_le
  · obtain ⟨w₀, hw₀, -, hstate⟩ := hget j w hw
    exact hstate.trans (h.earlier j w₀ hw₀ (by simpa using hj))
  · obtain ⟨hphase, hvalue, hlen, hstates, hrest⟩ := h.invoking hinv
    refine ⟨hphase, hvalue, by simpa using hlen, fun w hw => ?_, hrest⟩
    obtain ⟨j, hj⟩ := List.mem_iff_getElem?.mp hw
    obtain ⟨w₀, hw₀, -, hstate⟩ := hget j w hj
    exact hstate.trans (hstates w₀ (List.mem_of_getElem? hw₀))
  · simpa using h.tags c hc

theorem Run.WellFormed.settle (h : ρ.WellFormed) (k : ℕ) (status : WriteStatus) :
    (ρ.settle k status).WellFormed :=
  h.modify k fun _ => ⟨rfl, rfl⟩

theorem Run.WellFormed.saw (h : ρ.WellFormed) (record : IStateRecord) :
    { ρ with basis := some record : Run }.WellFormed :=
  ⟨h.quiet, h.opened, h.counter, h.filter, h.length_le, h.earlier, h.invoking, h.tags,
    h.answered⟩

/-- A commit moves messages from the collector to the plain dispatcher. -/
theorem Run.WellFormed.committed (h : ρ.WellFormed) (throws : ℕ × Command → Bool) :
    { ρ with
      commandCollector := (commit throws ρ.commandCollector).left
      sent := ρ.sent ++ (commit throws ρ.commandCollector).performed : Run }.WellFormed := by
  refine ⟨fun hphase => ?_, h.opened, h.counter, h.filter, h.length_le, h.earlier,
    fun hinv => ?_, fun c hc => h.tags c ?_, fun hlen => ?_⟩
  · obtain ⟨hwrites, hinv, hcollector, hsent⟩ := h.quiet hphase
    simp [hwrites, hinv, hcollector, hsent, commit]
  · obtain ⟨hphase, hvalue, hlen, hstates, hcollector, hsent⟩ := h.invoking hinv
    exact ⟨hphase, hvalue, hlen, hstates, by simp [hcollector, commit],
      by simp [hcollector, hsent, commit]⟩
  · simp only [List.mem_append] at hc ⊢
    rcases hc with hleft | hsent | hperformed
    · exact .inl (mem_of_mem_left hleft)
    · exact .inr hsent
    · exact .inl (mem_of_mem_performed hperformed)
  · rcases h.answered hlen with hne | hne
    · cases hcs : ρ.commandCollector with
      | nil => exact absurd hcs hne
      | cons c cs =>
          exact .inr (List.ne_nil_of_mem
            (List.mem_append_right _ (commit_performed_cons throws c cs)))
    · exact .inr (by simp [hne])

theorem Run.WellFormed.updateReturns (h : ρ.WellFormed) (event : String) (k : ℕ) (w : Write)
    (throws : Command → Bool) : (ρ.updateReturns event k w throws).WellFormed := by
  have hreturned : { ρ with
      writes := ρ.writes.modify k fun w => { w with returned := true } : Run }.WellFormed :=
    h.modify k fun _ => ⟨rfl, rfl⟩
  have hcommitted := hreturned.committed fun c => c.2 = .requestTypeFromManufacturer || throws c.2
  unfold Run.updateReturns
  dsimp only at hcommitted ⊢
  split_ifs
  · exact hcommitted.reply _
  · exact hcommitted
  · exact hcommitted
  · exact hreturned.reply _
  · exact hreturned

/-- Every local step keeps the bookkeeping. -/
theorem Run.WellFormed.step {env : Env ι} {r : ι} {cell : Option IStateRecord} {l : Label ι}
    {ρ' : Run} (h : ρ.WellFormed) (hstep : LocalStep env r cell ρ l ρ') : ρ'.WellFormed := by
  cases hstep with
  | applyEvent hphase =>
      have hquiet := h.quiet (by simp [hphase])
      constructor <;> simp [hquiet]
  | read hphase =>
      have hquiet := h.quiet (by simp [hphase])
      constructor <;> simp [hquiet]
  | readFails hphase =>
      have hquiet := h.quiet (by simp [hphase])
      constructor <;> simp [Run.reply, hquiet]
  | resume hphase => exact h.resume hphase
  | createInstanceEnds error hinv =>
      obtain ⟨hphase, hvalue, hlen, hstates, hcollector, hsent⟩ := h.invoking hinv
      exact Run.Ready.transition ⟨hphase, h.opened hphase, h.counter hphase, h.filter, hlen,
        ⟨hcollector, hsent⟩, hstates, fun _ => hvalue, fun _ => hvalue⟩
  | updateFails _ _ _ => exact h.settle _ _
  | updateReturns _ _ => exact h.updateReturns _ _ _ _

/-- A run that has written is running, so it has read. -/
theorem Run.WellFormed.running_of_write {ρ : Run} (h : ρ.WellFormed) {k : ℕ} {w : Write}
    (hw : ρ.writes[k]? = some w) : ρ.phase = .running := by
  by_contra hphase
  rw [(h.quiet hphase).1] at hw
  cases hw

end Transition

/-! ### What a local step leaves alone -/

/-- The state of write `k` of a run, once the database has stored it. -/
def Run.storedState (ρ : Run) (k : ℕ) : Option StateValue :=
  ρ.writes[k]?.bind fun w => if w.status = .stored then some w.state else none

def Run.hasRead (ρ : Run) : Prop := ρ.phase = .loaded ∨ ρ.phase = .running

section Frame

variable {env : Env ι} {r : ι} {cell : Option IStateRecord} {l : Label ι} {ρ ρ' : Run}

theorem Run.storedState_modify {k : ℕ} {f : Write → Write}
    (hf : ∀ w, ρ.writes[k]? = some w →
      (f w).state = w.state ∧ ((f w).status = .stored ↔ w.status = .stored)) :
    { ρ with writes := ρ.writes.modify k f : Run }.storedState = ρ.storedState := by
  funext j
  simp only [Run.storedState, List.getElem?_modify]
  cases hw : ρ.writes[j]? with
  | none => rfl
  | some w =>
      by_cases hkj : k = j
      · subst hkj
        obtain ⟨hstate, hstatus⟩ := hf w hw
        simp [hstate, hstatus]
      · simp [hkj]

theorem Run.storedState_issueWrite (type : String) :
    (ρ.issueWrite type).storedState = ρ.storedState := by
  funext j
  simp only [Run.storedState, Run.issueWrite]
  rcases Nat.lt_trichotomy j ρ.writes.length with hj | rfl | hj
  · rw [List.getElem?_append_left hj]
  · simp
  · rw [List.getElem?_eq_none (by simp; omega), List.getElem?_eq_none (by omega)]

theorem Run.mem_modify_writes {k : ℕ} {f : Write → Write} {w : Write}
    (h : w ∈ ρ.writes.modify k f) :
    w ∈ ρ.writes ∨ ∃ w₀, ρ.writes[k]? = some w₀ ∧ w = f w₀ := by
  obtain ⟨j, hj⟩ := List.mem_iff_getElem?.mp h
  rw [List.getElem?_modify] at hj
  obtain ⟨w₀, hw₀, rfl⟩ := Option.map_eq_some_iff.mp hj
  by_cases hkj : k = j
  · subst hkj
    exact .inr ⟨w₀, hw₀, by simp⟩
  · exact .inl (by simpa [hkj] using List.mem_of_getElem? hw₀)

/-- One of the writes is changed, and the others are as before. -/
theorem Run.mem_modify_writes_of_get {k : ℕ} {f : Write → Write} {w w' : Write}
    (hw : ρ.writes[k]? = some w) (h : w' ∈ ρ.writes.modify k f) : w' ∈ ρ.writes ∨ w' = f w := by
  rcases Run.mem_modify_writes h with h | ⟨w₀, hw₀, rfl⟩
  · exact .inl h
  · obtain rfl := Option.some.inj (hw.symm.trans hw₀)
    exact .inr rfl

theorem Run.forall_modify_writes {k : ℕ} {f : Write → Write} {P : Write → Prop}
    (hf : ∀ w, P w → P (f w)) (h : ∀ w ∈ ρ.writes, P w) :
    ∀ w ∈ ρ.writes.modify k f, P w := by
  intro w hw
  rcases Run.mem_modify_writes hw with hw | ⟨w₀, hw₀, rfl⟩
  · exact h w hw
  · exact hf w₀ (h w₀ (List.mem_of_getElem? hw₀))

/-- What an interpreter never touches: what its run has read, what is stored and
what was sent. -/
structure Run.Frame (ρ ρ' : Run) : Prop where
  previousStateRecord : ρ'.previousStateRecord = ρ.previousStateRecord
  basis : ρ'.basis = ρ.basis
  storedState : ρ'.storedState = ρ.storedState
  sent : ρ'.sent = ρ.sent

theorem Run.transition_frame (configuration : Configuration) (message : Message)
    (event : Event) (ρ : Run) :
    ρ.Frame (ρ.transition configuration message event).1 := by
  rcases Run.transition_cases configuration message event ρ with
    heq | ⟨target, as, -, -, heq⟩ | ⟨target, as, commands, -, -, heq⟩
  · rw [heq]
    exact ⟨rfl, rfl, rfl, rfl⟩
  · rw [heq]
    exact ⟨rfl, rfl, rfl, rfl⟩
  · rw [heq]
    exact ⟨rfl, rfl, Run.storedState_issueWrite _, rfl⟩

@[simp] theorem Run.transition_phase (configuration : Configuration) (message : Message)
    (event : Event) (ρ : Run) :
    (ρ.transition configuration message event).1.phase = ρ.phase := by
  rcases Run.transition_cases configuration message event ρ with
    heq | ⟨target, as, -, -, heq⟩ | ⟨target, as, commands, -, -, heq⟩ <;> rw [heq] <;> rfl

@[simp] theorem Run.send_phase (configuration : Configuration) (message : Message)
    (event : String) (ρ : Run) : (ρ.send configuration message event).phase = ρ.phase :=
  Run.send_induction (P := fun ρ' => ρ'.phase = ρ.phase) (fun _ _ h => h) rfl
    (Run.transition_phase _ _ _ ρ)

theorem Run.resume_frame (ρ : Run) (env : Env ι) (r : ι) : ρ.Frame (ρ.resume env r) := by
  rw [Run.resume_eq]
  split
  · exact ⟨rfl, rfl, rfl, rfl⟩
  · refine Run.send_induction (fun _ _ h => ⟨h.1, h.2, h.3, h.4⟩) ⟨rfl, rfl, rfl, rfl⟩ ?_
    obtain ⟨hprev, hbasis, hstored, hsent⟩ := Run.transition_frame env.configuration
      (env.message r) ⟨env.event r, none⟩ (ρ.begin env.restartsInvocation
        (storedValue ρ.previousStateRecord) (expectedVersion ρ.previousStateRecord))
    exact ⟨hprev, hbasis, hstored, hsent⟩

theorem Run.updateReturns_frame (ρ : Run) (event : String) (k : ℕ) (w : Write)
    (throws : Command → Bool) :
    let ρ' := ρ.updateReturns event k w throws
    ρ'.writes = ρ.writes.modify k (fun w => { w with returned := true }) ∧
      ρ'.phase = ρ.phase ∧ ρ'.previousStateRecord = ρ.previousStateRecord ∧
      ρ'.basis = ρ.basis ∧ ρ'.value = ρ.value ∧
      ρ'.createInstanceCalls = ρ.createInstanceCalls := by
  simp only [Run.updateReturns]
  split_ifs <;> exact ⟨rfl, rfl, rfl, rfl, rfl, rfl⟩

/-- Only a stored write makes the listener commit. -/
theorem Run.updateReturns_sent (ρ : Run) (event : String) (k : ℕ) (w : Write)
    (throws : Command → Bool) :
    (ρ.updateReturns event k w throws).sent = if w.status = .stored then
      ρ.sent ++ (commit (fun c => c.2 = .requestTypeFromManufacturer || throws c.2)
        ρ.commandCollector).performed
    else ρ.sent := by
  simp only [Run.updateReturns]
  split_ifs <;> rfl

/-- A local step stores nothing, and either it leaves alone what the run has
read or it is the read. -/
theorem LocalStep.frame (h : LocalStep env r cell ρ l ρ') (hwf : ρ.WellFormed) :
    ρ'.storedState = ρ.storedState ∧
      (ρ'.basis = ρ.basis ∧ ρ'.previousStateRecord = ρ.previousStateRecord ∧
          (ρ'.hasRead → ρ.hasRead) ∨
        ρ.writes = [] ∧ ρ'.basis = cell ∧ ρ'.previousStateRecord = cell) := by
  cases h with
  | applyEvent hphase =>
      exact ⟨rfl, .inl ⟨rfl, rfl, fun h => by rcases h with h | h <;> cases h⟩⟩
  | read hphase => exact ⟨rfl, .inr ⟨(hwf.quiet (by simp [hphase])).1, rfl, rfl⟩⟩
  | readFails hphase =>
      exact ⟨rfl, .inl ⟨rfl, rfl, fun h => by rcases h with h | h <;> cases h⟩⟩
  | resume hphase =>
      have hframe := ρ.resume_frame env r
      exact ⟨hframe.storedState,
        .inl ⟨hframe.basis, hframe.previousStateRecord, fun _ => .inl hphase⟩⟩
  | createInstanceEnds error hinv =>
      have hframe := Run.transition_frame env.configuration (env.message r)
        (createInstanceEvent error) ρ
      exact ⟨hframe.storedState,
        .inl ⟨hframe.basis, hframe.previousStateRecord, fun _ => .inr (hwf.invoking hinv).1⟩⟩
  | updateFails hw hpending hstatus =>
      refine ⟨Run.storedState_modify fun w' hw' => ⟨rfl, ?_⟩, .inl ⟨rfl, rfl, id⟩⟩
      obtain rfl := Option.some.inj (hw.symm.trans hw')
      rcases hstatus with ⟨-, rfl⟩ | ⟨rfl, -⟩ <;> simp [hpending]
  | updateReturns hw hstatus =>
      obtain ⟨hwrites, hphase, hprev, hbasis, -⟩ := ρ.updateReturns_frame (env.event r) _ _ _
      refine ⟨?_, .inl ⟨hbasis, hprev, fun h => ?_⟩⟩
      · funext j
        rw [Run.storedState, hwrites]
        exact congrFun (Run.storedState_modify (f := fun w => { w with returned := true })
          fun _ _ => ⟨rfl, Iff.rfl⟩) j
      · rwa [Run.hasRead, hphase] at h

/-- An interpreter that is started stays. -/
theorem LocalStep.running (h : LocalStep env r cell ρ l ρ') (hphase : ρ.phase = .running) :
    ρ'.phase = .running := by
  cases h with
  | applyEvent hidle => exact absurd (hphase.symm.trans hidle) (by decide)
  | read hreading => exact absurd (hphase.symm.trans hreading) (by decide)
  | readFails hreading => exact absurd (hphase.symm.trans hreading) (by decide)
  | resume hloaded => exact absurd (hphase.symm.trans hloaded) (by decide)
  | createInstanceEnds error _ => exact (Run.transition_phase _ _ _ ρ).trans hphase
  | updateFails _ _ _ => exact hphase
  | updateReturns _ _ => exact (ρ.updateReturns_frame (env.event r) _ _ _).2.1.trans hphase

/-- A local step sends nothing, unless the listener goes on after a write. -/
theorem LocalStep.sent (h : LocalStep env r cell ρ l ρ') :
    ρ'.sent = ρ.sent ∨ ∃ k w throws, l = .updateReturns r k throws ∧
      ρ.writes[k]? = some w ∧ ρ' = ρ.updateReturns (env.event r) k w throws := by
  cases h with
  | applyEvent _ => exact .inl rfl
  | read _ => exact .inl rfl
  | readFails _ => exact .inl rfl
  | resume _ => exact .inl (ρ.resume_frame env r).sent
  | createInstanceEnds error _ =>
      exact .inl (Run.transition_frame env.configuration (env.message r)
        (createInstanceEvent error) ρ).sent
  | updateFails _ _ _ => exact .inl rfl
  | updateReturns hw _ => exact .inr ⟨_, _, _, rfl, hw, rfl⟩

theorem Run.storedState_settle_stored {k : ℕ} {w : Write} (hw : ρ.writes[k]? = some w) (j : ℕ) :
    (ρ.settle k .stored).storedState j = if j = k then some w.state else ρ.storedState j := by
  simp only [Run.storedState, Run.settle, List.getElem?_modify]
  by_cases hj : j = k
  · subst hj
    simp [hw]
  · simp [hj, Ne.symm hj]

theorem Run.storedState_ne_none_iff {k : ℕ} :
    ρ.storedState k ≠ none ↔ ∃ w, ρ.writes[k]? = some w ∧ w.status = .stored := by
  rw [Option.ne_none_iff_exists', Run.storedState]
  constructor
  · rintro ⟨v, hv⟩
    obtain ⟨w, hw, hstored⟩ := Option.bind_eq_some_iff.mp hv
    exact ⟨w, hw, (Option.ite_none_right_eq_some.mp hstored).1⟩
  · rintro ⟨w, hw, hstored⟩
    exact ⟨w.state, by simp [hw, hstored]⟩

end Frame

section System

variable [DecidableEq ι]

@[simp] theorem System.setRun_db (s : System ι) (r : ι) (ρ : Run) : (s.setRun r ρ).db = s.db := rfl

theorem System.setRun_runs (s : System ι) (r : ι) (ρ : Run) (q : ι) :
    (s.setRun r ρ).runs q = if q = r then ρ else s.runs q := by
  by_cases h : q = r
  · subst h
    simp [System.setRun]
  · simp [System.setRun, h]

theorem System.store_runs (s : System ι) (env : Env ι) (r : ι) (k : ℕ) (record : IStateRecord)
    (q : ι) : (s.store env r k record).runs q =
      if q = r then { (s.runs r).settle k .stored with basis := some record } else s.runs q := by
  by_cases h : q = r
  · subst h
    simp [System.store]
  · simp [System.store, h]

theorem System.store_db (s : System ι) (env : Env ι) (r : ι) (k : ℕ) (record : IStateRecord)
    (conversationId : String) : (s.store env r k record).db conversationId =
      if conversationId = env.conversationId r then some record else s.db conversationId := by
  simp [System.store, Function.update_apply]

def System.WellFormed (s : System ι) : Prop := ∀ r, (s.runs r).WellFormed

theorem System.WellFormed.step {env : Env ι} {s s' : System ι} {l : Label ι} (h : s.WellFormed)
    (hstep : step env s l = some s') : s'.WellFormed := by
  intro q
  rcases step_cases hstep with ⟨r, ρ, hlocal, rfl⟩ | ⟨r, k, w, record, -, -, -, -, rfl⟩
  · rw [System.setRun_runs]
    split
    · exact (h r).step hlocal
    · exact h q
  · rw [System.store_runs]
    split
    · exact ((h r).settle k .stored).saw _
    · exact h q

end System

end I40Aas.OnboardingSkill
