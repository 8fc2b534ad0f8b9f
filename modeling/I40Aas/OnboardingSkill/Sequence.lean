import I40Aas.OnboardingSkill.Runs

/-!
The messages of one conversation, one after another, against one uninterrupted run
of the machine. Every message gets an interpreter of its own, which is restored from
the stored state and gone when the run is over; what links two messages is the state
record alone. The uninterrupted run is told the same events: those of the messages
and the outcomes of `createInstance`, in the order in which they come.
-/

namespace I40Aas.OnboardingSkill

open I40Aas.Lib

variable {ι : Type*}

/-- The state after an event; one that is not enabled is skipped. -/
def advance (configuration : Configuration) (v : StateValue) (type : String) : StateValue :=
  match select configuration v type with
  | none => v
  | some t => t.target

/-- The state in which one uninterrupted run of the machine has dealt with `events`. -/
def runMachine (configuration : Configuration) (events : List String) : StateValue :=
  events.foldl (advance configuration) .waitingForOnboardingRequest

@[simp] theorem runMachine_nil (configuration : Configuration) :
    runMachine configuration [] = .waitingForOnboardingRequest := rfl

theorem runMachine_append (configuration : Configuration) (events later : List String) :
    runMachine configuration (events ++ later) =
      later.foldl (advance configuration) (runMachine configuration events) :=
  List.foldl_append

theorem advance_of_final {configuration : Configuration} {v : StateValue} (type : String)
    (h : v.isFinal = true) : advance configuration v type = v := by
  unfold advance
  split
  · rfl
  · rename_i t ht
    have hopen := (enabled_of_select ht).not_final
    rw [h] at hopen
    cases hopen

theorem advance_of_not_declared {configuration : Configuration} {v : StateValue} {type : String}
    (h : type ∉ declaredEvents) : advance configuration v type = v := by
  unfold advance
  split
  · rfl
  · rename_i t ht
    exact absurd (mem_declaredEvents_of_select ht) h

/-- One conversation of the system: the run of the message that is being handled, and
the events the machine has been told. -/
structure Conversation (ι : Type*) where
  system : System ι
  current : Option ι
  events : List String

def Conversation.initial (db : String → Option IStateRecord) : Conversation ι where
  system := System.initial db
  current := none
  events := []

/-- The event the interpreter of a run is told by a step. -/
def Label.event (env : Env ι) : Label ι → Option String
  | .resume r => some (env.event r)
  | .createInstanceEnds _ error => some (createInstanceEvent error).type
  | _ => none

/-- No message is being handled. -/
def Conversation.Quiet (c : Conversation ι) : Prop :=
  ∀ r, c.current = some r → (c.system.runs r).Finished

instance (c : Conversation ι) : Decidable c.Quiet :=
  match h : c.current with
  | none => .isTrue fun r hr => by rw [h] at hr; cases hr
  | some r => decidable_of_iff (c.system.runs r).Finished
      ⟨fun hr q hq => by rw [h] at hq; cases hq; exact hr, fun hc => hc r h⟩

section Step

variable [DecidableEq ι]

/-- A message of the conversation is taken up when the one before it is finished, and
every operation of the database succeeds. -/
def Conversation.admits (env : Env ι) (conversation : String) (c : Conversation ι) :
    Label ι → Bool
  | .applyEvent r => env.conversationId r = conversation && decide c.Quiet
  | .read r reachable => c.current = some r && reachable
  | .update r k reachable => c.current = some r && reachable &&
      (c.system.runs r).writes[k]?.all fun w =>
        (upsert w.filterVersion w.state (c.system.db (env.conversationId r))).isSome
  | .resume r | .createInstanceEnds r _ | .updateReturns r _ _ => c.current = some r

def Conversation.step (env : Env ι) (conversation : String) (c : Conversation ι) (l : Label ι) :
    Option (Conversation ι) :=
  if c.admits env conversation l then
    (OnboardingSkill.step env c.system l).map fun s =>
      { system := s, current := some l.run, events := c.events ++ (l.event env).toList }
  else none

end Step

/-- `createInstance` has resolved for a message without interaction elements. -/
def Throws (env : Env ι) : Label ι → Prop
  | .createInstanceEnds r none => (env.message r).interactionElements = none
  | _ => False

/-! ### What the record of a conversation stands for -/

/-- The state a run has written last, or the one it has taken up. -/
def Run.lastState (ρ : Run) : StateValue :=
  (ρ.writes.getLast?.map (·.state)).getD (storedValue ρ.previousStateRecord)

/-- The record is the one of the latest write that is stored, or the one the run has
read. -/
structure Run.Recorded (ρ : Run) (cell : Option IStateRecord) : Prop where
  settled : ∀ w ∈ ρ.writes, w.status = .pending ∧ w.returned = false ∨ w.status = .stored
  latest : ρ.hasRead →
    (∀ w ∈ ρ.writes, w.status = .pending) ∧ cell = ρ.previousStateRecord ∨
    ∃ (k : ℕ) (w : Write), ρ.writes[k]? = some w ∧ w.status = .stored ∧
      (∀ (j : ℕ) (w' : Write), k < j → ρ.writes[j]? = some w' → w'.status = .pending) ∧
      cell = some ⟨w.filterVersion + 1, w.state⟩

section Recorded

variable {env : Env ι} {r : ι} {cell : Option IStateRecord} {l : Label ι} {ρ ρ' : Run}

theorem Run.Recorded.of_eq (h : ρ.Recorded cell) (hwrites : ρ'.writes = ρ.writes)
    (hprev : ρ'.previousStateRecord = ρ.previousStateRecord) (hread : ρ'.hasRead → ρ.hasRead) :
    ρ'.Recorded cell := by
  constructor
  · rw [hwrites]
    exact h.settled
  · rw [hwrites, hprev]
    exact fun hphase => h.latest (hread hphase)

/-- A run that has not written yet has nothing to do with the record. -/
theorem Run.Recorded.of_not_hasRead (hwrites : ρ.writes = []) (hread : ¬ ρ.hasRead) :
    ρ.Recorded cell :=
  ⟨by simp [hwrites], fun h => absurd h hread⟩

theorem Run.Recorded.issueWrite (h : ρ.Recorded cell) (type : String) :
    (ρ.issueWrite type).Recorded cell := by
  constructor
  · intro w hw
    rcases List.mem_append.mp hw with hw | hw
    · exact h.settled w hw
    · obtain rfl := List.mem_singleton.mp hw
      exact .inl ⟨rfl, rfl⟩
  · intro hread
    rcases h.latest hread with ⟨hpending, hcell⟩ | ⟨k, w, hw, hstored, hlater, hcell⟩
    · refine .inl ⟨fun w hw => ?_, hcell⟩
      rcases List.mem_append.mp hw with hw | hw
      · exact hpending w hw
      · obtain rfl := List.mem_singleton.mp hw
        rfl
    · have hk := (List.getElem?_eq_some_iff.mp hw).1
      refine .inr ⟨k, w, ?_, hstored, fun j w' hj hw' => ?_, hcell⟩
      · change (ρ.writes ++ [_])[k]? = some w
        rw [List.getElem?_append_left hk]
        exact hw
      · change (ρ.writes ++ [_])[j]? = some w' at hw'
        rcases Nat.lt_trichotomy j ρ.writes.length with hlt | rfl | hlt
        · rw [List.getElem?_append_left hlt] at hw'
          exact hlater j w' hj hw'
        · rw [List.getElem?_concat_length] at hw'
          obtain rfl := Option.some.inj hw'
          rfl
        · rw [List.getElem?_eq_none (by simp; omega)] at hw'
          cases hw'

theorem Run.Recorded.transition (h : ρ.Recorded cell) (configuration : Configuration)
    (message : Message) (event : Event) :
    (ρ.transition configuration message event).1.Recorded cell := by
  have henter : ∀ target commands, (ρ.enter target commands).Recorded cell :=
    fun target commands => h.of_eq rfl rfl id
  rcases Run.transition_cases configuration message event ρ with
    heq | ⟨target, as, -, -, heq⟩ | ⟨target, as, commands, -, -, heq⟩
  · rw [heq]
    exact h
  · rw [heq]
    exact henter target []
  · rw [heq]
    exact (henter target commands).issueWrite event.type

theorem Run.Recorded.resume (h : ρ.Recorded cell) (hphase : ρ.phase = .loaded) :
    (ρ.resume env r).Recorded cell := by
  rw [Run.resume_eq]
  split
  · exact h.of_eq rfl rfl fun hread => by rcases hread with hread | hread <;> cases hread
  · have hbegin : (ρ.begin env.restartsInvocation (storedValue ρ.previousStateRecord)
        (expectedVersion ρ.previousStateRecord)).Recorded cell :=
      h.of_eq rfl rfl fun _ => .inl hphase
    exact Run.send_induction (P := fun ρ => ρ.Recorded cell)
      (fun ρ answer h => h.of_eq rfl rfl id) hbegin (hbegin.transition _ _ _)

theorem Run.Recorded.updateReturns (h : ρ.Recorded cell) {k : ℕ} {w : Write}
    (hw : ρ.writes[k]? = some w) (hsettled : w.status ≠ .pending) (event : String)
    (throws : Command → Bool) : (ρ.updateReturns event k w throws).Recorded cell := by
  obtain ⟨hwrites, hphase, hprev, -⟩ := ρ.updateReturns_frame event k w throws
  have hget : ∀ (j : ℕ) (w' : Write), (ρ.updateReturns event k w throws).writes[j]? = some w' →
      ∃ w₀, ρ.writes[j]? = some w₀ ∧ w'.status = w₀.status := by
    intro j w' hw'
    rw [hwrites, List.getElem?_modify] at hw'
    obtain ⟨w₀, hw₀, rfl⟩ := Option.map_eq_some_iff.mp hw'
    exact ⟨w₀, hw₀, by split <;> rfl⟩
  constructor
  · intro w' hw'
    rw [hwrites] at hw'
    rcases Run.mem_modify_writes_of_get hw hw' with hw' | rfl
    · exact h.settled w' hw'
    · exact .inr ((h.settled w (List.mem_of_getElem? hw)).resolve_left fun hp => hsettled hp.1)
  · intro hread
    rw [Run.hasRead, hphase] at hread
    rw [hprev]
    rcases h.latest hread with ⟨hpending, -⟩ | ⟨i, w', hw', hstored, hlater, hcell⟩
    · exact absurd (hpending w (List.mem_of_getElem? hw)) hsettled
    · refine .inr ⟨i, if k = i then { w' with returned := true } else w', ?_, ?_, ?_, ?_⟩
      · rw [hwrites, List.getElem?_modify, hw']
        split <;> rfl
      · split <;> exact hstored
      · intro j w'' hj hw''
        obtain ⟨w₀, hw₀, hstatus⟩ := hget j w'' hw''
        exact hstatus.trans (hlater j w₀ hj hw₀)
      · rw [hcell]
        split <;> rfl

/-- As long as no operation of the database fails, every step but a write keeps this. -/
theorem Run.Recorded.step (h : ρ.Recorded cell) (hwf : ρ.WellFormed)
    (hread : l ≠ .read r false) (hupdate : ∀ k reachable, l ≠ .update r k reachable)
    (hstep : LocalStep env r cell ρ l ρ') : ρ'.Recorded cell := by
  cases hstep with
  | applyEvent hphase =>
      refine .of_not_hasRead (hwf.quiet (by simp [hphase])).1 fun hread => ?_
      rcases hread with hread | hread <;> cases hread
  | read hphase =>
      have hnil := (hwf.quiet (by simp [hphase])).1
      exact ⟨by simp [hnil], fun _ => .inl ⟨by simp [hnil], rfl⟩⟩
  | readFails _ => exact absurd rfl hread
  | resume hphase => exact h.resume hphase
  | createInstanceEnds error _ => exact h.transition _ _ _
  | updateFails _ _ _ => exact absurd rfl (hupdate _ _)
  | updateReturns hw hsettled => exact h.updateReturns hw hsettled _ _

/-- A write that the database takes is the one after the latest. -/
theorem Run.Recorded.store (h : ρ.Recorded cell) (hwf : ρ.WellFormed) {k : ℕ} {w : Write}
    {record : IStateRecord} (hw : ρ.writes[k]? = some w)
    (hup : upsert w.filterVersion w.state cell = some record) :
    { ρ.settle k .stored with basis := some record : Run }.Recorded (some record) := by
  obtain ⟨rfl, hversion⟩ := upsert_eq_some_iff.mp hup
  have hget : ∀ j, (ρ.settle k .stored).writes[j]? =
      ρ.writes[j]?.map fun w => if k = j then { w with status := .stored } else w := by
    intro j
    simp only [Run.settle, List.getElem?_modify]
    split <;> rfl
  constructor
  · intro w' hw'
    rcases Run.mem_modify_writes hw' with hw' | ⟨w₀, -, rfl⟩
    · exact h.settled w' hw'
    · exact .inr rfl
  · intro hread
    refine .inr ⟨k, { w with status := .stored }, ?_, rfl, fun j w' hj hw' => ?_, rfl⟩
    · rw [hget, hw]
      simp
    · change (ρ.settle k .stored).writes[j]? = some w' at hw'
      rw [hget] at hw'
      obtain ⟨w₀, hw₀, rfl⟩ := Option.map_eq_some_iff.mp hw'
      rw [if_neg (by omega)]
      rcases h.latest hread with ⟨hpending, -⟩ | ⟨i, w₁, hw₁, -, hlater, hcell⟩
      · exact hpending w₀ (List.mem_of_getElem? hw₀)
      · -- the record has the version of write `i`, so write `k` follows it
        have hold := hversion _ hcell
        have hk := hwf.filter k w hw
        have hi := hwf.filter i w₁ hw₁
        exact hlater j w₀ (by simp only at hold; omega) hw₀

/-- What a finished run has written last is stored. -/
theorem Run.Recorded.storedValue_eq (h : ρ.Recorded cell) (hfinished : ρ.Finished)
    (hread : ρ.hasRead) : storedValue cell = ρ.lastState := by
  have hstored : ∀ w ∈ ρ.writes, w.status ≠ .pending := by
    intro w hw hpending
    rcases h.settled w hw with ⟨-, hreturned⟩ | hstored
    · rw [hfinished.writes w hw] at hreturned
      cases hreturned
    · rw [hpending] at hstored
      cases hstored
  rcases h.latest hread with ⟨hpending, rfl⟩ | ⟨k, w, hw, -, hlater, rfl⟩
  · have hnil : ρ.writes = [] := by
      rw [List.eq_nil_iff_forall_not_mem]
      exact fun w hw => hstored w hw (hpending w hw)
    simp [Run.lastState, hnil]
  · have hk := (List.getElem?_eq_some_iff.mp hw).1
    have hlast : ρ.writes.length - 1 = k := by
      by_contra hne
      have hlt : ρ.writes.length - 1 < ρ.writes.length := by omega
      exact hstored _ (List.getElem_mem hlt)
        (hlater _ _ (by omega) (List.getElem?_eq_getElem hlt))
    rw [Run.lastState, List.getLast?_eq_getElem?, hlast, hw]
    rfl

/-- Changing how a write stands does not change what was written. -/
theorem Run.lastState_modify {k : ℕ} {f : Write → Write} (hf : ∀ w, (f w).state = w.state)
    (hwrites : ρ'.writes = ρ.writes.modify k f)
    (hprev : ρ'.previousStateRecord = ρ.previousStateRecord) : ρ'.lastState = ρ.lastState := by
  have hlast : ρ'.writes.getLast?.map (·.state) = ρ.writes.getLast?.map (·.state) := by
    rw [hwrites, List.getLast?_eq_getElem?, List.getLast?_eq_getElem?, List.length_modify,
      List.getElem?_modify]
    cases ρ.writes[ρ.writes.length - 1]? with
    | none => rfl
    | some w =>
        change some (if k = _ then f w else w).state = some w.state
        split
        · rw [hf w]
        · rfl
  rw [Run.lastState, Run.lastState, hlast, hprev]

end Recorded

/-! ### The uninterrupted run -/

section InStep

variable {env : Env ι} {r : ι} {cell : Option IStateRecord} {l : Label ι} {ρ ρ' : Run}
  {configuration : Configuration} {message : Message} {event : Event} {value : StateValue}

/-- Only what answers `createInstance` can throw. -/
theorem Enabled.threw {v target : StateValue} {type : String} {as : List Action}
    (h : Enabled configuration v type target as)
    (hthrew : (runActions event message as).threw = true) :
    v = .creatingInstance ∧
      (type = createInstanceDone ∧ message.interactionElements = none ∨
        type = createInstanceFailed ∧ event.data = none) := by
  cases h with
  | created _ =>
      cases hes : message.interactionElements with
      | none => exact ⟨rfl, .inl ⟨rfl, rfl⟩⟩
      | some es => simp [Action.run, hes] at hthrew
  | createdForType _ =>
      cases hes : message.interactionElements with
      | none => exact ⟨rfl, .inl ⟨rfl, rfl⟩⟩
      | some es => simp [Action.run, hes] at hthrew
  | failed =>
      cases hdata : event.data with
      | none => exact ⟨rfl, .inr ⟨rfl, rfl⟩⟩
      | some error =>
          exfalso
          revert hthrew
          simp only [runActions_singleton, Action.run, hdata]
          split <;> simp
  | _ => simp [runActions, Action.run] at hthrew

theorem Run.threw_of_transition (h : (ρ.transition configuration message event).2 = true) :
    ρ.value = .creatingInstance ∧
      (event.type = createInstanceDone ∧ message.interactionElements = none ∨
        event.type = createInstanceFailed ∧ event.data = none) := by
  cases hsel : select configuration ρ.value event.type with
  | none => simp [Run.transition, hsel] at h
  | some t =>
      refine (enabled_of_select hsel).threw ?_
      by_contra hok
      simp [Run.transition, hsel, hok] at h

/-- A transition that does not throw does what the uninterrupted run does. -/
theorem Run.transition_of_not_threw
    (h : (ρ.transition configuration message event).2 = false) :
    (ρ.transition configuration message event).1 = ρ ∧
        advance configuration ρ.value event.type = ρ.value ∨
      ∃ commands, (ρ.transition configuration message event).1 =
        (ρ.enter (advance configuration ρ.value event.type) commands).issueWrite event.type := by
  cases hsel : select configuration ρ.value event.type with
  | none => exact .inl (by simp [Run.transition, advance, hsel])
  | some t =>
      have hok : (runActions event message t.actions).threw ≠ true := by
        rintro hthrew
        simp [Run.transition, hsel, hthrew] at h
      exact .inr ⟨_, by simp [Run.transition, advance, hsel, hok]; rfl⟩

/-- The uninterrupted run is in the state `value`. Before the interpreter of the run is
started the record says so; afterwards the interpreter is in this state and has written
it last. Unless a request is under way, no instance is being created. -/
structure Run.InStep (cell : Option IStateRecord) (value : StateValue) (ρ : Run) : Prop where
  stored : ρ.phase ≠ .running → storedValue cell = value
  running : ρ.phase = .running → ρ.value = value ∧ ρ.lastState = value
  invoking : ρ.invoking = false → value ≠ .creatingInstance

theorem Run.InStep.storedValue_eq (h : ρ.InStep cell value) (hrecorded : ρ.Recorded cell)
    (hfinished : ρ.Finished) : storedValue cell = value := by
  by_cases hphase : ρ.phase = .running
  · exact (hrecorded.storedValue_eq hfinished (.inr hphase)).trans (h.running hphase).2
  · exact h.stored hphase

theorem Run.InStep.transition (h : ρ.InStep cell value) (hphase : ρ.phase = .running)
    (hok : (ρ.transition configuration message event).2 = false) :
    (ρ.transition configuration message event).1.InStep cell
      (advance configuration value event.type) := by
  obtain ⟨hvalue, hlast⟩ := h.running hphase
  rcases Run.transition_of_not_threw hok with ⟨heq, hadvance⟩ | ⟨commands, heq⟩
  · rw [hvalue] at hadvance
    rw [heq, hadvance]
    exact h
  · rw [heq, hvalue]
    refine ⟨fun hne => absurd hphase hne, fun _ => ⟨rfl, ?_⟩, fun hinvoking => ?_⟩
    · simp [Run.lastState, Run.issueWrite, Run.enter]
    · simpa [Run.issueWrite, Run.enter] using hinvoking

/-- What the run has to do with the record when it takes up a message. -/
theorem Run.InStep.resume (h : ρ.InStep cell value) (hwf : ρ.WellFormed)
    (hrecorded : ρ.Recorded cell) (hphase : ρ.phase = .loaded) :
    (ρ.resume env r).InStep cell (advance env.configuration value (env.event r)) := by
  obtain ⟨hwrites, hinvoking, -⟩ := hwf.quiet (by simp [hphase])
  have hprev : cell = ρ.previousStateRecord := by
    rcases hrecorded.latest (.inl hphase) with ⟨-, hcell⟩ | ⟨k, w, hw, -⟩
    · exact hcell
    · rw [hwrites] at hw
      cases hw
  have hvalue := h.stored (by simp [hphase])
  have hopen := h.invoking hinvoking
  rw [Run.resume_eq, ← hprev, hvalue]
  split
  · rename_i hfinal
    rw [advance_of_final _ hfinal]
    exact ⟨fun _ => hvalue, fun hrunning => (by cases hrunning), fun _ => hopen⟩
  · have hbegin : (ρ.begin env.restartsInvocation value (expectedVersion cell)).InStep cell value :=
      ⟨fun hne => absurd rfl hne,
        fun _ => ⟨rfl, by simp [Run.lastState, Run.begin, hwrites, ← hprev, hvalue]⟩,
        fun _ => hopen⟩
    have hok : ((ρ.begin env.restartsInvocation value (expectedVersion cell)).transition
        env.configuration (env.message r) ⟨env.event r, none⟩).2 = false := by
      by_contra hthrew
      exact hopen (Run.threw_of_transition (by simpa using hthrew)).1
    unfold Run.send
    split
    · simp only [hok]
      exact hbegin.transition rfl hok
    · rename_i hdeclared
      rw [advance_of_not_declared hdeclared]
      exact ⟨hbegin.stored, hbegin.running, hbegin.invoking⟩

/-- Where `Throws` does not hold, the outcome of `createInstance` does not throw. -/
theorem Run.createInstanceEnds_ok {error : Option RequestError}
    (hok : ¬ Throws env (.createInstanceEnds r error)) :
    (ρ.transition env.configuration (env.message r) (createInstanceEvent error)).2 = false := by
  by_contra hthrew
  have hne : createInstanceDone ≠ createInstanceFailed := by decide
  obtain ⟨-, ⟨htype, hes⟩ | ⟨htype, hdata⟩⟩ := Run.threw_of_transition (by simpa using hthrew)
  · cases error with
    | none => exact hok hes
    | some error => exact hne htype.symm
  · cases error with
    | none => exact hne htype
    | some error => cases hdata

theorem Run.InStep.step (h : ρ.InStep cell value) (hwf : ρ.WellFormed)
    (hrecorded : ρ.Recorded cell) (hread : l ≠ .read r false)
    (hupdate : ∀ k reachable, l ≠ .update r k reachable) (hok : ¬ Throws env l)
    (hstep : LocalStep env r cell ρ l ρ') :
    ρ'.InStep cell ((l.event env).toList.foldl (advance env.configuration) value) := by
  cases hstep with
  | applyEvent hphase =>
      have hstored := h.stored (by simp [hphase])
      exact ⟨fun _ => hstored, fun hrunning => (by cases hrunning), h.invoking⟩
  | read hphase =>
      have hstored := h.stored (by simp [hphase])
      exact ⟨fun _ => hstored, fun hrunning => (by cases hrunning), h.invoking⟩
  | readFails _ => exact absurd rfl hread
  | resume hphase => exact h.resume hwf hrecorded hphase
  | createInstanceEnds error hinvoking =>
      exact h.transition (hwf.invoking hinvoking).1 (Run.createInstanceEnds_ok hok)
  | updateFails _ _ _ => exact absurd rfl (hupdate _ _)
  | @updateReturns k w throws hw _ =>
      obtain ⟨hwrites, hphase, hprev, -, hvalue, -⟩ :=
        ρ.updateReturns_frame (env.event r) k w throws
      have hinvoking : (ρ.updateReturns (env.event r) k w throws).invoking = ρ.invoking := by
        simp only [Run.updateReturns]
        split_ifs <;> rfl
      constructor
      · rw [hphase]
        exact h.stored
      · rw [hphase, hvalue,
          Run.lastState_modify (f := fun w => { w with returned := true }) (fun _ => rfl) hwrites
            hprev]
        exact h.running
      · rw [hinvoking]
        exact h.invoking

/-- A write that the database takes is no event. -/
theorem Run.InStep.store (h : ρ.InStep cell value) (hphase : ρ.phase = .running) (k : ℕ)
    (record : IStateRecord) :
    { ρ.settle k .stored with basis := some record : Run }.InStep (some record) value := by
  obtain ⟨hvalue, hlast⟩ := h.running hphase
  refine ⟨fun hne => absurd hphase hne, fun _ => ⟨hvalue, ?_⟩, h.invoking⟩
  rw [← hlast]
  exact Run.lastState_modify (k := k) (f := fun w => { w with status := .stored })
    (fun _ => rfl) rfl rfl

end InStep

/-! ### The conversation -/

section Conversation

variable {env : Env ι} {conversation : String} {c c' : Conversation ι} {l : Label ι}

/-- The invariant that every sequence of messages keeps. -/
structure Conversation.Ordered (env : Env ι) (conversation : String) (c : Conversation ι) :
    Prop where
  wellFormed : c.system.WellFormed
  own : ∀ r, c.current = some r → env.conversationId r = conversation
  recorded : ∀ r, c.current = some r → (c.system.runs r).Recorded (c.system.db conversation)

/-- The invariant as long as no action throws: the message that is being handled keeps
up with the uninterrupted run. -/
structure Conversation.Faithful (env : Env ι) (conversation : String) (c : Conversation ι) :
    Prop where
  ordered : c.Ordered env conversation
  fresh : c.current = none →
    storedValue (c.system.db conversation) = runMachine env.configuration c.events ∧
      runMachine env.configuration c.events ≠ .creatingInstance
  inStep : ∀ r, c.current = some r →
    (c.system.runs r).InStep (c.system.db conversation) (runMachine env.configuration c.events)

theorem Conversation.ordered_initial {db : String → Option IStateRecord} :
    (Conversation.initial db).Ordered env conversation :=
  ⟨fun _ => Run.wellFormed_initial, fun _ h => (by cases h), fun _ h => by cases h⟩

/-- The run that takes the step, before it. -/
theorem Conversation.Ordered.current (h : c.Ordered env conversation) {r : ι}
    (hcurrent : c.current = some r ∨ c.Quiet ∧ env.conversationId r = conversation ∧
      (c.system.runs r).phase = .idle ∧ l = .applyEvent r) :
    env.conversationId r = conversation ∧
      (c.system.runs r).Recorded (c.system.db conversation) := by
  rcases hcurrent with hcurrent | ⟨-, hconversation, hphase, -⟩
  · exact ⟨h.own r hcurrent, h.recorded r hcurrent⟩
  · refine ⟨hconversation, .of_not_hasRead ((h.wellFormed r).quiet (by simp [hphase])).1 ?_⟩
    simp [Run.hasRead, hphase]

/-- Whenever no message is being handled the record says where the uninterrupted run is. -/
theorem Conversation.Faithful.quiet (h : c.Faithful env conversation) (hquiet : c.Quiet) :
    storedValue (c.system.db conversation) = runMachine env.configuration c.events ∧
      runMachine env.configuration c.events ≠ .creatingInstance := by
  cases hcurrent : c.current with
  | none => exact h.fresh hcurrent
  | some r =>
      have hfinished := hquiet r hcurrent
      have hin := h.inStep r hcurrent
      exact ⟨hin.storedValue_eq (h.ordered.recorded r hcurrent) hfinished,
        hin.invoking hfinished.invoking⟩

variable [DecidableEq ι]

/-- A step of the conversation is a step of the run that is being handled, and does not
let an operation of the database fail. -/
theorem Conversation.step_cases (h : c.step env conversation l = some c') :
    ∃ r, c'.current = some r ∧ c'.events = c.events ++ (l.event env).toList ∧
      OnboardingSkill.step env c.system l = some c'.system ∧
      (c.current = some r ∨
        c.Quiet ∧ env.conversationId r = conversation ∧ (c.system.runs r).phase = .idle ∧
          l = .applyEvent r) ∧
      ((∃ ρ, LocalStep env r (c.system.db (env.conversationId r)) (c.system.runs r) l ρ ∧
          l ≠ .read r false ∧ (∀ k reachable, l ≠ .update r k reachable) ∧
          c'.system = c.system.setRun r ρ) ∨
        ∃ k w record, l = .update r k true ∧ (c.system.runs r).writes[k]? = some w ∧
          w.status = .pending ∧
          upsert w.filterVersion w.state (c.system.db (env.conversationId r)) = some record ∧
          c'.system = c.system.store env r k record) := by
  obtain ⟨hadmits, h⟩ := Option.ite_none_right_eq_some.mp h
  obtain ⟨s, hstep, rfl⟩ := Option.map_eq_some_iff.mp h
  refine ⟨l.run, rfl, rfl, hstep, ?_, ?_⟩
  · cases l with
    | applyEvent r =>
        simp only [Conversation.admits, Bool.and_eq_true, decide_eq_true_eq] at hadmits
        simp only [OnboardingSkill.step, Option.ite_none_right_eq_some] at hstep
        exact .inr ⟨hadmits.2, hadmits.1, hstep.1, rfl⟩
    | _ =>
        simp only [Conversation.admits, Bool.and_eq_true, decide_eq_true_eq] at hadmits
        simp [Label.run, hadmits]
  · rcases OnboardingSkill.step_cases hstep with
      ⟨r, ρ, hlocal, rfl⟩ | ⟨r, k, w, record, rfl, hw, hpending, hup, rfl⟩
    · have hrun : l.run = r := by cases hlocal <;> rfl
      rw [hrun]
      refine .inl ⟨ρ, hlocal, ?_, ?_, rfl⟩
      · rintro rfl
        simp [Conversation.admits] at hadmits
      · rintro k reachable rfl
        cases hlocal with
        | updateFails hw _ hfails =>
            simp only [Conversation.admits, Bool.and_eq_true, hw, Option.all_some] at hadmits
            rcases hfails with ⟨rfl, -⟩ | ⟨-, hnone⟩
            · simp at hadmits
            · simp [hnone] at hadmits
    · exact .inr ⟨k, w, record, rfl, hw, hpending, hup, rfl⟩

theorem Conversation.Ordered.step (h : c.Ordered env conversation)
    (hstep : c.step env conversation l = some c') : c'.Ordered env conversation := by
  obtain ⟨r, hcurrent', -, hsystem, hcurrent, hcases⟩ := Conversation.step_cases hstep
  obtain ⟨hconversation, hrecorded⟩ := h.current hcurrent
  refine ⟨h.wellFormed.step hsystem, fun q hq => ?_, fun q hq => ?_⟩
  · obtain rfl := Option.some.inj (hcurrent'.symm.trans hq)
    exact hconversation
  · obtain rfl := Option.some.inj (hcurrent'.symm.trans hq)
    rw [hconversation] at hcases
    rcases hcases with
      ⟨ρ, hlocal, hread, hupdate, heq⟩ | ⟨k, w, record, -, hw, -, hup, heq⟩
    · rw [heq, System.setRun_runs, if_pos rfl]
      exact hrecorded.step (h.wellFormed r) hread hupdate hlocal
    · rw [heq, System.store_runs, if_pos rfl, System.store_db, if_pos hconversation.symm]
      exact hrecorded.store (h.wellFormed r) hw hup

theorem Conversation.Faithful.step (h : c.Faithful env conversation) (hok : ¬ Throws env l)
    (hstep : c.step env conversation l = some c') : c'.Faithful env conversation := by
  obtain ⟨r, hcurrent', hevents, -, hcurrent, hcases⟩ := Conversation.step_cases hstep
  obtain ⟨hconversation, hrecorded⟩ := h.ordered.current hcurrent
  have hin : (c.system.runs r).InStep (c.system.db conversation)
      (runMachine env.configuration c.events) := by
    rcases hcurrent with hcurrent | ⟨hquiet, -, hphase, -⟩
    · exact h.inStep r hcurrent
    · obtain ⟨hstored, hopen⟩ := h.quiet hquiet
      exact ⟨fun _ => hstored, fun hrunning => absurd (hphase.symm.trans hrunning) (by decide),
        fun _ => hopen⟩
  refine ⟨h.ordered.step hstep, fun hnone => ?_, fun q hq => ?_⟩
  · rw [hcurrent'] at hnone
    cases hnone
  · obtain rfl := Option.some.inj (hcurrent'.symm.trans hq)
    rw [hconversation] at hcases
    rw [hevents, runMachine_append]
    rcases hcases with
      ⟨ρ, hlocal, hread, hupdate, heq⟩ | ⟨k, w, record, rfl, hw, -, -, heq⟩
    · rw [heq, System.setRun_runs, if_pos rfl]
      exact hin.step (h.ordered.wellFormed r) hrecorded hread hupdate hok hlocal
    · rw [heq, System.store_runs, if_pos rfl, System.store_db, if_pos hconversation.symm]
      exact hin.store ((h.ordered.wellFormed r).running_of_write hw) k record

/-- The stored version does not decrease, and a record in a final state stays as it is. -/
def Conversation.Grows (conversation : String) (c c' : Conversation ι) : Prop :=
  expectedVersion (c.system.db conversation) ≤ expectedVersion (c'.system.db conversation) ∧
    ((storedValue (c.system.db conversation)).isFinal = true →
      c'.system.db conversation = c.system.db conversation)

/-- Nobody writes over a record in a final state: the run that has stored it has nothing
more to write, and a later run does not get an interpreter. -/
theorem Run.Recorded.not_final {ρ : Run} {cell : Option IStateRecord} (h : ρ.Recorded cell)
    (hwf : ρ.WellFormed) {k : ℕ} {w : Write} {record : IStateRecord}
    (hw : ρ.writes[k]? = some w) (hup : upsert w.filterVersion w.state cell = some record) :
    (storedValue cell).isFinal = false := by
  have hrunning := hwf.running_of_write hw
  rcases h.latest (.inr hrunning) with ⟨-, rfl⟩ | ⟨i, w₁, hw₁, hstored, hlater, rfl⟩
  · cases hprev : ρ.previousStateRecord with
    | none => rfl
    | some old => exact hwf.opened hrunning old hprev
  · have hversion := (upsert_eq_some_iff.mp hup).2 _ rfl
    have hk := hwf.filter k w hw
    have hi := hwf.filter i w₁ hw₁
    have hlen := (List.getElem?_eq_some_iff.mp hw).1
    have hstate := hwf.earlier i w₁ hw₁ (by simp only at hversion; omega)
    rw [storedValue_some, hstate]
    rfl

theorem Conversation.Ordered.grows (h : c.Ordered env conversation)
    (hstep : c.step env conversation l = some c') : c.Grows conversation c' := by
  obtain ⟨r, -, -, -, hcurrent, hcases⟩ := Conversation.step_cases hstep
  obtain ⟨hconversation, hrecorded⟩ := h.current hcurrent
  rw [hconversation] at hcases
  rcases hcases with ⟨ρ, -, -, -, heq⟩ | ⟨k, w, record, -, hw, -, hup, heq⟩
  · rw [Conversation.Grows, heq, System.setRun_db]
    exact ⟨Nat.le_refl _, fun _ => rfl⟩
  · obtain ⟨rfl, hversion⟩ := upsert_eq_some_iff.mp hup
    have hopen := hrecorded.not_final (h.wellFormed r) hw hup
    rw [Conversation.Grows, heq, System.store_db, if_pos hconversation.symm]
    refine ⟨?_, fun hfinal => by rw [hopen] at hfinal; cases hfinal⟩
    cases hcell : c.system.db conversation with
    | none => exact Nat.zero_le _
    | some old =>
        have hold := hversion old hcell
        change old.version ≤ w.filterVersion + 1
        omega

/-- Restarted for every message from what is stored, the machine is in the state of one
uninterrupted run on the same events, as long as `createInstance` does not resolve for a
message without interaction elements. The stored version never decreases, and a final
state is never replaced. -/
theorem stored_eq_runMachine (env : Env ι) (conversation : String)
    (db : String → Option IStateRecord) (hnew : db conversation = none)
    (schedule : List (Label ι)) :
    (Guarded (Conversation.step env conversation) (fun _ l => ¬ Throws env l)
        (Conversation.initial db) schedule →
      Along (Conversation.step env conversation)
        (fun c => c.Quiet →
          storedValue (c.system.db conversation) = runMachine env.configuration c.events)
        (Conversation.initial db) schedule) ∧
    Steps (Conversation.step env conversation) (Conversation.Grows conversation)
      (Conversation.initial db) schedule := by
  constructor
  · intro hguarded
    have hinitial : (Conversation.initial db).Faithful env conversation := by
      refine ⟨Conversation.ordered_initial, fun _ => ?_, fun _ h => by cases h⟩
      rw [show (Conversation.initial (ι := ι) db).system.db conversation = none from hnew]
      exact ⟨rfl, by simp [Conversation.initial]⟩
    have hinv := along_of_guarded (I := Conversation.Faithful env conversation)
      (fun c l c' h hok hstep => h.step hok hstep) hinitial hguarded
    exact hinv.mono fun c h hquiet => (h.quiet hquiet).1
  · exact steps_of_invariant (I := Conversation.Ordered env conversation)
      (fun c l c' h hstep => h.step hstep) (fun c l c' h hstep => h.grows hstep)
      Conversation.ordered_initial schedule

/-- The messages of a conversation with an approval: the request (`false`) and the
approval (`true`). -/
def approvedConversation (interactionElements : Option (List String)) : Env Bool where
  configuration := ⟨true, false⟩
  restartsInvocation := true
  event approval :=
    if approval then "APPROVED_FROM_APPROVER" else "PUBLISHINSTANCE_FROM_OPERATOR"
  conversationId _ := "conversation"
  message approval :=
    if approval then ⟨"approved", "Approver", "conversation", interactionElements⟩
    else ⟨"publishInstance", "Operator", "conversation", some ["{}"]⟩

/-- The request up to the state `WaitingForApproval`, and the approval up to the outcome
of `createInstance`. -/
def approvedSchedule : List (Label Bool) :=
  [.applyEvent false, .read false true, .resume false, .update false 0 true,
    .updateReturns false 0 fun _ => false, .applyEvent true, .read true true, .resume true,
    .update true 0 true, .updateReturns true 0 fun _ => false, .createInstanceEnds true none]

/-- Both messages carry elements, and the instance is published in the end. -/
theorem stored_eq_runMachine_approved :
    Along (Conversation.step (approvedConversation (some ["{}"])) "conversation")
        (fun c => c.Quiet → storedValue (c.system.db "conversation") =
          runMachine (approvedConversation (some ["{}"])).configuration c.events)
        (Conversation.initial fun _ => none)
        (approvedSchedule ++ [.update true 1 true, .updateReturns true 1 fun _ => false]) ∧
      (exec (Conversation.step (approvedConversation (some ["{}"])) "conversation")
          (Conversation.initial fun _ => none)
          (approvedSchedule ++ [.update true 1 true, .updateReturns true 1 fun _ => false])).map
        (fun c => (decide c.Quiet, storedValue (c.system.db "conversation"))) =
      some (true, .instancePublished) := by
  refine ⟨(stored_eq_runMachine _ _ _ rfl _).1 (guarded_of_forall (fun _ l => ?_) _ _), by decide⟩
  rintro hthrows
  cases l with
  | createInstanceEnds r error =>
      cases error with
      | none => cases r <;> cases hthrows
      | some error => cases hthrows
  | _ => cases hthrows

/-- After an approval without elements the instance exists, but the conversation stays
in `CreatingInstance`. -/
theorem not_stored_eq_runMachine_approved :
    ¬ ∀ (env : Env Bool) (conversation : String) (db : String → Option IStateRecord),
      db conversation = none → ∀ schedule : List (Label Bool),
      Along (Conversation.step env conversation)
        (fun c => c.Quiet →
          storedValue (c.system.db conversation) = runMachine env.configuration c.events)
        (Conversation.initial db) schedule := by
  intro h
  have halong := h (approvedConversation none) "conversation" (fun _ => none) rfl approvedSchedule
  have hrun : (exec (Conversation.step (approvedConversation none) "conversation")
      (Conversation.initial fun _ => none) approvedSchedule).map
        (fun c => (decide c.Quiet, storedValue (c.system.db "conversation"),
          runMachine (approvedConversation none).configuration c.events)) =
      some (true, .creatingInstance, .instancePublished) := by decide
  obtain ⟨c, hc, hfinal⟩ := Option.map_eq_some_iff.mp hrun
  simp only [Prod.mk.injEq, decide_eq_true_eq] at hfinal
  have hsame := halong.exec_eq hc hfinal.1
  rw [hfinal.2.1, hfinal.2.2] at hsame
  cases hsame

end Conversation

end I40Aas.OnboardingSkill
