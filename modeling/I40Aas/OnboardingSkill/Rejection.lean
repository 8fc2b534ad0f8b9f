import I40Aas.OnboardingSkill.Approval

/-!
What a run answers to an event that enables nothing. Two mechanisms answer with
`replyNotUnderstood`: an interpreter that is started in a final state stops at once,
and in strict mode an event that no state declares throws. An event that is declared
for another state passes both, leaves the state unchanged, and gets no answer.
-/

namespace I40Aas.OnboardingSkill

open I40Aas.Lib

variable {ι : Type*}

/-- The stored state is the one the message of run `r` found, and the run is not over
without having answered `notUnderstood` once. -/
structure System.Rejects (env : Env ι) (db : String → Option IStateRecord) (r : ι)
    (s : System ι) : Prop where
  unchanged : storedValue (s.db (env.conversationId r)) =
    storedValue (db (env.conversationId r))
  replies : (s.runs r).Finished → (s.runs r).replies = [.notUnderstood]

/-- A run on the record `cell` that answers `notUnderstood` and does nothing else. -/
structure Run.Rejecting (cell : Option IStateRecord) (ρ : Run) : Prop where
  writes : ρ.writes = []
  invoking : ρ.invoking = false
  read : ρ.phase = .loaded → ρ.previousStateRecord = cell
  replies : ρ.replies = if ρ.phase = .ended ∨ ρ.phase = .running then [.notUnderstood] else []

theorem Run.rejecting_initial (cell : Option IStateRecord) : Run.initial.Rejecting cell := by
  constructor <;> simp [Run.initial]

section LocalStep

variable {env : Env ι} {r : ι} {cell : Option IStateRecord} {l : Label ι} {ρ ρ' : Run}

theorem LocalStep.run_eq (h : LocalStep env r cell ρ l ρ') : l.run = r := by
  cases h <;> rfl

theorem Run.Rejecting.resume (h : ρ.Rejecting cell) (hphase : ρ.phase = .loaded)
    (hrejected : (storedValue cell).isFinal = true ∨ env.event r ∉ declaredEvents)
    (hrestart : ¬ (env.restartsInvocation = true ∧ storedValue cell = .creatingInstance)) :
    (ρ.resume env r).Rejecting cell := by
  have hreplies : ρ.replies = [] := by
    rw [h.replies, hphase]
    simp
  rw [Run.resume_eq, h.read hphase]
  split
  · constructor <;> simp [Run.reply, h.writes, h.invoking, hreplies]
  · rename_i hfinal
    have hevent := hrejected.resolve_left hfinal
    rw [Run.send, if_neg hevent]
    constructor <;> simp [Run.reply, Run.begin, h.writes, hreplies]
    simpa using hrestart

theorem Run.Rejecting.step (h : ρ.Rejecting cell)
    (hrejected : (storedValue cell).isFinal = true ∨ env.event r ∉ declaredEvents)
    (hrestart : ¬ (env.restartsInvocation = true ∧ storedValue cell = .creatingInstance))
    (hread : l ≠ .read r false) (hstep : LocalStep env r cell ρ l ρ') : ρ'.Rejecting cell := by
  cases hstep with
  | applyEvent hphase =>
      have hreplies := h.replies
      constructor <;> simp_all [h.writes, h.invoking]
  | read hphase =>
      have hreplies := h.replies
      constructor <;> simp_all [h.writes, h.invoking]
  | readFails _ => exact absurd rfl hread
  | resume hphase => exact h.resume hphase hrejected hrestart
  | createInstanceEnds error hinvoking =>
      rw [h.invoking] at hinvoking
      cases hinvoking
  | updateFails hw _ _ =>
      rw [h.writes] at hw
      cases hw
  | updateReturns hw _ =>
      rw [h.writes] at hw
      cases hw

/-- An event that enables nothing leaves the interpreter alone. -/
theorem Run.send_of_select_eq_none {configuration : Configuration} {message : Message}
    {event : String} {ρ : Run} (h : select configuration ρ.value event = none) :
    ρ.send configuration message event =
      if event ∈ declaredEvents then ρ else ρ.reply .notUnderstood := by
  simp [Run.send, Run.transition, h]

/-- A request without an answer ends in `operationFailed`. -/
theorem Run.createInstanceEnds_failed {ρ : Run} (hvalue : ρ.value = .creatingInstance) :
    ρ.createInstanceEnds env r (some ⟨none⟩) =
      (ρ.enter .operationFailed [.sendErrorToOperator]).issueWrite createInstanceFailed := by
  rw [Run.createInstanceEnds, Run.transition, hvalue]
  rfl

end LocalStep

section System

variable {env : Env ι} {r : ι} {db : String → Option IStateRecord} {s s' : System ι}
  {l : Label ι}

structure System.Rejecting (env : Env ι) (db : String → Option IStateRecord) (r : ι)
    (s : System ι) : Prop where
  unchanged : s.db = db
  run : (s.runs r).Rejecting (db (env.conversationId r))

theorem System.Rejecting.rejects (h : s.Rejecting env db r) : s.Rejects env db r := by
  refine ⟨by rw [h.unchanged], fun hfinished => ?_⟩
  rw [h.run.replies, if_pos hfinished.returned]

variable [DecidableEq ι]

theorem System.Rejecting.step (h : s.Rejecting env db r)
    (hrejected : (storedValue (db (env.conversationId r))).isFinal = true ∨
      env.event r ∉ declaredEvents)
    (hrestart : ¬ (env.restartsInvocation = true ∧
      storedValue (db (env.conversationId r)) = .creatingInstance))
    (hrun : l.run = r) (hread : l ≠ .read r false) (hstep : step env s l = some s') :
    s'.Rejecting env db r := by
  rcases step_cases hstep with ⟨q, ρ, hlocal, rfl⟩ | ⟨q, k, w, record, rfl, hw, -, -, -⟩
  · obtain rfl : q = r := hlocal.run_eq.symm.trans hrun
    rw [h.unchanged] at hlocal
    refine ⟨h.unchanged, ?_⟩
    rw [System.setRun_runs, if_pos rfl]
    exact h.run.step hrejected hrestart hread hlocal
  · obtain rfl : q = r := hrun
    rw [h.run.writes] at hw
    cases hw

/-- The run of one message up to the end of its synchronous part. -/
theorem exec_resume (env : Env ι) (db : String → Option IStateRecord) (r : ι) :
    ∃ s, exec (step env) (System.initial db) [.applyEvent r, .read r true, .resume r] = some s ∧
      s.db = db ∧ s.runs r = Run.resume env r
        { Run.initial with
          phase := .loaded
          previousStateRecord := db (env.conversationId r)
          basis := db (env.conversationId r) } := by
  refine ⟨_, by simp [exec, step, System.initial, System.setRun, Run.initial]; rfl, ?_, ?_⟩
  · rfl
  · simp [Run.initial]

/-- When a request that the start of the interpreter has repeated fails, the stored
state changes. -/
theorem exec_restarted (env : Env ι) (db : String → Option IStateRecord) (r : ι)
    (hnone : select env.configuration (storedValue (db (env.conversationId r)))
      (env.event r) = none)
    (hrestart : env.restartsInvocation = true)
    (hvalue : storedValue (db (env.conversationId r)) = .creatingInstance) :
    ∃ s, exec (step env) (System.initial db) ([.applyEvent r, .read r true, .resume r] ++
        [.createInstanceEnds r (some ⟨none⟩), .update r 0 true]) = some s ∧
      storedValue (s.db (env.conversationId r)) = .operationFailed := by
  obtain ⟨s, hs, hdb, hrun⟩ := exec_resume env db r
  rw [hvalue] at hnone
  rw [Run.resume_eq, hvalue, if_neg (by decide), Run.send_of_select_eq_none hnone] at hrun
  have hstarted : (s.runs r).invoking = true ∧ (s.runs r).value = .creatingInstance ∧
      (s.runs r).writes = [] ∧
      (s.runs r).versionCounter = expectedVersion (db (env.conversationId r)) := by
    rw [hrun]
    split <;> simp [Run.reply, Run.begin, Run.initial, hrestart]
  obtain ⟨hinvoking, hcreating, hwrites, hversion⟩ := hstarted
  obtain ⟨record, hrecord⟩ : ∃ record, upsert (expectedVersion (db (env.conversationId r)))
      StateValue.operationFailed (db (env.conversationId r)) = some record :=
    ⟨_, upsert_eq_some_iff.mpr ⟨rfl, fun old hold => by rw [hold, expectedVersion_some]⟩⟩
  obtain ⟨rfl, -⟩ := upsert_eq_some_iff.mp hrecord
  rw [exec_append, hs]
  simp only [exec, Option.bind_some, step, hinvoking, if_true, System.setRun_runs,
    Run.createInstanceEnds_failed hcreating, Run.issueWrite, Run.enter_writes, hwrites,
    List.nil_append, List.getElem?_cons_zero]
  simp [Run.enter, hversion, hdb, hrecord, System.store]

/-- A run on an event that enables nothing answers it with `notUnderstood` and leaves
the stored state as it is, whatever happens, exactly when the conversation is closed or
the event is none of the machine, and no request to create an instance is repeated. -/
theorem rejects_iff (env : Env ι) (db : String → Option IStateRecord) (r : ι)
    (hnone : select env.configuration (storedValue (db (env.conversationId r)))
      (env.event r) = none) :
    (∀ schedule : List (Label ι), (∀ l ∈ schedule, l.run = r ∧ l ≠ .read r false) →
        Along (step env) (System.Rejects env db r) (System.initial db) schedule) ↔
      ((storedValue (db (env.conversationId r))).isFinal = true ∨
          env.event r ∉ declaredEvents) ∧
        ¬ (env.restartsInvocation = true ∧
          storedValue (db (env.conversationId r)) = .creatingInstance) := by
  constructor
  · intro h
    have hrestart : ¬ (env.restartsInvocation = true ∧
        storedValue (db (env.conversationId r)) = .creatingInstance) := by
      rintro ⟨hrestart, hvalue⟩
      obtain ⟨s, hs, hfailed⟩ := exec_restarted env db r hnone hrestart hvalue
      have hsame := ((h _ (by simp [Label.run])).exec_eq hs).unchanged
      rw [hfailed, hvalue] at hsame
      cases hsame
    refine ⟨?_, hrestart⟩
    by_contra hsilent
    obtain ⟨hopen, hdeclared⟩ := not_or.mp hsilent
    obtain ⟨s, hs, -, hrun⟩ := exec_resume env db r
    rw [Run.resume_eq, if_neg hopen, Run.send_of_select_eq_none hnone,
      if_pos (not_not.mp hdeclared)] at hrun
    have hfinished : (s.runs r).Finished := by
      rw [hrun]
      constructor <;> simp [Run.begin, Run.initial]
      simpa using hrestart
    have hreplies := ((h _ (by simp [Label.run])).exec_eq hs).replies hfinished
    rw [hrun] at hreplies
    cases hreplies
  · rintro ⟨hrejected, hrestart⟩ schedule hschedule
    have hinv : Along (step env) (System.Rejecting env db r) (System.initial db) schedule :=
      along_of_mem (fun s l s' hl h hstep =>
        h.step hrejected hrestart (hschedule l hl).1 (hschedule l hl).2 hstep)
        ⟨rfl, Run.rejecting_initial _⟩
    exact hinv.mono fun s h => h.rejects

/-- The conversation `conversation` waits for its approval. -/
def waitingForApprovalDb (conversationId : String) : Option IStateRecord :=
  if conversationId = "conversation" then some ⟨1, .waitingForApproval⟩ else none

/-- One message of type `type` from the operator of the conversation. -/
def fromOperator (type : String) : Env Unit :=
  Env.receive toUpperCaseAscii ⟨true, false⟩ true
    fun _ => ⟨type, "Operator", "conversation", some ["{}"]⟩

/-- A message of a type the machine does not know. -/
theorem rejects_iff_greeting :
    (∀ schedule : List (Label Unit), (∀ l ∈ schedule, l.run = () ∧ l ≠ .read () false) →
        Along (step (fromOperator "greeting"))
          (System.Rejects (fromOperator "greeting") waitingForApprovalDb ())
          (System.initial waitingForApprovalDb) schedule) ↔
      ((storedValue (waitingForApprovalDb "conversation")).isFinal = true ∨
          (fromOperator "greeting").event () ∉ declaredEvents) ∧
        ¬ ((fromOperator "greeting").restartsInvocation = true ∧
          storedValue (waitingForApprovalDb "conversation") = .creatingInstance) :=
  rejects_iff (fromOperator "greeting") waitingForApprovalDb () (by decide)

/-- A second request while the first one waits for its approval gets no answer. -/
theorem not_rejects_publishInstance :
    ¬ ∀ (env : Env Unit) (db : String → Option IStateRecord),
      select env.configuration (storedValue (db (env.conversationId ()))) (env.event ()) = none →
      ∀ schedule : List (Label Unit), (∀ l ∈ schedule, l.run = () ∧ l ≠ .read () false) →
        Along (step env) (System.Rejects env db ()) (System.initial db) schedule := by
  intro h
  have halong := h (fromOperator "publishInstance") waitingForApprovalDb (by decide)
    [.applyEvent (), .read () true, .resume ()] (by simp [Label.run])
  have hrun : (exec (step (fromOperator "publishInstance"))
      (System.initial waitingForApprovalDb) [.applyEvent (), .read () true, .resume ()]).map
        (fun s => (decide (s.runs ()).Finished, (s.runs ()).replies)) = some (true, []) := by
    decide
  obtain ⟨s, hs, hreplies⟩ := Option.map_eq_some_iff.mp hrun
  simp only [Prod.mk.injEq, decide_eq_true_eq] at hreplies
  have hanswered := (halong.exec_eq hs).replies hreplies.1
  rw [hreplies.2] at hanswered
  cases hanswered

end System

end I40Aas.OnboardingSkill
