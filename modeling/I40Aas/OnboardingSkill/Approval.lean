import I40Aas.OnboardingSkill.Runs

/-!
With `askForApproval` set no instance is created without an approval. The name
of an event is glued together from the type of a message and the role of its
sender, and only one pair of strings makes up `APPROVED_FROM_APPROVER`. From
there on the approval is followed through everything that can lead an
interpreter into `creatingInstance`: the state of the interpreter, the writes on
their way to the database, the stored record and the records read from it.
-/

namespace I40Aas.OnboardingSkill

open I40Aas.Lib

variable {ι : Type*}

/-- The event name in `MessageInterpreter.receive`. -/
def eventName (toUpperCase : String → String) (message : Message) : String :=
  toUpperCase message.type ++ "_FROM_" ++ toUpperCase message.senderRoleName

/-- One run of `applyEvent` for every message that `MessageInterpreter.receive` lets
through. -/
def Env.receive (toUpperCase : String → String) (configuration : Configuration)
    (restartsInvocation : Bool) (message : ι → Message) : Env ι where
  configuration := configuration
  restartsInvocation := restartsInvocation
  event r := eventName toUpperCase (message r)
  conversationId r := (message r).conversationId
  message := message

/-! ### The name of the approval event -/

/-- A separator that occurs in a text at one place only splits it in one way. -/
theorem eq_take_and_eq_drop {α : Type*} {text sep a b : List α} {k : ℕ}
    (honce : ∀ n ≤ text.length, (text.drop n).take sep.length = sep → n = k)
    (h : a ++ sep ++ b = text) : a = text.take k ∧ b = text.drop (k + sep.length) := by
  have hlen : a.length ≤ text.length := by
    rw [← h, List.append_assoc, List.length_append]
    exact Nat.le_add_right _ _
  have hsep : (text.drop a.length).take sep.length = sep := by
    rw [← h, List.append_assoc, List.drop_left, List.take_left]
  obtain rfl := honce a.length hlen hsep
  constructor
  · rw [← h, List.append_assoc, List.take_left]
  · rw [← h, ← List.length_append, List.drop_left]

theorem eq_of_eventName {type role : String}
    (h : type ++ "_FROM_" ++ role = "APPROVED_FROM_APPROVER") :
    type = "APPROVED" ∧ role = "APPROVER" := by
  have hlists : type.toList ++ "_FROM_".toList ++ role.toList =
      "APPROVED_FROM_APPROVER".toList := by
    rw [← String.toList_append, ← String.toList_append, h]
  obtain ⟨htype, hrole⟩ := eq_take_and_eq_drop (k := 8) (by decide) hlists
  constructor
  · exact String.toList_inj.mp (htype.trans (by decide))
  · exact String.toList_inj.mp (hrole.trans (by decide))

/-! ### One run -/

/-- Nothing in the run has to do with `creatingInstance`. -/
structure Run.Unapproved (ρ : Run) : Prop where
  read : ∀ record, ρ.previousStateRecord = some record → record.value ≠ .creatingInstance
  value : ρ.value ≠ .creatingInstance
  writes : ∀ w ∈ ρ.writes, w.state ≠ .creatingInstance
  calls : ρ.createInstanceCalls = 0

section LocalStep

variable {env : Env ι} {r : ι} {cell : Option IStateRecord} {l : Label ι} {ρ ρ' : Run}
  {message : Message} {event : Event}

theorem Run.Unapproved.transition (h : ρ.Unapproved)
    (hask : env.configuration.askForApproval = true)
    (hevent : event.type ≠ "APPROVED_FROM_APPROVER") :
    (ρ.transition env.configuration message event).1.Unapproved := by
  have htarget : ∀ target as, Enabled env.configuration ρ.value event.type target as →
      target ≠ .creatingInstance := by
    rintro target as hen rfl
    rcases hen.into_creatingInstance.2 with ⟨-, hno⟩ | ⟨-, happroved⟩
    · rw [hask] at hno
      cases hno
    · exact hevent happroved
  rcases Run.transition_cases env.configuration message event ρ with
    heq | ⟨target, as, hen, -, heq⟩ | ⟨target, as, commands, hen, -, heq⟩
  · rw [heq]
    exact h
  · rw [heq]
    have hne := htarget target as hen
    exact ⟨h.read, hne, h.writes, by simp [Run.enter, hne, h.calls]⟩
  · rw [heq]
    have hne := htarget target as hen
    refine ⟨h.read, hne, fun w hw => ?_, by simp [Run.issueWrite, Run.enter, hne, h.calls]⟩
    rcases List.mem_append.mp hw with hw | hw
    · exact h.writes w hw
    · obtain rfl := List.mem_singleton.mp hw
      exact hne

theorem Run.Unapproved.send (h : ρ.Unapproved)
    (hask : env.configuration.askForApproval = true) {event : String}
    (hevent : event ≠ "APPROVED_FROM_APPROVER") :
    (ρ.send env.configuration message event).Unapproved := by
  have htransition : (ρ.transition env.configuration message ⟨event, none⟩).1.Unapproved :=
    h.transition hask hevent
  exact Run.send_induction (fun _ _ h => ⟨h.read, h.value, h.writes, h.calls⟩) h htransition

theorem Run.Unapproved.begin (h : ρ.Unapproved) (restartsInvocation : Bool)
    {value : StateValue} (hvalue : value ≠ .creatingInstance) (version : ℕ) :
    (ρ.begin restartsInvocation value version).Unapproved :=
  ⟨h.read, hvalue, h.writes, by simp [Run.begin, hvalue, h.calls]⟩

theorem Run.Unapproved.resume (h : ρ.Unapproved)
    (hask : env.configuration.askForApproval = true) :
    (ρ.resume env r).Unapproved ∨
      (ρ.resume env r).phase = .running ∧ env.event r = "APPROVED_FROM_APPROVER" := by
  rw [Run.resume_eq]
  split
  · exact .inl ⟨h.read, h.value, h.writes, h.calls⟩
  · have hvalue : storedValue ρ.previousStateRecord ≠ .creatingInstance := by
      cases hrecord : ρ.previousStateRecord with
      | none => decide
      | some record => exact h.read record hrecord
    by_cases hevent : env.event r = "APPROVED_FROM_APPROVER"
    · exact .inr ⟨by simp [Run.begin], hevent⟩
    · exact .inl ((h.begin _ hvalue _).send hask hevent)

theorem createInstanceEvent_ne (error : Option RequestError) :
    (createInstanceEvent error).type ≠ "APPROVED_FROM_APPROVER" := by
  cases error with
  | none => decide
  | some error =>
      show createInstanceFailed ≠ "APPROVED_FROM_APPROVER"
      decide

/-- Two things lead a run to `creatingInstance`: the record it reads and the
approval as its own event. -/
theorem Run.Unapproved.step (h : ρ.Unapproved)
    (hask : env.configuration.askForApproval = true)
    (hcell : ∀ record, cell = some record → record.value ≠ .creatingInstance)
    (hstep : LocalStep env r cell ρ l ρ') :
    ρ'.Unapproved ∨ ρ'.phase = .running ∧ env.event r = "APPROVED_FROM_APPROVER" := by
  cases hstep with
  | applyEvent _ => exact .inl ⟨h.read, h.value, h.writes, h.calls⟩
  | read _ => exact .inl ⟨hcell, h.value, h.writes, h.calls⟩
  | readFails _ => exact .inl ⟨h.read, h.value, h.writes, h.calls⟩
  | resume _ => exact h.resume hask
  | createInstanceEnds error _ => exact .inl (h.transition hask (createInstanceEvent_ne error))
  | updateFails _ _ _ =>
      exact .inl ⟨h.read, h.value, Run.forall_modify_writes (fun _ hw => hw) h.writes, h.calls⟩
  | updateReturns _ _ =>
      obtain ⟨hwrites, -, hprev, -, hvalue, hcalls⟩ := ρ.updateReturns_frame (env.event r) _ _ _
      refine .inl ⟨?_, ?_, ?_, hcalls.trans h.calls⟩
      · rw [hprev]
        exact h.read
      · rw [hvalue]
        exact h.value
      · rw [hwrites]
        exact Run.forall_modify_writes (fun _ hw => hw) h.writes

end LocalStep

/-! ### All runs of a conversation -/

/-- A run of the conversation has been started whose event is the approval. -/
def System.Approved (env : Env ι) (s : System ι) (conversationId : String) : Prop :=
  ∃ r, (s.runs r).phase = .running ∧ env.conversationId r = conversationId ∧
    env.event r = "APPROVED_FROM_APPROVER"

structure System.Supervised (env : Env ι) (s : System ι) : Prop where
  runs : ∀ r, (s.runs r).Unapproved ∨ s.Approved env (env.conversationId r)
  db : ∀ conversationId record, s.db conversationId = some record →
    record.value ≠ .creatingInstance ∨ s.Approved env conversationId

theorem System.supervised_initial (env : Env ι) :
    (System.initial fun _ => none : System ι).Supervised env where
  runs r := by
    left
    constructor <;> simp [System.initial, Run.initial]
  db conversationId record h := by cases h

section System

variable [DecidableEq ι] {env : Env ι} {s s' : System ι} {l : Label ι}

theorem System.Approved.step {conversationId : String} (h : s.Approved env conversationId)
    (hstep : step env s l = some s') : s'.Approved env conversationId := by
  obtain ⟨q, hphase, hq⟩ := h
  refine ⟨q, ?_, hq⟩
  rcases step_cases hstep with ⟨r, ρ, hlocal, rfl⟩ | ⟨r, k, w, record, -, -, -, -, rfl⟩
  · rw [System.setRun_runs]
    split
    · rename_i hqr
      subst hqr
      exact hlocal.running hphase
    · exact hphase
  · rw [System.store_runs]
    split
    · rename_i hqr
      subst hqr
      exact hphase
    · exact hphase

theorem System.Supervised.step (h : s.Supervised env)
    (hask : env.configuration.askForApproval = true) (hstep : step env s l = some s') :
    s'.Supervised env := by
  have hkeep : ∀ conversationId, s.Approved env conversationId → s'.Approved env conversationId :=
    fun _ happroved => happroved.step hstep
  rcases step_cases hstep with ⟨r, ρ, hlocal, rfl⟩ | ⟨r, k, w, record, -, hw, -, hup, rfl⟩
  · constructor
    · intro q
      rcases h.runs q with hrun | happroved
      · by_cases hqr : q = r
        · subst hqr
          -- the run may read the record, which an approved conversation leaves open
          by_cases happroved : s.Approved env (env.conversationId q)
          · exact .inr (hkeep _ happroved)
          · have hcell : ∀ record, s.db (env.conversationId q) = some record →
                record.value ≠ .creatingInstance :=
              fun record hrecord => (h.db _ record hrecord).resolve_right happroved
            rcases hrun.step hask hcell hlocal with hrun' | ⟨hphase, hevent⟩
            · left
              rwa [System.setRun_runs, if_pos rfl]
            · right
              refine ⟨q, ?_, rfl, hevent⟩
              rwa [System.setRun_runs, if_pos rfl]
        · left
          rwa [System.setRun_runs, if_neg hqr]
      · exact .inr (hkeep _ happroved)
    · intro conversationId record hrecord
      exact (h.db conversationId record hrecord).imp_right (hkeep _)
  · constructor
    · intro q
      rcases h.runs q with hrun | happroved
      · left
        rw [System.store_runs]
        split
        · rename_i hqr
          subst hqr
          exact ⟨hrun.read, hrun.value, Run.forall_modify_writes (fun _ hw => hw) hrun.writes,
            hrun.calls⟩
        · exact hrun
      · exact .inr (hkeep _ happroved)
    · intro conversationId record' hrecord'
      rw [System.store_db] at hrecord'
      split at hrecord'
      · rename_i hconv
        obtain rfl := Option.some.inj hrecord'
        obtain ⟨rfl, -⟩ := upsert_eq_some_iff.mp hup
        rcases h.runs r with hrun | happroved
        · exact .inl (hrun.writes w (List.mem_of_getElem? hw))
        · rw [hconv]
          exact .inr (hkeep _ happroved)
      · exact (h.db conversationId record' hrecord').imp_right (hkeep _)

/-- With `askForApproval` set `createInstance` is invoked for a conversation only
after a message of the conversation with the type `APPROVED` from an `APPROVER`
has been applied. -/
theorem createInstance_approved (toUpperCase : String → String) (configuration : Configuration)
    (restartsInvocation : Bool) (message : ι → Message)
    (hask : configuration.askForApproval = true) (schedule : List (Label ι)) :
    Along (step (Env.receive toUpperCase configuration restartsInvocation message))
      (fun s => ∀ r, 0 < (s.runs r).createInstanceCalls →
        ∃ q, (s.runs q).phase = .running ∧
          (message q).conversationId = (message r).conversationId ∧
          toUpperCase (message q).type = "APPROVED" ∧
          toUpperCase (message q).senderRoleName = "APPROVER")
      (System.initial fun _ => none) schedule := by
  have hinv : Along (step (Env.receive toUpperCase configuration restartsInvocation message))
      (System.Supervised (Env.receive toUpperCase configuration restartsInvocation message))
      (System.initial fun _ => none) schedule :=
    along_of_invariant (fun s l s' h hstep => h.step hask hstep) (System.supervised_initial _)
      schedule
  refine hinv.mono fun s h r hcalls => ?_
  rcases h.runs r with hrun | ⟨q, hphase, hconv, hevent⟩
  · have := hrun.calls
    omega
  · exact ⟨q, hphase, hconv, eq_of_eventName hevent⟩

/-- `toUpperCase` on ASCII text. -/
def toUpperCaseAscii (text : String) : String := String.ofList (text.toList.map Char.toUpper)

/-- A conversation that is approved: its second message leads to the call. -/
theorem createInstance_approved_two :
    ∃ (message : Bool → Message) (schedule : List (Label Bool)),
      (exec (step (Env.receive toUpperCaseAscii ⟨true, false⟩ false message))
        (System.initial fun _ => none) schedule).map
          (fun s => (s.runs true).createInstanceCalls) = some 1 ∧
      Along (step (Env.receive toUpperCaseAscii ⟨true, false⟩ false message))
        (fun s => ∀ r, 0 < (s.runs r).createInstanceCalls →
          ∃ q, (s.runs q).phase = .running ∧
            (message q).conversationId = (message r).conversationId ∧
            toUpperCaseAscii (message q).type = "APPROVED" ∧
            toUpperCaseAscii (message q).senderRoleName = "APPROVER")
        (System.initial fun _ => none) schedule :=
  ⟨fun approval => if approval then ⟨"approved", "Approver", "conversation", some []⟩
      else ⟨"publishInstance", "Operator", "conversation", some []⟩,
    [.applyEvent false, .read false true, .resume false, .update false 0 true,
      .updateReturns false 0 fun _ => false, .applyEvent true, .read true true, .resume true],
    by decide,
    createInstance_approved toUpperCaseAscii ⟨true, false⟩ false _ rfl _⟩

end System

end I40Aas.OnboardingSkill
