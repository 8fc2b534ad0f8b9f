import I40Aas.Lib.Progress
import I40Aas.OnboardingSkill.Answers

/-!
How a run comes to its end and what it has said by then. Every step of a run is one of at
most eight, and as long as the run is not finished one of them is possible, whatever the
other runs do. A run that is finished has answered its message or sent something, unless the
machine does not react to the event, or its reaction has nothing to say and nothing came of
the instance.
-/

namespace I40Aas.OnboardingSkill

open I40Aas.Lib

variable {ι : Type*}

/-! ### The end of a run -/

/-- What is still to happen to a write. -/
def Write.remaining (w : Write) : ℕ :=
  if w.returned then 0 else if w.status = .pending then 2 else 1

/-- A bound on the steps that a run still takes. An invocation that ends leads to one more
write. -/
def Run.remaining (ρ : Run) : ℕ :=
  match ρ.phase with
  | .idle => 8
  | .reading => 7
  | .loaded => 6
  | .running | .ended => (ρ.writes.map Write.remaining).sum + if ρ.invoking then 3 else 0

section Transition

variable {configuration : Configuration} {message : Message} {event : Event} {env : Env ι}
  {r : ι} {ρ : Run} {target : StateValue} {as : List Action}

/-- An enabled transition takes place, unless its actions throw. -/
theorem Run.transition_of_enabled (message : Message) (event : Event)
    (h : Enabled configuration ρ.value event.type target as) :
    (target ≠ .creatingInstance ∧
        ρ.transition configuration message event = (ρ.enter target [], true)) ∨
      ∃ commands, (commands = [] ↔ as = []) ∧ ρ.transition configuration message event =
        ((ρ.enter target commands).issueWrite event.type, false) := by
  obtain ⟨t, hselect, rfl, rfl⟩ := select_of_enabled h
  obtain ⟨hthrew, hok⟩ := @runActions_of_enabled _ _ _ _ _ event message h
  by_cases ht : (runActions event message t.actions).threw = true
  · refine .inl ⟨?_, by simp [Run.transition, hselect, ht, (hthrew ht).1]⟩
    rintro htarget
    rw [htarget] at h
    exact (hthrew ht).2 h.into_creatingInstance.1
  · exact .inr ⟨_, hok (by simpa using ht), by simp [Run.transition, hselect, ht]⟩

theorem exists_enabled_createInstanceEvent (configuration : Configuration)
    (error : Option RequestError) : ∃ target as,
      Enabled configuration .creatingInstance (createInstanceEvent error).type target as := by
  cases error with
  | none =>
      cases htype : configuration.askForType with
      | false => exact ⟨_, _, .created htype⟩
      | true => exact ⟨_, _, .createdForType htype⟩
  | some error => exact ⟨_, _, .failed⟩

/-- The end of an invocation takes the machine out of `creatingInstance`. -/
theorem Run.createInstanceEnds_cases (env : Env ι) (r : ι) (h : ρ.WellFormed)
    (hinvoking : ρ.invoking = true) (error : Option RequestError) :
    ∃ target commands, target ≠ .creatingInstance ∧
      (ρ.createInstanceEnds env r error = ρ.enter target [] ∨
        ρ.createInstanceEnds env r error =
          (ρ.enter target commands).issueWrite (createInstanceEvent error).type) := by
  obtain ⟨target, as, hen⟩ := exists_enabled_createInstanceEvent env.configuration error
  have hvalue : ρ.value = .creatingInstance := (h.invoking hinvoking).2.1
  have htarget := hen.out_of_creatingInstance.1
  rw [← hvalue] at hen
  rcases Run.transition_of_enabled (env.message r) (createInstanceEvent error) hen with
    ⟨-, heq⟩ | ⟨commands, -, heq⟩
  · exact ⟨target, [], htarget, .inl (congrArg Prod.fst heq)⟩
  · exact ⟨target, commands, htarget, .inr (congrArg Prod.fst heq)⟩

end Transition

section Remaining

variable {configuration : Configuration} {message : Message} {env : Env ι} {r : ι}
  {cell : Option IStateRecord} {l : Label ι} {ρ ρ' : Run} {k : ℕ} {w : Write}

theorem Run.remaining_running (hphase : ρ.phase = .running) :
    ρ.remaining = (ρ.writes.map Write.remaining).sum + if ρ.invoking then 3 else 0 := by
  rw [Run.remaining, hphase]

theorem Run.remaining_enter (hphase : ρ.phase = .running) (target : StateValue)
    (commands : List Command) : (ρ.enter target commands).remaining =
      (ρ.writes.map Write.remaining).sum + if target = .creatingInstance then 3 else 0 := by
  have hentered : (ρ.enter target commands).phase = .running := hphase
  rw [Run.remaining_running hentered]
  simp [Run.enter]

theorem Run.remaining_issueWrite (hphase : ρ.phase = .running) (type : String) :
    (ρ.issueWrite type).remaining = ρ.remaining + 2 := by
  have hissued : (ρ.issueWrite type).phase = .running := hphase
  rw [Run.remaining_running hissued, Run.remaining_running hphase]
  simp only [Run.issueWrite, List.map_append, List.sum_append, List.map_cons, List.map_nil,
    List.sum_cons, List.sum_nil, Write.remaining, Bool.false_eq_true, if_false, if_true]
  exact Nat.add_right_comm _ _ _

theorem Run.remaining_createInstanceEnds (h : ρ.WellFormed) (hinvoking : ρ.invoking = true)
    (error : Option RequestError) : (ρ.createInstanceEnds env r error).remaining < ρ.remaining := by
  obtain ⟨hphase, -⟩ := h.invoking hinvoking
  obtain ⟨target, commands, htarget, heq | heq⟩ :=
    Run.createInstanceEnds_cases env r h hinvoking error
  · rw [heq, Run.remaining_enter hphase, if_neg htarget, Run.remaining_running hphase,
      if_pos hinvoking]
    omega
  · have hentered : (ρ.enter target commands).phase = .running := hphase
    rw [heq, Run.remaining_issueWrite hentered, Run.remaining_enter hphase, if_neg htarget,
      Run.remaining_running hphase, if_pos hinvoking]
    omega

/-- A run that has just been started has at most an invocation and a write before it. -/
theorem Run.remaining_resume (env : Env ι) (r : ι) (h : ρ.WellFormed) (hphase : ρ.phase = .loaded) :
    (ρ.resume env r).remaining ≤ 5 := by
  obtain ⟨hwrites, hinvoking, -, -⟩ := h.quiet (by simp [hphase])
  rw [Run.resume_eq]
  split
  · simp [Run.remaining, Run.reply, hwrites, hinvoking]
  · refine Run.send_induction (P := fun ρ' => ρ'.remaining ≤ 5) (fun _ _ h => h) ?_ ?_
    · rw [Run.remaining_running rfl]
      simp only [Run.begin, hwrites, List.map_nil, List.sum_nil]
      split <;> omega
    · rcases Run.transition_cases env.configuration (env.message r) ⟨env.event r, none⟩
        (ρ.begin env.restartsInvocation (storedValue ρ.previousStateRecord)
          (expectedVersion ρ.previousStateRecord)) with
        heq | ⟨target, as, -, -, heq⟩ | ⟨target, as, commands, -, -, heq⟩
      · rw [heq, Run.remaining_running rfl]
        simp only [Run.begin, hwrites, List.map_nil, List.sum_nil]
        split <;> omega
      · rw [heq, Run.remaining_enter rfl]
        simp only [Run.begin, hwrites, List.map_nil, List.sum_nil]
        split <;> omega
      · rw [heq, Run.remaining_issueWrite rfl, Run.remaining_enter rfl]
        simp only [Run.begin, hwrites, List.map_nil, List.sum_nil]
        split <;> omega

/-- What happens to a write leaves less to happen. -/
theorem Run.remaining_modify (h : ρ.WellFormed) (hw : ρ.writes[k]? = some w)
    (hwrites : ∃ f : Write → Write, ρ'.writes = ρ.writes.modify k f ∧
      (f w).remaining < w.remaining) (hphase : ρ'.phase = ρ.phase)
    (hinvoking : ρ'.invoking = ρ.invoking) : ρ'.remaining < ρ.remaining := by
  obtain ⟨f, hwrites, hlt⟩ := hwrites
  have hrunning := h.running_of_write hw
  have hsum := sum_modify Write.remaining (f := f) hw
  rw [Run.remaining_running (hphase.trans hrunning), Run.remaining_running hrunning, hwrites,
    hinvoking]
  omega

/-- A step of a run leaves less to happen, whatever it finds in the database. -/
theorem LocalStep.remaining_lt (hstep : LocalStep env r cell ρ l ρ') (h : ρ.WellFormed)
    (hunreturned : ∀ k throws, l = .updateReturns r k throws →
      ∀ w, ρ.writes[k]? = some w → w.returned = false)
    (hpending : ∀ w ∈ ρ.writes, w.status = .pending → w.returned = false) :
    ρ'.remaining < ρ.remaining := by
  cases hstep with
  | applyEvent hphase => simp [Run.remaining, hphase]
  | read hphase => simp [Run.remaining, hphase]
  | readFails hphase =>
      obtain ⟨hwrites, hinvoking, -, -⟩ := h.quiet (by simp [hphase])
      simp [Run.remaining, Run.reply, hphase, hwrites, hinvoking]
  | resume hphase =>
      have hresume := Run.remaining_resume env r h hphase
      have hloaded : ρ.remaining = 6 := by rw [Run.remaining, hphase]
      omega
  | createInstanceEnds error hinvoking => exact Run.remaining_createInstanceEnds h hinvoking error
  | updateFails hw hstatus hsettled =>
      have hreturned := hpending _ (List.mem_of_getElem? hw) hstatus
      refine Run.remaining_modify h hw ⟨_, rfl, ?_⟩ rfl rfl
      rcases hsettled with ⟨-, rfl⟩ | ⟨rfl, -⟩ <;> simp [Write.remaining, hreturned, hstatus]
  | updateReturns hw hstatus =>
      obtain ⟨hwrites, hphase, -⟩ := ρ.updateReturns_frame (env.event r) _ _ _
      refine Run.remaining_modify h hw ⟨_, hwrites, ?_⟩ hphase ?_
      · simp [Write.remaining, hunreturned _ _ rfl _ hw, hstatus]
      · simp only [Run.updateReturns]
        split_ifs <;> rfl

end Remaining

section System

variable [DecidableEq ι] {env : Env ι} {s s' : System ι} {l : Label ι} {r : ι}

/-- A step leaves less to happen to its run, and the others are left alone. -/
theorem remaining_step (h : s.Attributed env) (hstep : step env s l = some s') (r : ι) :
    (s'.runs r).remaining + (if l.run = r then 1 else 0) ≤ (s.runs r).remaining := by
  rcases step_cases hstep with ⟨q, ρ, hlocal, rfl⟩ | ⟨q, k, w, record, rfl, hw, hpending, -, rfl⟩
  · have hrun : l.run = q := by cases hlocal <;> rfl
    rw [System.setRun_runs, hrun]
    by_cases hq : r = q
    · subst hq
      rw [if_pos rfl, if_pos rfl]
      refine hlocal.remaining_lt (h.wellFormed r) ?_ (h.attributed r).unreturned
      rintro k throws rfl w hw
      obtain ⟨w', hw', hreturned, -⟩ := step_updateReturns hstep
      obtain rfl := Option.some.inj (hw.symm.trans hw')
      exact hreturned
    · rw [if_neg hq, if_neg (Ne.symm hq)]
      exact Nat.le_refl _
  · show _ + (if q = r then 1 else 0) ≤ _
    rw [System.store_runs]
    by_cases hq : r = q
    · subst hq
      have hreturned := (h.attributed r).unreturned w (List.mem_of_getElem? hw) hpending
      rw [if_pos rfl, if_pos rfl]
      refine Run.remaining_modify (h.wellFormed r) hw ⟨_, rfl, ?_⟩ rfl rfl
      simp [Write.remaining, hreturned, hpending]
    · rw [if_neg hq, if_neg (Ne.symm hq)]
      exact Nat.le_refl _

/-- A run that is not finished can take a step, whatever the others have done. -/
theorem exists_step_of_not_finished (env : Env ι) (h : ¬ (s.runs r).Finished) :
    ∃ l, l.run = r ∧ (step env s l).isSome = true := by
  cases hphase : (s.runs r).phase with
  | idle => exact ⟨.applyEvent r, rfl, by simp [step, hphase]⟩
  | reading => exact ⟨.read r true, rfl, by simp [step, hphase]⟩
  | loaded => exact ⟨.resume r, rfl, by simp [step, hphase]⟩
  | _ =>
      by_cases hinvoking : (s.runs r).invoking = true
      · exact ⟨.createInstanceEnds r none, rfl, by simp [step, hinvoking]⟩
      · obtain ⟨w, hmem, hreturned⟩ : ∃ w ∈ (s.runs r).writes, w.returned ≠ true := by
          by_contra hno
          exact h ⟨by simp [hphase], by simpa using hinvoking,
            fun w hw => by_contra fun hne => hno ⟨w, hw, hne⟩⟩
        obtain ⟨k, hw⟩ := List.mem_iff_getElem?.mp hmem
        by_cases hpending : w.status = .pending
        · exact ⟨.update r k false, rfl, by simp [step, hw, hpending]⟩
        · exact ⟨.updateReturns r k fun _ => false, rfl, by
            simpa [step, hw, hpending] using hreturned⟩

/-- Nothing happens any more in a run that is finished. -/
theorem Run.Finished.not_step (h : (s.runs r).Finished) (hattributed : s.Attributed env)
    (hrun : l.run = r) : step env s l = none := by
  cases hstep : step env s l with
  | none => rfl
  | some s' =>
      have hsteps := remaining_step hattributed hstep r
      rw [if_pos hrun] at hsteps
      have hzero : (s.runs r).remaining = 0 := by
        have hwrites : ((s.runs r).writes.map Write.remaining).sum = 0 := by
          refine List.sum_eq_zero_iff_forall_eq_nat.mpr fun n hn => ?_
          obtain ⟨w, hw, rfl⟩ := List.mem_map.mp hn
          rw [Write.remaining, if_pos (h.writes w hw)]
        rcases h.returned with hphase | hphase <;>
          simp [Run.remaining, hphase, hwrites, h.invoking]
      omega

theorem attributed_of_exec {db : String → Option IStateRecord} {ls : List (Label ι)}
    (hexec : exec (step env) (System.initial db) ls = some s) : s.Attributed env :=
  (along_of_invariant (fun _ _ _ h hstep => System.Attributed.step h hstep)
    ⟨fun _ => Run.wellFormed_initial, fun _ => Run.attributed_initial _⟩ ls).exec_eq hexec

/-- In every run of the system an `applyEvent` takes at most eight steps, it has finished
exactly when it has no step left, and by itself it comes to its end from wherever it is,
whatever the other runs have done. -/
theorem applyEvent_ends {db : String → Option IStateRecord} {ls : List (Label ι)}
    (hexec : exec (step env) (System.initial db) ls = some s) (r : ι) :
    (ls.filter (·.run = r)).length ≤ 8 ∧
      ((s.runs r).Finished ↔ ∀ l : Label ι, l.run = r → step env s l = none) ∧
      ∃ later s', (∀ l ∈ later, l.run = r) ∧ exec (step env) s later = some s' ∧
        (s'.runs r).Finished := by
  have hkeeps : ∀ (s : System ι) (l : Label ι) (s' : System ι), s.Attributed env →
      step env s l = some s' → s'.Attributed env := fun _ _ _ h hstep => h.step hstep
  have hattributed := attributed_of_exec hexec
  refine ⟨?_, ⟨fun h l hl => h.not_step hattributed hl, fun h => ?_⟩, ?_⟩
  · have hsteps := length_filter_add_le (fun l : Label ι => decide (l.run = r))
      (fun s : System ι => (s.runs r).remaining) hkeeps
      (fun s l s' h hstep => by simpa using remaining_step h hstep r)
      ⟨fun _ => Run.wellFormed_initial, fun _ => Run.attributed_initial _⟩ hexec
    have hsupply : ((System.initial db : System ι).runs r).remaining = 8 := rfl
    omega
  · by_contra hfinished
    obtain ⟨l, hl, hsome⟩ := exists_step_of_not_finished env hfinished
    rw [h l hl] at hsome
    cases hsome
  · refine exists_exec_of_supply (fun l : Label ι => l.run = r)
      (fun s : System ι => (s.runs r).remaining) hkeeps (fun s l s' h hl hstep => ?_)
      (fun s _ hno => exists_step_of_not_finished env hno) hattributed
    have hsteps := remaining_step h hstep r
    rw [if_pos hl] at hsteps
    exact hsteps

/-- The instance is created, but the database cannot be reached for the write of this. -/
def lostOutcomeSchedule : List (Label Unit) :=
  [.applyEvent (), .read () true, .resume (), .update () 0 true,
    .updateReturns () 0 fun _ => false, .createInstanceEnds () none, .update () 1 false,
    .updateReturns () 1 fun _ => false]

/-- A run that takes all eight steps. -/
theorem applyEvent_ends_lostOutcome :
    ∃ s, exec (step brieflyUnreachable) (System.initial fun _ => none)
        lostOutcomeSchedule = some s ∧
      ((s.runs ()).Finished ↔ ∀ l : Label Unit, step brieflyUnreachable s l = none) ∧
      ∃ later s', exec (step brieflyUnreachable) s later = some s' ∧ (s'.runs ()).Finished := by
  have hsome : (exec (step brieflyUnreachable) (System.initial fun _ => none)
      lostOutcomeSchedule).isSome = true := by decide
  obtain ⟨s, hexec⟩ := Option.isSome_iff_exists.mp hsome
  obtain ⟨-, hiff, later, s', -, hlater, hfinished⟩ := applyEvent_ends hexec ()
  refine ⟨s, hexec, ⟨fun h l => hiff.mp h l rfl, fun h => hiff.mpr fun l _ => h l⟩, ?_⟩
  exact ⟨later, s', hlater, hfinished⟩

end System

/-! ### What a run has said -/

/-- The machine has reacted to the event with a first write, and what the actions had to say
is queued or sent. -/
def Run.Reacted (event : String) (target : StateValue) (as : List Action) (ρ : Run) : Prop :=
  ∃ w, ρ.writes[0]? = some w ∧ w.state = target ∧ w.eventType = event ∧
    (as = [] ∨ ρ.commandCollector ≠ [] ∨ ρ.sent ≠ [])

/-- Once the listener has gone on after the last write and found it stored, nothing is queued
that has not had its turn. -/
def Run.Committed (ρ : Run) : Prop :=
  ∀ k w, ρ.writes[k]? = some w → k + 1 = ρ.writes.length → w.status = .stored →
    w.returned = true → ρ.commandCollector ≠ [] → ρ.sent ≠ []

/-- A run answers when it ends without an interpreter, when no state knows its event and when
an action throws; otherwise it has reacted. -/
structure Run.Accountable (env : Env ι) (r : ι) (ρ : Run) : Prop where
  ended : ρ.phase = .ended → ρ.replies ≠ []
  declared : ρ.phase = .running → env.event r ∈ declaredEvents ∨ ρ.replies ≠ []
  reacted : ρ.phase = .running → ∀ target as,
    Enabled env.configuration (storedValue ρ.previousStateRecord) (env.event r) target as →
      ρ.Reacted (env.event r) target as ∨ ρ.replies ≠ []
  committed : ρ.Committed

section Accountable

variable {env : Env ι} {r : ι} {cell : Option IStateRecord} {l : Label ι} {ρ ρ' : Run}
  {k : ℕ} {w : Write}

theorem Run.Committed.of_quiet (hwrites : ρ.writes = []) : ρ.Committed := by
  intro k w hw
  rw [hwrites] at hw
  cases hw

theorem Run.Committed.transition (h : ρ.Committed) (configuration : Configuration)
    (message : Message) (event : Event) :
    (ρ.transition configuration message event).1.Committed := by
  rcases Run.transition_cases configuration message event ρ with
    heq | ⟨target, as, -, -, heq⟩ | ⟨target, as, commands, -, -, heq⟩
  · rw [heq]
    exact h
  · rw [heq]
    intro k w hw hlast hstored hreturned hne
    exact h k w hw hlast hstored hreturned (by simpa [Run.enter] using hne)
  · rw [heq]
    intro k w hw hlast hstored
    -- the last write has only just been issued
    obtain rfl : k = ρ.writes.length := by simpa [Run.issueWrite, Run.enter] using hlast
    simp only [Run.issueWrite, Run.enter, List.getElem?_concat_length, Option.some.injEq] at hw
    rw [← hw] at hstored
    cases hstored

theorem Run.Accountable.of_quiet (hphase : ρ.phase ≠ .running) (hwrites : ρ.writes = [])
    (hended : ρ.phase = .ended → ρ.replies ≠ []) : ρ.Accountable env r :=
  ⟨hended, fun hrunning => absurd hrunning hphase, fun hrunning => absurd hrunning hphase,
    .of_quiet hwrites⟩

theorem Run.Accountable.of_replied (hreplies : ρ.replies ≠ []) (hcommitted : ρ.Committed) :
    ρ.Accountable env r :=
  ⟨fun _ => hreplies, fun _ => .inr hreplies, fun _ _ _ _ => .inr hreplies, hcommitted⟩

/-- What an interpreter that goes on has to keep. -/
theorem Run.Accountable.next (h : ρ.Accountable env r) (hphase : ρ'.phase = ρ.phase)
    (hprev : ρ'.previousStateRecord = ρ.previousStateRecord) (hreplies : ρ.replies ⊆ ρ'.replies)
    (hfirst : ∀ w, ρ.writes[0]? = some w → ∃ w', ρ'.writes[0]? = some w' ∧
      w'.state = w.state ∧ w'.eventType = w.eventType)
    (hspoken : ρ.commandCollector ≠ [] ∨ ρ.sent ≠ [] →
      ρ'.commandCollector ≠ [] ∨ ρ'.sent ≠ [])
    (hcommitted : ρ'.Committed) : ρ'.Accountable env r := by
  have hanswered : ρ.replies ≠ [] → ρ'.replies ≠ [] := by
    intro hne hnil
    rw [hnil] at hreplies
    exact hne (List.subset_nil.mp hreplies)
  refine ⟨fun hended => ?_, fun hrunning => ?_, fun hrunning target as hen => ?_, hcommitted⟩
  · exact hanswered (h.ended (hphase.symm.trans hended))
  · exact (h.declared (hphase.symm.trans hrunning)).imp_right hanswered
  · rw [hprev] at hen
    rcases h.reacted (hphase.symm.trans hrunning) target as hen with
      ⟨w, hw, hstate, htype, hqueued⟩ | hreplied
    · obtain ⟨w', hw', hstate', htype'⟩ := hfirst w hw
      exact .inl ⟨w', hw', hstate'.trans hstate, htype'.trans htype, hqueued.imp_right hspoken⟩
    · exact .inr (hanswered hreplied)

/-- A started interpreter that is sent its event accounts for it. -/
theorem Run.Accountable.send (hphase : ρ.phase = .running) (hwrites : ρ.writes = [])
    (hvalue : ρ.value = storedValue ρ.previousStateRecord) :
    (ρ.send env.configuration (env.message r) (env.event r)).Accountable env r := by
  have hcommitted := (Run.Committed.of_quiet hwrites).transition env.configuration
    (env.message r) ⟨env.event r, none⟩
  unfold Run.send
  split
  · rename_i hdeclared
    dsimp only
    split
    · exact .of_replied (List.concat_ne_nil _ _) hcommitted
    · rename_i hthrew
      refine ⟨fun hended => ?_, fun _ => .inl hdeclared, fun _ target as hen => ?_, hcommitted⟩
      · rw [Run.transition_phase, hphase] at hended
        cases hended
      · rw [(Run.transition_frame _ _ _ ρ).previousStateRecord, ← hvalue] at hen
        rcases Run.transition_of_enabled (env.message r) ⟨env.event r, none⟩
          hen with ⟨-, heq⟩ | ⟨commands, hcommands, heq⟩
        · rw [heq] at hthrew
          exact absurd rfl hthrew
        · rw [heq]
          refine .inl ⟨⟨ρ.versionCounter, target, env.event r, .pending, false⟩, ?_, rfl, rfl, ?_⟩
          · simp [Run.issueWrite, Run.enter, hwrites]
          · by_cases has : as = []
            · exact .inl has
            · refine .inr (.inl fun hnil => has (hcommands.mp ?_))
              simpa [Run.issueWrite, Run.enter] using (List.append_eq_nil_iff.mp hnil).2
  · exact .of_replied (List.concat_ne_nil _ _) (.of_quiet hwrites)

/-- A transition adds to what there is. -/
theorem Run.Accountable.transition (h : ρ.Accountable env r) (configuration : Configuration)
    (message : Message) (event : Event) :
    (ρ.transition configuration message event).1.Accountable env r := by
  have hcommitted := h.committed.transition configuration message event
  rcases Run.transition_cases configuration message event ρ with
    heq | ⟨target, as, -, -, heq⟩ | ⟨target, as, commands, -, -, heq⟩
  · rw [heq]
    exact h
  · rw [heq] at hcommitted ⊢
    refine h.next rfl rfl (List.Subset.refl _) (fun w hw => ⟨w, hw, rfl, rfl⟩) ?_ hcommitted
    exact fun hspoken => hspoken.imp_left fun hne => by simpa [Run.enter] using hne
  · rw [heq] at hcommitted ⊢
    refine h.next rfl rfl (List.Subset.refl _) (fun w hw => ⟨w, ?_, rfl, rfl⟩) ?_ hcommitted
    · have hpos := (List.getElem?_eq_some_iff.mp hw).1
      exact (List.getElem?_append_left hpos).trans hw
    · exact fun hspoken => hspoken.imp_left fun hne hnil =>
        hne (List.append_eq_nil_iff.mp hnil).1

/-- How a write stands has no part in what a run accounts for, as long as it has not returned
as stored. -/
theorem Run.Accountable.settle (h : ρ.Accountable env r) (hw : ρ.writes[k]? = some w)
    (hreturned : w.returned = false) (status : WriteStatus) :
    (ρ.settle k status).Accountable env r := by
  refine h.next rfl rfl (List.Subset.refl _) ?_ id ?_
  · intro w' hw'
    by_cases hk : k = 0
    · exact ⟨{ w' with status := status }, by simp [Run.settle, hw', hk], rfl, rfl⟩
    · exact ⟨w', by simp [Run.settle, hw', hk], rfl, rfl⟩
  · intro j w' hw' hlast hstored hreturned'
    by_cases hj : k = j
    · subst hj
      simp only [Run.settle, List.getElem?_modify, hw, if_true, Option.map_eq_map,
        Option.map_some, Option.some.injEq] at hw'
      rw [← hw'] at hreturned'
      exact absurd (hreturned'.symm.trans hreturned) (by decide)
    · refine h.committed j w' ?_ (by simpa [Run.settle] using hlast) hstored hreturned'
      simpa [Run.settle, hj] using hw'

/-- What a commit has not taken out stays queued. -/
theorem Run.updateReturns_commandCollector (ρ : Run) (event : String) (k : ℕ) (w : Write)
    (throws : Command → Bool) : (ρ.updateReturns event k w throws).commandCollector =
      if w.status = .stored then
        (commit (fun c => c.2 = .requestTypeFromManufacturer || throws c.2)
          ρ.commandCollector).left
      else ρ.commandCollector := by
  simp only [Run.updateReturns]
  split_ifs <;> rfl

/-- After a stored write the listener has sent something, if there was something to say. -/
theorem Run.Accountable.updateReturns (h : ρ.Accountable env r) (hw : ρ.writes[k]? = some w)
    (throws : Command → Bool) :
    (ρ.updateReturns (env.event r) k w throws).Accountable env r := by
  obtain ⟨hwrites, hphase, hprev, -⟩ := ρ.updateReturns_frame (env.event r) k w throws
  have hsent := ρ.updateReturns_sent (env.event r) k w throws
  have hcollector := ρ.updateReturns_commandCollector (env.event r) k w throws
  have hreplies : ρ.replies ⊆ (ρ.updateReturns (env.event r) k w throws).replies := by
    simp only [Run.updateReturns]
    split_ifs <;> simp [Run.reply]
  have hfirst : ∀ w', ρ.writes[0]? = some w' → ∃ w'',
      (ρ.updateReturns (env.event r) k w throws).writes[0]? = some w'' ∧
        w''.state = w'.state ∧ w''.eventType = w'.eventType := by
    intro w' hw'
    rw [hwrites, List.getElem?_modify, hw']
    exact ⟨_, rfl, by split <;> rfl, by split <;> rfl⟩
  by_cases hstored : w.status = .stored
  · rw [if_pos hstored] at hsent hcollector
    have hsaid : ρ.commandCollector ≠ [] ∨ ρ.sent ≠ [] →
        (ρ.updateReturns (env.event r) k w throws).sent ≠ [] := by
      rw [hsent]
      rintro (hne | hne)
      · obtain ⟨c, cs, hcs⟩ := List.exists_cons_of_ne_nil hne
        rw [hcs]
        exact List.ne_nil_of_mem (List.mem_append_right _ (commit_performed_cons _ c cs))
      · exact List.append_ne_nil_of_left_ne_nil hne _
    refine h.next hphase hprev hreplies hfirst (fun hspoken => .inr (hsaid hspoken)) ?_
    intro _ _ _ _ _ _ hne
    refine hsaid (.inl fun hnil => hne ?_)
    rw [hcollector, hnil]
    rfl
  · rw [if_neg hstored] at hsent hcollector
    refine h.next hphase hprev hreplies hfirst (by rw [hsent, hcollector]; exact id) ?_
    intro j w' hw' hlast hstored' hreturned
    rw [hwrites, List.length_modify] at hlast
    rw [hwrites] at hw'
    rw [hsent, hcollector]
    by_cases hj : k = j
    · subst hj
      obtain rfl : { w with returned := true } = w' := by simpa [hw] using hw'
      exact absurd hstored' hstored
    · exact h.committed j w' (by simpa [hj] using hw') hlast hstored' hreturned

theorem Run.Accountable.step (h : ρ.Accountable env r) (hwf : ρ.WellFormed)
    (hpending : ∀ w ∈ ρ.writes, w.status = .pending → w.returned = false)
    (hstep : LocalStep env r cell ρ l ρ') : ρ'.Accountable env r := by
  cases hstep with
  | applyEvent hphase =>
      have hwrites := (hwf.quiet (by simp [hphase])).1
      exact .of_quiet (by simp) hwrites fun hended => by cases hended
  | read hphase =>
      have hwrites := (hwf.quiet (by simp [hphase])).1
      exact .of_quiet (by simp) hwrites fun hended => by cases hended
  | readFails hphase =>
      have hwrites := (hwf.quiet (by simp [hphase])).1
      exact .of_quiet (by simp) hwrites fun _ => List.concat_ne_nil _ _
  | resume hphase =>
      have hwrites := (hwf.quiet (by simp [hphase])).1
      rw [Run.resume_eq]
      split
      · exact .of_quiet (by simp) hwrites fun _ => List.concat_ne_nil _ _
      · exact .send rfl hwrites rfl
  | createInstanceEnds error _ => exact h.transition _ _ _
  | updateFails hw hstatus _ =>
      exact h.settle hw (hpending _ (List.mem_of_getElem? hw) hstatus) _
  | updateReturns hw _ => exact h.updateReturns hw _

/-- A write whose turn is over is stored or given up. -/
theorem Run.Attributed.stored_or_gaveUp {event : String} (h : ρ.Attributed event)
    (hfinished : ρ.Finished) (hw : w ∈ ρ.writes) : w.status = .stored ∨ w.gaveUp = true := by
  have hreturned := hfinished.writes w hw
  cases hstatus : w.status with
  | pending =>
      have hunreturned := h.unreturned w hw hstatus
      exact absurd (hreturned.symm.trans hunreturned) (by decide)
  | stored => exact .inl rfl
  | duplicateKey => exact .inr (Write.gaveUp_iff.mpr ⟨.inl hstatus, hreturned⟩)
  | unreachable => exact .inr (Write.gaveUp_iff.mpr ⟨.inr hstatus, hreturned⟩)

/-- A finished run that has sent nothing has nothing left to say once its last write is
stored. -/
theorem Run.Committed.commandCollector_eq_nil (h : ρ.Committed) (hfinished : ρ.Finished)
    (hsent : ρ.sent = []) (hw : ρ.writes[k]? = some w) (hk : k + 1 = ρ.writes.length)
    (hstored : w.status = .stored) : ρ.commandCollector = [] := by
  by_contra hne
  exact h k w hw hk hstored (hfinished.writes w (List.mem_of_getElem? hw)) hne hsent

/-- A reaction that is not heard of has nothing to say for itself, and what follows it is not
stored. -/
theorem Run.Committed.silent {configuration : Configuration} {v target : StateValue}
    {event : String} {as : List Action} (h : ρ.Committed) (hwf : ρ.WellFormed)
    (hattributed : ρ.Attributed event) (hfinished : ρ.Finished) (hreplies : ρ.replies = [])
    (hsent : ρ.sent = []) (hen : Enabled configuration v event target as)
    (hreacted : ρ.Reacted event target as) :
    as = [] ∧ ∃ w later, ρ.writes = w :: later ∧ w.state = target ∧ w.status = .stored ∧
      ∀ w' ∈ later, w'.gaveUp = true := by
  obtain ⟨w, hw, rfl, htype, hqueued⟩ := hreacted
  have hmem := List.mem_of_getElem? hw
  have hpos := (List.getElem?_eq_some_iff.mp hw).1
  have hle := hwf.length_le
  have hstored : w.status = .stored := by
    refine (hattributed.stored_or_gaveUp hfinished hmem).resolve_right fun hgaveUp => ?_
    have herror := hattributed.replied w hmem hgaveUp htype
    rw [hreplies] at herror
    cases herror
  have hnil : as = [] := by
    by_contra hne
    have hcollector := (hqueued.resolve_left hne).resolve_right fun hno => hno hsent
    have hlength : 0 + 1 = ρ.writes.length := by
      by_contra hlt
      have hcreating := hwf.earlier 0 w hw (by omega)
      rw [hcreating] at hen
      exact hne hen.into_creatingInstance.1
    exact hcollector (h.commandCollector_eq_nil hfinished hsent hw hlength hstored)
  obtain ⟨later, hwrites⟩ : ∃ later, ρ.writes = w :: later := by
    cases hwrites : ρ.writes with
    | nil => simp [hwrites] at hw
    | cons w' later =>
        obtain rfl : w' = w := by simpa [hwrites] using hw
        exact ⟨later, rfl⟩
  refine ⟨hnil, w, later, hwrites, rfl, hstored, fun w' hw' => ?_⟩
  have hmem' : w' ∈ ρ.writes := by
    rw [hwrites]
    exact List.mem_cons_of_mem _ hw'
  refine (hattributed.stored_or_gaveUp hfinished hmem').resolve_left fun hstored' => ?_
  -- the second write is the last one, and what it answers is queued or sent
  have hlast : later = [w'] := by
    rw [hwrites, List.length_cons] at hle
    obtain ⟨w₁, rfl⟩ := List.length_eq_one_iff.mp
      (show later.length = 1 by have := List.length_pos_of_mem hw'; omega)
    rw [List.mem_singleton.mp hw']
  have hlength : 1 + 1 = ρ.writes.length := by rw [hwrites, hlast]; rfl
  have hcollector := h.commandCollector_eq_nil hfinished hsent (k := 1) (w := w')
    (by rw [hwrites, hlast]; rfl) hlength hstored'
  rcases hwf.answered hlength.symm with hne | hne
  · exact hne hcollector
  · exact hne hsent

end Accountable

section System

variable [DecidableEq ι] {env : Env ι} {s s' : System ι} {l : Label ι}

structure System.Accountable (env : Env ι) (s : System ι) : Prop where
  attributed : s.Attributed env
  accountable : ∀ r, (s.runs r).Accountable env r

theorem System.Accountable.step (h : s.Accountable env) (hstep : step env s l = some s') :
    s'.Accountable env := by
  refine ⟨h.attributed.step hstep, fun q => ?_⟩
  rcases step_cases hstep with ⟨r, ρ, hlocal, rfl⟩ | ⟨r, k, w, record, -, hw, hpending, -, rfl⟩
  · rw [System.setRun_runs]
    split
    · rename_i hq
      subst hq
      exact (h.accountable q).step (h.attributed.wellFormed q)
        (h.attributed.attributed q).unreturned hlocal
    · exact h.accountable q
  · rw [System.store_runs]
    split
    · rename_i hq
      subst hq
      have hreturned := (h.attributed.attributed q).unreturned w (List.mem_of_getElem? hw) hpending
      have hsettled := (h.accountable q).settle hw hreturned .stored
      exact ⟨hsettled.ended, hsettled.declared, hsettled.reacted, hsettled.committed⟩
    · exact h.accountable q

theorem accountable_of_exec {db : String → Option IStateRecord} {ls : List (Label ι)}
    (hexec : exec (OnboardingSkill.step env) (System.initial db) ls = some s) :
    s.Accountable env :=
  (along_of_invariant (fun _ _ _ h hstep => System.Accountable.step h hstep)
    ⟨⟨fun _ => Run.wellFormed_initial, fun _ => Run.attributed_initial _⟩,
      fun _ => .of_quiet (fun hrunning => by cases hrunning) rfl
        fun hended => by cases hended⟩ ls).exec_eq hexec

/-- In every run of the system, an `applyEvent` that has finished without any answer has found
the conversation in a state that does not react to its event, though another state does, or
in one whose reaction has nothing to say for itself. Then its first write is stored, and
if it has made the machine create an instance, the write of the outcome has failed or was
never issued. -/
theorem silent_of_finished {db : String → Option IStateRecord} {ls : List (Label ι)} {r : ι}
    (hexec : exec (step env) (System.initial db) ls = some s) (hfinished : (s.runs r).Finished)
    (hreplies : (s.runs r).replies = []) (hsent : (s.runs r).sent = []) :
    env.event r ∈ declaredEvents ∧
      ((∀ target as, ¬ Enabled env.configuration (storedValue (s.runs r).previousStateRecord)
          (env.event r) target as) ∨
        ∃ target w later, Enabled env.configuration
            (storedValue (s.runs r).previousStateRecord) (env.event r) target [] ∧
          (s.runs r).writes = w :: later ∧ w.state = target ∧ w.status = .stored ∧
          ∀ w' ∈ later, w'.gaveUp = true) := by
  obtain ⟨⟨hwf, hattributed⟩, haccountable⟩ := accountable_of_exec hexec
  have hno : ¬ (s.runs r).replies ≠ [] := fun hne => hne hreplies
  have hphase : (s.runs r).phase = .running :=
    hfinished.returned.resolve_left fun hended => hno ((haccountable r).ended hended)
  refine ⟨((haccountable r).declared hphase).resolve_right hno, ?_⟩
  by_cases hen : ∃ target as, Enabled env.configuration
      (storedValue (s.runs r).previousStateRecord) (env.event r) target as
  · obtain ⟨target, as, hen⟩ := hen
    have hreacted := ((haccountable r).reacted hphase target as hen).resolve_right hno
    obtain ⟨rfl, w, later, hwrites, hstate, hstored, hlater⟩ :=
      (haccountable r).committed.silent (hwf r) (hattributed r) hfinished hreplies hsent hen
        hreacted
    exact .inr ⟨target, w, later, hen, hwrites, hstate, hstored, hlater⟩
  · exact .inl fun target as h => hen ⟨target, as, h⟩

/-- The operator hears nothing of an instance that was created. -/
theorem silent_of_finished_lostOutcome :
    ∃ s, exec (step brieflyUnreachable) (System.initial fun _ => none) lostOutcomeSchedule =
        some s ∧
      ∃ w later, (s.runs ()).writes = w :: later ∧ w.status = .stored ∧
        ∀ w' ∈ later, w'.gaveUp = true := by
  have hrun : (exec (step brieflyUnreachable) (System.initial fun _ => none)
      lostOutcomeSchedule).map (fun s => (decide (s.runs ()).Finished, (s.runs ()).replies,
        (s.runs ()).sent, (s.runs ()).previousStateRecord.isNone)) =
        some (true, [], [], true) := by decide
  obtain ⟨s, hexec, heq⟩ := Option.map_eq_some_iff.mp hrun
  simp only [Prod.mk.injEq, decide_eq_true_eq] at heq
  obtain ⟨hfinished, hreplies, hsent, hprev⟩ := heq
  obtain ⟨-, hno | ⟨target, w, later, -, hwrites, -, hstored, hlater⟩⟩ :=
    silent_of_finished hexec hfinished hreplies hsent
  · rw [Option.isNone_iff_eq_none.mp hprev] at hno
    exact absurd (.publish rfl) (hno .creatingInstance [])
  · exact ⟨s, hexec, w, later, hwrites, hstored, hlater⟩

end System

end I40Aas.OnboardingSkill
