import Mathlib.Data.List.Nodup
import I40Aas.OnboardingSkill.Sequence
import I40Aas.OnboardingSkill.VersionRace

/-!
All runs of the skill at once, against one machine for each conversation. A write that
succeeds makes the transition it was issued for part of its conversation, and the first
record of a conversation those before it in the run as well. As long as no write overtakes
the write of its run before it, what is committed in this way is a path of the machine, in
the order of the writes: no transition counts twice, none that is stored is lost, and the
record says where the path ends.
-/

namespace I40Aas.OnboardingSkill

open I40Aas.Lib

variable {ι : Type*}

/-! ### Paths of the machine -/

/-- The machine gets from one state to another by these events, and these are the states it
enters. -/
inductive Path (configuration : Configuration) :
    StateValue → List (String × StateValue) → StateValue → Prop
  | nil (v : StateValue) : Path configuration v [] v
  | cons {v target w : StateValue} {type : String} {as : List Action}
      {steps : List (String × StateValue)} : Enabled configuration v type target as →
      Path configuration target steps w → Path configuration v ((type, target) :: steps) w

section Path

variable {configuration : Configuration} {v w z target : StateValue} {type : String}
  {as : List Action} {steps later : List (String × StateValue)}

theorem Path.append (h : Path configuration v steps w) (hlater : Path configuration w later z) :
    Path configuration v (steps ++ later) z := by
  induction h with
  | nil _ => exact hlater
  | cons hen _ ih => exact .cons hen (ih hlater)

theorem Path.concat (h : Path configuration v steps w)
    (hen : Enabled configuration w type target as) :
    Path configuration v (steps ++ [(type, target)]) target :=
  h.append (.cons hen (.nil target))

/-- A path leads to the state it has entered last. -/
theorem Path.eq_getLast (h : Path configuration v steps w) :
    w = (steps.getLast?.map (·.2)).getD v := by
  induction h with
  | nil _ => rfl
  | @cons _ target _ _ _ steps _ _ ih =>
      rw [ih]
      cases hlast : steps.getLast? with
      | none =>
          obtain rfl := List.getLast?_eq_none_iff.mp hlast
          rfl
      | some t => simp [List.getLast?_cons, hlast]

theorem Path.unique (h : Path configuration v steps w) (h' : Path configuration v steps z) :
    w = z :=
  h.eq_getLast.trans h'.eq_getLast.symm

/-- Every part of a path is a path, from the state that was entered before it. -/
theorem Path.split (h : Path configuration v (steps ++ later) z) :
    ∃ u, Path configuration v steps u ∧ Path configuration u later z := by
  induction steps generalizing v with
  | nil => exact ⟨v, .nil v, h⟩
  | cons t steps ih =>
      cases h with
      | cons hen hrest =>
          obtain ⟨u, hsteps, hlater⟩ := ih hrest
          exact ⟨u, .cons hen hsteps, hlater⟩

/-- No event of a path is skipped by the machine. -/
theorem Path.eq_foldl_advance (h : Path configuration v steps w) :
    w = (steps.map (·.1)).foldl (advance configuration) v := by
  induction h with
  | nil _ => rfl
  | cons hen _ ih =>
      obtain ⟨t, hselect, rfl, -⟩ := select_of_enabled hen
      rw [List.map_cons, List.foldl_cons, advance, hselect]
      exact ih

end Path

/-! ### The transitions of one run -/

/-- The transitions of a run that its listener was called for. -/
def Run.steps (ρ : Run) : List (String × StateValue) :=
  ρ.writes.map fun w => (w.eventType, w.state)

/-- The event of a transition of run `r`: the one of its message, or an outcome of
`createInstance`. -/
def Told (env : Env ι) (r : ι) (type : String) : Prop :=
  type = env.event r ∨ type = createInstanceDone ∨ type = createInstanceFailed

/-- The transitions of a run are a path from the state it has read. -/
structure Run.Follows (env : Env ι) (r : ι) (ρ : Run) : Prop where
  path : ∃ v, Path env.configuration (storedValue ρ.previousStateRecord) ρ.steps v
  invoking : ρ.invoking = true →
    Path env.configuration (storedValue ρ.previousStateRecord) ρ.steps .creatingInstance
  told : ∀ t ∈ ρ.steps, Told env r t.1

section LocalStep

variable {env : Env ι} {r : ι} {cell : Option IStateRecord} {l : Label ι} {ρ ρ' : Run}
  {event : Event}

theorem Run.steps_modify {k : ℕ} {f : Write → Write}
    (hf : ∀ w, (f w).eventType = w.eventType ∧ (f w).state = w.state)
    (hwrites : ρ'.writes = ρ.writes.modify k f) : ρ'.steps = ρ.steps := by
  apply List.ext_getElem?
  intro j
  rw [Run.steps, hwrites, Run.steps, List.getElem?_map, List.getElem?_map, List.getElem?_modify]
  cases ρ.writes[j]? with
  | none => rfl
  | some w =>
      show some ((if k = j then f w else w).eventType, (if k = j then f w else w).state) = _
      split
      · rw [(hf w).1, (hf w).2]
        rfl
      · rfl

theorem Run.steps_settle (ρ : Run) (k : ℕ) (status : WriteStatus) :
    (ρ.settle k status).steps = ρ.steps :=
  Run.steps_modify (f := fun w => { w with status := status }) (fun _ => ⟨rfl, rfl⟩) rfl

theorem Run.steps_updateReturns (ρ : Run) (event : String) (k : ℕ) (w : Write)
    (throws : Command → Bool) : (ρ.updateReturns event k w throws).steps = ρ.steps :=
  Run.steps_modify (f := fun w => { w with returned := true }) (fun _ => ⟨rfl, rfl⟩)
    (ρ.updateReturns_frame event k w throws).1

theorem Run.Follows.of_eq (h : ρ.Follows env r) (hsteps : ρ'.steps = ρ.steps)
    (hprev : ρ'.previousStateRecord = ρ.previousStateRecord)
    (hinvoking : ρ'.invoking = true → ρ.invoking = true) : ρ'.Follows env r := by
  refine ⟨?_, fun hinv => ?_, ?_⟩
  · rw [hsteps, hprev]
    exact h.path
  · rw [hsteps, hprev]
    exact h.invoking (hinvoking hinv)
  · rw [hsteps]
    exact h.told

/-- A run without a transition is where it has begun. -/
theorem Run.Follows.of_quiet (hwrites : ρ.writes = [])
    (hinvoking : ρ.invoking = true → storedValue ρ.previousStateRecord = .creatingInstance) :
    ρ.Follows env r := by
  have hsteps : ρ.steps = [] := by rw [Run.steps, hwrites, List.map_nil]
  refine ⟨⟨storedValue ρ.previousStateRecord, ?_⟩, fun hinv => ?_, ?_⟩
  · rw [hsteps]
    exact .nil _
  · rw [hsteps, hinvoking hinv]
    exact .nil _
  · rw [hsteps]
    exact fun t ht => absurd ht List.not_mem_nil

/-- The transitions up to one lead to its target. -/
theorem Run.Follows.upTo (h : ρ.Follows env r) {k : ℕ} {w : Write} (hw : ρ.writes[k]? = some w) :
    Path env.configuration (storedValue ρ.previousStateRecord) (ρ.steps.take (k + 1)) w.state := by
  obtain ⟨v, hpath⟩ := h.path
  rw [← List.take_append_drop (k + 1) ρ.steps] at hpath
  obtain ⟨u, hupTo, -⟩ := hpath.split
  have hstep : ρ.steps[k]? = some (w.eventType, w.state) := by
    rw [Run.steps, List.getElem?_map, hw]
    rfl
  have hlast := hupTo.eq_getLast
  rw [List.getLast?_take, if_neg (Nat.succ_ne_zero k), Nat.add_sub_cancel, hstep] at hlast
  rw [show w.state = u from hlast.symm]
  exact hupTo

/-- The one after them leads from there to its own. -/
theorem Run.Follows.next (h : ρ.Follows env r) {j : ℕ} {w w' : Write}
    (hw : ρ.writes[j]? = some w) (hw' : ρ.writes[j + 1]? = some w') :
    Path env.configuration w.state [(w'.eventType, w'.state)] w'.state := by
  have hstep : ρ.steps[j + 1]? = some (w'.eventType, w'.state) := by
    rw [Run.steps, List.getElem?_map, hw']
    rfl
  have hpath := h.upTo hw'
  rw [List.take_add_one, hstep] at hpath
  obtain ⟨u, hupTo, hnext⟩ := hpath.split
  rw [(h.upTo hw).unique hupTo]
  exact hnext

theorem Run.Follows.transition (h : ρ.Follows env r)
    (hvalue : Path env.configuration (storedValue ρ.previousStateRecord) ρ.steps ρ.value)
    (htold : Told env r event.type) :
    (ρ.transition env.configuration (env.message r) event).1.Follows env r := by
  rcases Run.transition_cases env.configuration (env.message r) event ρ with
    heq | ⟨target, as, -, htarget, heq⟩ | ⟨target, as, commands, hen, -, heq⟩
  · rw [heq]
    exact h
  · rw [heq]
    refine h.of_eq rfl rfl fun hinvoking => ?_
    exact absurd (of_decide_eq_true hinvoking) htarget
  · have hsteps : ((ρ.enter target commands).issueWrite event.type).steps =
        ρ.steps ++ [(event.type, target)] := by
      simp only [Run.steps, Run.issueWrite, Run.enter, List.map_append, List.map_cons,
        List.map_nil]
    have hpath := hvalue.concat hen
    rw [heq]
    refine ⟨⟨target, ?_⟩, fun hinvoking => ?_, fun t ht => ?_⟩
    · rw [hsteps]
      exact hpath
    · obtain rfl : target = .creatingInstance := of_decide_eq_true hinvoking
      rw [hsteps]
      exact hpath
    · rw [hsteps] at ht
      rcases List.mem_append.mp ht with ht | ht
      · exact h.told t ht
      · obtain rfl := List.mem_singleton.mp ht
        exact htold

theorem Run.Follows.resume (hwf : ρ.WellFormed) (hphase : ρ.phase = .loaded) :
    (ρ.resume env r).Follows env r := by
  obtain ⟨hwrites, hinvoking, -⟩ := hwf.quiet (by simp [hphase])
  rw [Run.resume_eq]
  split
  · refine .of_quiet hwrites fun hinv => ?_
    exact absurd (hinvoking.symm.trans hinv) Bool.false_ne_true
  · have hbegin : (ρ.begin env.restartsInvocation (storedValue ρ.previousStateRecord)
        (expectedVersion ρ.previousStateRecord)).Follows env r := by
      refine .of_quiet hwrites fun hinv => ?_
      simp only [Run.begin, Bool.and_eq_true, decide_eq_true_eq] at hinv
      exact hinv.2
    have hvalue : (ρ.begin env.restartsInvocation (storedValue ρ.previousStateRecord)
        (expectedVersion ρ.previousStateRecord)).steps = [] := by
      rw [Run.steps]
      show ρ.writes.map _ = []
      rw [hwrites, List.map_nil]
    refine Run.send_induction (P := fun ρ => ρ.Follows env r)
      (fun ρ answer h => h.of_eq rfl rfl id) hbegin (hbegin.transition ?_ (.inl rfl))
    rw [hvalue]
    exact .nil _

theorem Run.Follows.step (h : ρ.Follows env r) (hwf : ρ.WellFormed)
    (hstep : LocalStep env r cell ρ l ρ') : ρ'.Follows env r := by
  cases hstep with
  | applyEvent _ => exact h.of_eq rfl rfl id
  | read hphase =>
      obtain ⟨hwrites, hinvoking, -⟩ := hwf.quiet (by simp [hphase])
      refine .of_quiet hwrites fun hinv => ?_
      exact absurd (hinvoking.symm.trans hinv) Bool.false_ne_true
  | readFails _ => exact h.of_eq rfl rfl id
  | resume hphase => exact .resume hwf hphase
  | createInstanceEnds error hinvoking =>
      have hvalue := h.invoking hinvoking
      rw [← (hwf.invoking hinvoking).2.1] at hvalue
      refine h.transition hvalue ?_
      cases error with
      | none => exact .inr (.inl rfl)
      | some error => exact .inr (.inr rfl)
  | updateFails _ _ _ => exact h.of_eq (ρ.steps_settle _ _) rfl id
  | @updateReturns k w throws _ _ =>
      have hprev := (ρ.updateReturns_frame (env.event r) k w throws).2.2.1
      refine h.of_eq (ρ.steps_updateReturns _ _ _ _) hprev fun hinvoking => ?_
      simp only [Run.updateReturns] at hinvoking
      split_ifs at hinvoking <;> exact hinvoking

/-- No step of a run takes back a transition. -/
theorem LocalStep.steps_prefix (hstep : LocalStep env r cell ρ l ρ') : ρ.steps <+: ρ'.steps := by
  have hsame : ∀ ρ₀ : Run, ρ₀.steps = ρ.steps → ρ.steps <+: ρ₀.steps :=
    fun _ hsteps => ⟨[], (List.append_nil _).trans hsteps.symm⟩
  have htransition : ∀ (ρ₀ : Run) event, ρ₀.steps = ρ.steps →
      ρ.steps <+: (ρ₀.transition env.configuration (env.message r) event).1.steps := by
    intro ρ₀ event hsteps
    rcases Run.transition_cases env.configuration (env.message r) event ρ₀ with
      heq | ⟨target, as, -, -, heq⟩ | ⟨target, as, commands, -, -, heq⟩
    · rw [heq]
      exact hsame ρ₀ hsteps
    · rw [heq]
      exact hsame (ρ₀.enter target []) hsteps
    · rw [heq, ← hsteps]
      simp only [Run.steps, Run.issueWrite, Run.enter, List.map_append]
      exact List.prefix_append _ _
  cases hstep with
  | applyEvent _ => exact List.prefix_rfl
  | read _ => exact List.prefix_rfl
  | readFails _ => exact List.prefix_rfl
  | resume _ =>
      rw [Run.resume_eq]
      split
      · exact List.prefix_rfl
      · exact Run.send_induction (P := fun ρ' => ρ.steps <+: ρ'.steps) (fun _ _ h => h)
          List.prefix_rfl (htransition _ _ rfl)
  | createInstanceEnds error _ => exact htransition ρ _ rfl
  | updateFails _ _ _ => exact hsame _ (ρ.steps_settle _ _)
  | updateReturns _ _ => exact hsame _ (ρ.steps_updateReturns _ _ _ _)

end LocalStep

/-! ### What is committed -/

/-- The transitions that a write which has succeeded makes part of its conversation: its own
one, and with the first record of the conversation those before it. -/
def Update.commits (u : Update ι) : List (ι × ℕ) :=
  (if u.replaced = none then List.range (u.earlier.length + 1) else [u.earlier.length]).map
    fun k => (u.run, k)

/-- The transitions that are committed, the earliest first. -/
def System.commits (s : System ι) : List (ι × ℕ) := s.updates.reverse.flatMap Update.commits

/-- The transitions `cs` of the runs of a conversation. -/
def System.transitions (s : System ι) (env : Env ι) (conversation : String)
    (cs : List (ι × ℕ)) : List (String × StateValue) :=
  (cs.filter fun c => env.conversationId c.1 = conversation).filterMap fun c =>
    (s.runs c.1).steps[c.2]?

/-- The conversations are what one machine each makes of the committed transitions. -/
structure System.Serial (env : Env ι) (db : String → Option IStateRecord) (s : System ι) :
    Prop where
  /-- None counts twice. -/
  nodup : s.commits.Nodup
  /-- None that is stored is lost. -/
  stored : ∀ r k, (s.runs r).storedState k ≠ none → (r, k) ∈ s.commits
  path : ∀ conversation, Path env.configuration (storedValue (db conversation))
    (s.transitions env conversation s.commits) (storedValue (s.db conversation))

/-- The invariant of the runs as long as none overtakes. -/
structure System.Committed (env : Env ι) (db : String → Option IStateRecord) (s : System ι) :
    Prop where
  locked : s.Locked env
  raceFree : s.RaceFree
  follows : ∀ r, (s.runs r).Follows env r
  serial : s.Serial env db
  /-- What is committed is stored, by itself or with a later transition of its run. -/
  covered : ∀ r k, (r, k) ∈ s.commits → ∃ j, k ≤ j ∧ (s.runs r).storedState j ≠ none

section Commits

variable {env : Env ι} {db : String → Option IStateRecord} {s s' : System ι} {l : Label ι}

theorem System.transitions_append (s : System ι) (env : Env ι) (conversation : String)
    (cs cs' : List (ι × ℕ)) : s.transitions env conversation (cs ++ cs') =
      s.transitions env conversation cs ++ s.transitions env conversation cs' := by
  simp only [System.transitions, List.filter_append, List.filterMap_append]

/-- Transitions that are there stay what they are. -/
theorem System.transitions_congr {conversation : String} {cs : List (ι × ℕ)}
    (h : ∀ c ∈ cs, (s'.runs c.1).steps[c.2]? = (s.runs c.1).steps[c.2]?) :
    s'.transitions env conversation cs = s.transitions env conversation cs :=
  List.filterMap_congr fun c hc => h c (List.mem_of_mem_filter hc)

/-- The transitions of one run. -/
theorem System.transitions_run (s : System ι) (env : Env ι) (r : ι) (conversation : String)
    (ks : List ℕ) : s.transitions env conversation (ks.map fun k => (r, k)) =
      if env.conversationId r = conversation then ks.filterMap fun k => (s.runs r).steps[k]?
      else [] := by
  induction ks with
  | nil => simp [System.transitions]
  | cons k ks ih =>
      rw [List.map_cons, ← List.singleton_append, System.transitions_append, ih]
      by_cases hconv : env.conversationId r = conversation
      · simp only [System.transitions, hconv, if_true, decide_true, List.filter_cons_of_pos,
          List.filter_nil, List.filterMap_cons, List.filterMap_nil]
        cases (s.runs r).steps[k]? <;> rfl
      · simp [System.transitions, hconv]

theorem filterMap_range_getElem? {α : Type*} (xs : List α) (n : ℕ) :
    (List.range n).filterMap (fun k => xs[k]?) = xs.take n := by
  induction n with
  | zero => rfl
  | succ n ih =>
      rw [List.range_succ, List.filterMap_append, ih, List.take_add_one]
      cases hx : xs[n]? <;> simp [hx]

/-- Committed transitions stay what they are. -/
theorem System.Committed.steps_getElem? (h : s.Committed env db) {c : ι × ℕ}
    (hc : c ∈ s.commits) {ρ : Run} (hextends : (s.runs c.1).steps <+: ρ.steps) :
    ρ.steps[c.2]? = (s.runs c.1).steps[c.2]? := by
  obtain ⟨j, hle, hstored⟩ := h.covered c.1 c.2 hc
  obtain ⟨w, hw, -⟩ := Run.storedState_ne_none_iff.mp hstored
  have hj := (List.getElem?_eq_some_iff.mp hw).1
  have hlen : c.2 < (s.runs c.1).steps.length := by
    rw [Run.steps, List.length_map]
    omega
  obtain ⟨later, hlater⟩ := hextends
  rw [← hlater, List.getElem?_append_left hlen]

variable [DecidableEq ι]

theorem System.Committed.setRun (h : s.Committed env db) {r : ι} {ρ : Run}
    (hstep : LocalStep env r (s.db (env.conversationId r)) (s.runs r) l ρ) :
    (s.setRun r ρ).Committed env db := by
  have hwf := h.locked.wellFormed r
  have hstored : ∀ q, ((s.setRun r ρ).runs q).storedState = (s.runs q).storedState := by
    intro q
    rw [System.setRun_runs]
    split
    · rename_i hq
      subst hq
      exact (hstep.frame hwf).1
    · rfl
  have hextends : ∀ q, (s.runs q).steps <+: ((s.setRun r ρ).runs q).steps := by
    intro q
    rw [System.setRun_runs]
    split
    · rename_i hq
      subst hq
      exact hstep.steps_prefix
    · exact List.prefix_rfl
  have hraceFree := h.raceFree
  refine ⟨h.locked.setRun hstep, ⟨hraceFree.replaced, hraceFree.loser, hraceFree.final⟩,
    fun q => ?_, ⟨h.serial.nodup, fun q k hk => ?_, fun conversation => ?_⟩, fun q k hk => ?_⟩
  · rw [System.setRun_runs]
    split
    · rename_i hq
      subst hq
      exact (h.follows q).step hwf hstep
    · exact h.follows q
  · rw [hstored] at hk
    exact h.serial.stored q k hk
  · have htransitions : (s.setRun r ρ).transitions env conversation s.commits =
        s.transitions env conversation s.commits :=
      System.transitions_congr fun c hc => h.steps_getElem? hc (hextends c.1)
    rw [System.setRun_db]
    show Path _ _ ((s.setRun r ρ).transitions env conversation s.commits) _
    rw [htransitions]
    exact h.serial.path conversation
  · rw [hstored]
    exact h.covered q k hk

/-- What a write that does not overtake finds in the database: what its run has read, before
anything of the run is stored, or the write of its run before it. -/
theorem System.Committed.found (h : s.Committed env db) {r : ι} {k : ℕ} {w : Write}
    {record : IStateRecord} (hw : (s.runs r).writes[k]? = some w)
    (hup : upsert w.filterVersion w.state (s.db (env.conversationId r)) = some record)
    (hok : ¬ Overtakes env s (.update r k true)) :
    (s.db (env.conversationId r) = (s.runs r).previousStateRecord ∧
        (s.db (env.conversationId r) = none ∨ k = 0) ∧
        ∀ j, (s.runs r).storedState j = none) ∨
      ∃ j old, k = j + 1 ∧ s.db (env.conversationId r) = some old ∧
        (s.runs r).storedState j = some old.value ∧
        ∀ i, k ≤ i → (s.runs r).storedState i = none := by
  have hbasis : s.db (env.conversationId r) = (s.runs r).basis :=
    (h.raceFree.store h.locked hw hup hok).replaced _ List.mem_cons_self
  have hkept := h.locked.basisKept r
  have hfilter := (h.locked.wellFormed r).filter k w hw
  have hversion := (upsert_eq_some_iff.mp hup).2
  rcases hkept.basis_eq with hread | ⟨j, v, hj, hwritten⟩
  · refine .inl ⟨hbasis.trans hread, ?_, fun j => ?_⟩
    · cases hcell : s.db (env.conversationId r) with
      | none => exact .inl rfl
      | some old =>
          have hold := hversion old hcell
          rw [← hread, ← hbasis, hcell, expectedVersion_some] at hfilter
          exact .inr (by omega)
    · cases hj : (s.runs r).storedState j with
      | none => rfl
      | some v =>
          have hle := (hkept.stored_le j v hj).2
          rw [hread] at hle
          omega
  · rw [hwritten] at hbasis
    have hold : expectedVersion (s.runs r).previousStateRecord + j + 1 = w.filterVersion :=
      hversion _ hbasis
    refine .inr ⟨j, _, by omega, hbasis, hj, fun i hi => ?_⟩
    cases hstored : (s.runs r).storedState i with
    | none => rfl
    | some v' =>
        have hle := (hkept.stored_le i v' hstored).2
        rw [hwritten, expectedVersion_some] at hle
        simp only at hle
        omega

theorem System.store_commits (s : System ι) (env : Env ι) (r : ι) {k : ℕ} (record : IStateRecord)
    (hk : k < (s.runs r).writes.length) : (s.store env r k record).commits = s.commits ++
      (if s.db (env.conversationId r) = none then List.range (k + 1) else [k]).map
        fun k => (r, k) := by
  simp only [System.commits, System.store, List.reverse_cons, List.flatMap_append,
    List.flatMap_singleton, Update.commits, List.length_map, List.length_take,
    Nat.min_eq_left (Nat.le_of_lt hk)]

/-- What a write commits has not been committed before, and leads from the record it
replaces to its own. -/
theorem System.Committed.commits (h : s.Committed env db) {r : ι} {k : ℕ} {w : Write}
    {record : IStateRecord} (hw : (s.runs r).writes[k]? = some w)
    (hup : upsert w.filterVersion w.state (s.db (env.conversationId r)) = some record)
    (hok : ¬ Overtakes env s (.update r k true)) :
    ∃ ks : List ℕ, (s.store env r k record).commits = s.commits ++ ks.map (fun k => (r, k)) ∧
      ks.Nodup ∧ k ∈ ks ∧ (∀ i ∈ ks, i ≤ k ∧ (r, i) ∉ s.commits) ∧
      Path env.configuration (storedValue (s.db (env.conversationId r)))
        (ks.filterMap fun k => (s.runs r).steps[k]?) w.state := by
  have hlen := (List.getElem?_eq_some_iff.mp hw).1
  have hcommits := s.store_commits env r record hlen
  rcases h.found hw hup hok with ⟨hread, hfirst, hnone⟩ | ⟨j, old, rfl, hcell, hj, hnone⟩
  · have hks : (if s.db (env.conversationId r) = none then List.range (k + 1) else [k]) =
        List.range (k + 1) := by
      rcases hfirst with hempty | rfl
      · rw [if_pos hempty]
      · split <;> rfl
    rw [hks] at hcommits
    refine ⟨List.range (k + 1), hcommits, List.nodup_range, List.mem_range.mpr (Nat.lt_succ_self k),
      fun i hi => ⟨Nat.le_of_lt_succ (List.mem_range.mp hi), fun hmem => ?_⟩, ?_⟩
    · obtain ⟨j, -, hstored⟩ := h.covered r i hmem
      exact hstored (hnone j)
    · rw [filterMap_range_getElem?, hread]
      exact (h.follows r).upTo hw
  · have hne : s.db (env.conversationId r) ≠ none := by
      rw [hcell]
      exact Option.some_ne_none old
    rw [if_neg hne] at hcommits
    refine ⟨[j + 1], hcommits, List.nodup_cons.mpr ⟨List.not_mem_nil, List.nodup_nil⟩,
      List.mem_singleton_self _,
      fun i hi => ?_, ?_⟩
    · obtain rfl := List.mem_singleton.mp hi
      refine ⟨Nat.le_refl _, fun hmem => ?_⟩
      obtain ⟨i, hle, hstored⟩ := h.covered r _ hmem
      exact hstored (hnone i hle)
    · obtain ⟨w₀, hw₀, hstored⟩ := Option.bind_eq_some_iff.mp hj
      obtain ⟨-, hstate⟩ := Option.ite_none_right_eq_some.mp hstored
      have hstep : (s.runs r).steps[j + 1]? = some (w.eventType, w.state) := by
        rw [Run.steps, List.getElem?_map, hw]
        rfl
      rw [hcell, storedValue_some, ← Option.some.inj hstate, List.filterMap_cons, hstep]
      exact (h.follows r).next hw₀ hw

theorem System.Committed.store (h : s.Committed env db) {r : ι} {k : ℕ} {w : Write}
    {record : IStateRecord} (hw : (s.runs r).writes[k]? = some w)
    (hup : upsert w.filterVersion w.state (s.db (env.conversationId r)) = some record)
    (hok : ¬ Overtakes env s (.update r k true)) : (s.store env r k record).Committed env db := by
  obtain ⟨ks, hcommits, hnodup, hmem, hnew, hpath⟩ := h.commits hw hup hok
  have hsteps : ∀ q, ((s.store env r k record).runs q).steps = (s.runs q).steps := by
    intro q
    rw [System.store_runs]
    split
    · rename_i hq
      subst hq
      exact (s.runs q).steps_settle k .stored
    · rfl
  have hstored : ∀ q j, ((s.store env r k record).runs q).storedState j =
      if q = r ∧ j = k then some w.state else (s.runs q).storedState j := by
    intro q j
    rw [System.store_runs]
    by_cases hq : q = r
    · subst hq
      simp only [if_true, true_and]
      exact Run.storedState_settle_stored hw j
    · rw [if_neg hq, if_neg fun h => hq h.1]
  have hstays : ∀ q j, (s.runs q).storedState j ≠ none →
      ((s.store env r k record).runs q).storedState j ≠ none := by
    intro q j hj
    rw [hstored]
    split
    · exact Option.some_ne_none _
    · exact hj
  refine ⟨h.locked.store hw hup, h.raceFree.store h.locked hw hup hok, fun q => ?_,
    ⟨?_, fun q j hj => ?_, fun conversation => ?_⟩, fun q i hi => ?_⟩
  · rw [System.store_runs]
    split
    · rename_i hq
      subst hq
      exact (h.follows q).of_eq ((s.runs q).steps_settle k .stored) rfl id
    · exact h.follows q
  · rw [hcommits]
    refine h.serial.nodup.append (hnodup.map fun i j hij => (Prod.mk.inj hij).2) ?_
    intro c hc hc'
    obtain ⟨i, hi, rfl⟩ := List.mem_map.mp hc'
    exact (hnew i hi).2 hc
  · rw [hcommits]
    rw [hstored] at hj
    split at hj
    · rename_i hqj
      obtain ⟨rfl, rfl⟩ := hqj
      exact List.mem_append_right _ (List.mem_map_of_mem hmem)
    · exact List.mem_append_left _ (h.serial.stored q j hj)
  · have htransitions : ∀ cs, (s.store env r k record).transitions env conversation cs =
        s.transitions env conversation cs :=
      fun cs => System.transitions_congr fun c _ => by rw [hsteps]
    have hold := h.serial.path conversation
    obtain ⟨rfl, -⟩ := upsert_eq_some_iff.mp hup
    rw [htransitions, hcommits, System.transitions_append, System.transitions_run,
      System.store_db]
    by_cases hconv : env.conversationId r = conversation
    · subst hconv
      rw [if_pos rfl, if_pos rfl]
      exact hold.append hpath
    · rw [if_neg hconv, if_neg (Ne.symm hconv), List.append_nil]
      exact hold
  · rw [hcommits] at hi
    rcases List.mem_append.mp hi with hi | hi
    · obtain ⟨j, hle, hj⟩ := h.covered q i hi
      exact ⟨j, hle, hstays q j hj⟩
    · obtain ⟨i', hi', heq⟩ := List.mem_map.mp hi
      obtain ⟨rfl, rfl⟩ := Prod.mk.inj heq
      refine ⟨k, (hnew i' hi').1, ?_⟩
      rw [hstored, if_pos ⟨rfl, rfl⟩]
      exact Option.some_ne_none _

theorem System.Committed.step (h : s.Committed env db) (hok : ¬ Overtakes env s l)
    (hstep : step env s l = some s') : s'.Committed env db := by
  rcases step_cases hstep with ⟨r, ρ, hlocal, rfl⟩ | ⟨r, k, w, record, rfl, hw, -, hup, rfl⟩
  · exact h.setRun hlocal
  · exact h.store hw hup hok

omit [DecidableEq ι] in
theorem System.committed_initial (env : Env ι) (db : String → Option IStateRecord) :
    (System.initial db : System ι).Committed env db where
  locked := System.locked_initial env db
  raceFree := by constructor <;> simp [System.initial]
  follows _ := .of_quiet rfl fun h => by cases h
  serial := ⟨List.nodup_nil, fun _ _ h => absurd rfl h, fun _ => .nil _⟩
  covered _ _ h := absurd h List.not_mem_nil

/-- However the runs of all messages interleave, as long as no write overtakes the one of its
run before it: every transition that is stored counts once, and each conversation is where
one machine gets by its committed transitions, one after the other from the state the
conversation had at first. Each of these is on an event of its run, and none is skipped. -/
theorem serial_of_not_overtakes (env : Env ι) (db : String → Option IStateRecord)
    (schedule : List (Label ι))
    (h : Guarded (step env) (fun s l => ¬ Overtakes env s l) (System.initial db) schedule) :
    Along (step env) (fun s => s.Serial env db ∧
      (∀ r, ∀ t ∈ (s.runs r).steps, Told env r t.1) ∧
      ∀ conversation, storedValue (s.db conversation) =
        ((s.transitions env conversation s.commits).map (·.1)).foldl
          (advance env.configuration) (storedValue (db conversation)))
      (System.initial db) schedule := by
  have hcommitted := along_of_guarded (I := System.Committed env db)
    (fun s l s' hs hok hstep => hs.step hok hstep) (System.committed_initial env db) h
  refine hcommitted.mono fun s hs => ⟨hs.serial, fun r => (hs.follows r).told, ?_⟩
  exact fun conversation => (hs.serial.path conversation).eq_foldl_advance

instance Overtakes.decidable (env : Env ι) (s : System ι) : ∀ l, Decidable (Overtakes env s l)
  | .update r k true =>
      decidable_of_iff (0 < k ∧ (s.runs r).storedState (k - 1) = none ∧
          ((s.runs r).writes[k]?.any fun w => (s.db (env.conversationId r)).any fun record =>
            record.version = w.filterVersion) = true) <| by
        simp only [Overtakes, Option.any_eq_true, decide_eq_true_eq]
        refine and_congr_right fun _ => and_congr_right fun _ => ?_
        constructor
        · rintro ⟨w, hw, record, hrecord, hversion⟩
          exact ⟨w, record, hw, hrecord, hversion⟩
        · rintro ⟨w, record, hw, hrecord, hversion⟩
          exact ⟨w, hw, record, hrecord, hversion⟩
  | .update _ _ false => .isFalse id
  | .applyEvent _ | .read _ _ | .resume _ | .createInstanceEnds _ _ | .updateReturns _ _ _ =>
      .isFalse id

/-- The approval of `approvalRace` is stored first, and instance and all: the refusal loses. -/
def approvalFirstSchedule : List (Label Bool) :=
  [.applyEvent true, .applyEvent false, .read true true, .read false true,
    .resume true, .resume false, .update false 0 true, .update true 0 true,
    .createInstanceEnds false none, .update false 1 true]

/-- Both runs have read the record of the pending approval, and one of them takes the
conversation to its end. -/
theorem serial_of_not_overtakes_approvalFirst :
    ∃ s, exec (step approvalRace) (System.initial fun _ => some ⟨1, .waitingForApproval⟩)
        approvalFirstSchedule = some s ∧
      s.Serial approvalRace (fun _ => some ⟨1, .waitingForApproval⟩) ∧
      s.commits = [(false, 0), (false, 1)] ∧
      s.db "conversation" = some ⟨3, .instancePublished⟩ := by
  obtain ⟨s, hexec, hcommits, hdb⟩ : ∃ s,
      exec (step approvalRace) (System.initial fun _ => some ⟨1, .waitingForApproval⟩)
        approvalFirstSchedule = some s ∧
      s.commits = [(false, 0), (false, 1)] ∧
      s.db "conversation" = some ⟨3, .instancePublished⟩ := ⟨_, rfl, rfl, rfl⟩
  have hguarded : Guarded (step approvalRace) (fun s l => ¬ Overtakes approvalRace s l)
      (System.initial fun _ => some ⟨1, .waitingForApproval⟩) approvalFirstSchedule := by decide
  exact ⟨s, hexec, ((serial_of_not_overtakes _ _ _ hguarded).exec_eq hexec).1, hcommits, hdb⟩

end Commits

end I40Aas.OnboardingSkill
