import I40Aas.OnboardingSkill.Runs

/-!
The race of runs on one conversation. `versionCounter` counts on after a write
whether or not the write was stored, so the next write of the run names a
version that another run may have made meanwhile. `Overtakes` is that moment.
Away from it the lock does what it is there for: every write that succeeds
replaces what its own run had read or written last.
-/

namespace I40Aas.OnboardingSkill

open I40Aas.Lib

variable {ι : Type*}

/-- What the optimistic lock promises about the writes that have succeeded. -/
structure System.RaceFree (s : System ι) : Prop where
  /-- Each one replaced what its run had read or written last. -/
  replaced : ∀ u ∈ s.updates, u.replaced = u.basis
  /-- None came from a run whose first write had lost the race. -/
  loser : ∀ u ∈ s.updates, u.earlier.head? ≠ some .duplicateKey
  /-- None replaced a final state. -/
  final : ∀ u ∈ s.updates, ∀ record, u.replaced = some record → record.value.isFinal = false

/-- A later write of a run reaches the database although the run's write before
it has not been stored, and the record there has just the version it names. -/
def Overtakes (env : Env ι) (s : System ι) : Label ι → Prop
  | .update r k true =>
      0 < k ∧ (s.runs r).storedState (k - 1) = none ∧
        ∃ w record, (s.runs r).writes[k]? = some w ∧
          s.db (env.conversationId r) = some record ∧ record.version = w.filterVersion
  | _ => False

/-! ### What a run has read or written last -/

/-- How the basis of a run relates to its writes: the writes that are stored
are no later than it, and it is the record read or one of them. -/
structure Run.BasisKept (ρ : Run) : Prop where
  stored_le : ∀ k v, ρ.storedState k = some v →
    ρ.basis ≠ none ∧ expectedVersion ρ.previousStateRecord + k + 1 ≤ expectedVersion ρ.basis
  basis_eq : ρ.basis = ρ.previousStateRecord ∨
    ∃ k v, ρ.storedState k = some v ∧
      ρ.basis = some ⟨expectedVersion ρ.previousStateRecord + k + 1, v⟩

/-- The invariant of the race. -/
structure System.Locked (env : Env ι) (s : System ι) : Prop where
  wellFormed : ∀ r, (s.runs r).WellFormed
  basisKept : ∀ r, (s.runs r).BasisKept
  sees : ∀ r, (s.runs r).hasRead → Sees (s.db (env.conversationId r)) (s.runs r).basis
  /-- A run can lose only against a record. -/
  lost : ∀ r, ∀ w ∈ (s.runs r).writes, w.status = .duplicateKey →
    s.db (env.conversationId r) ≠ none

section LocalStep

variable {env : Env ι} {r : ι} {cell : Option IStateRecord} {l : Label ι} {ρ ρ' : Run}

theorem Run.mem_transition_writes {configuration : Configuration} {message : Message}
    {event : Event} {w : Write}
    (h : w ∈ (ρ.transition configuration message event).1.writes) :
    w ∈ ρ.writes ∨ w.status = .pending := by
  rcases Run.transition_cases configuration message event ρ with
    heq | ⟨target, as, -, -, heq⟩ | ⟨target, as, commands, -, -, heq⟩
  · rw [heq] at h
    exact .inl h
  · rw [heq] at h
    exact .inl h
  · rw [heq] at h
    rcases List.mem_append.mp h with h | h
    · exact .inl h
    · obtain rfl := List.mem_singleton.mp h
      exact .inr rfl

theorem Run.mem_resume_writes {w : Write} (h : w ∈ (ρ.resume env r).writes) :
    w ∈ ρ.writes ∨ w.status = .pending := by
  rw [Run.resume_eq] at h
  split at h
  · exact .inl h
  · revert h
    refine Run.send_induction (P := fun ρ' => w ∈ ρ'.writes → w ∈ ρ.writes ∨ w.status = .pending)
      (fun _ _ h => h) .inl ?_
    exact Run.mem_transition_writes

/-- A write is lost against a record only. -/
theorem LocalStep.lost (h : LocalStep env r cell ρ l ρ')
    (hlost : ∀ w ∈ ρ.writes, w.status = .duplicateKey → cell ≠ none) :
    ∀ w ∈ ρ'.writes, w.status = .duplicateKey → cell ≠ none := by
  intro w hw hdup
  cases h with
  | applyEvent _ => exact hlost w hw hdup
  | read _ => exact hlost w hw hdup
  | readFails _ => exact hlost w hw hdup
  | resume _ =>
      rcases Run.mem_resume_writes hw with hw | hpending
      · exact hlost w hw hdup
      · rw [hdup] at hpending
        cases hpending
  | createInstanceEnds error _ =>
      rcases Run.mem_transition_writes hw with hw | hpending
      · exact hlost w hw hdup
      · rw [hdup] at hpending
        cases hpending
  | updateFails hw₀ hpending hstatus =>
      rcases Run.mem_modify_writes hw with hw | ⟨w₁, hw₁, rfl⟩
      · exact hlost w hw hdup
      · rcases hstatus with ⟨-, rfl⟩ | ⟨-, hup⟩
        · cases hdup
        · obtain ⟨old, hold, -⟩ := upsert_eq_none_iff.mp hup
          simp [hold]
  | updateReturns hw₀ hstatus =>
      rw [(ρ.updateReturns_frame (env.event r) _ _ _).1] at hw
      rcases Run.mem_modify_writes hw with hw | ⟨w₁, hw₁, rfl⟩
      · exact hlost w hw hdup
      · exact hlost w₁ (List.mem_of_getElem? hw₁) hdup

theorem Run.BasisKept.step (h : ρ.BasisKept) (hwf : ρ.WellFormed)
    (hstep : LocalStep env r cell ρ l ρ') : ρ'.BasisKept := by
  obtain ⟨hstored, ⟨hbasis, hprev, -⟩ | ⟨hwrites, hbasis, hprev⟩⟩ := hstep.frame hwf
  · exact ⟨by rw [hstored, hbasis, hprev]; exact h.stored_le,
      by rw [hstored, hbasis, hprev]; exact h.basis_eq⟩
  · refine ⟨fun k v hk => ?_, .inl (hbasis.trans hprev.symm)⟩
    rw [hstored] at hk
    simp [Run.storedState, hwrites] at hk

/-! ### What a successful write does to its own run -/

section Store

variable {k : ℕ} {w : Write} {record : IStateRecord}

/-- A write of the run is stored under the version that comes after those of the
run's earlier writes. -/
theorem Run.BasisKept.stored (h : ρ.BasisKept) (hwf : ρ.WellFormed)
    (hsees : Sees cell ρ.basis) (hw : ρ.writes[k]? = some w)
    (hup : upsert w.filterVersion w.state cell = some record) :
    { ρ.settle k .stored with basis := some record : Run }.BasisKept := by
  obtain ⟨rfl, hversion⟩ := upsert_eq_some_iff.mp hup
  have hfilter := hwf.filter k w hw
  refine ⟨fun j v hj => ⟨by simp, ?_⟩, .inr ⟨k, w.state, ?_, ?_⟩⟩
  · have hj' := Run.storedState_settle_stored hw j
    rw [show { ρ.settle k .stored with basis := some _ : Run }.storedState j =
      (ρ.settle k .stored).storedState j from rfl, hj'] at hj
    show expectedVersion ρ.previousStateRecord + j + 1 ≤ w.filterVersion + 1
    by_cases hjk : j = k
    · omega
    · rw [if_neg hjk] at hj
      obtain ⟨hsome, hle⟩ := h.stored_le j v hj
      have hcell := hsees.expectedVersion_le
      cases cell with
      | none =>
          simp only [expectedVersion_none, Nat.le_zero] at hcell
          omega
      | some old =>
          have := hversion old rfl
          simp only [expectedVersion_some] at hcell
          omega
  · rw [show { ρ.settle k .stored with basis := some _ : Run }.storedState k =
      (ρ.settle k .stored).storedState k from rfl, Run.storedState_settle_stored hw, if_pos rfl]
  · simp [hfilter, Run.settle]

end Store

end LocalStep

/-! ### The race as a whole -/

section Race

variable {env : Env ι} {s s' : System ι} {l : Label ι}

theorem System.locked_initial (env : Env ι) (db : String → Option IStateRecord) :
    (System.initial db : System ι).Locked env where
  wellFormed _ := Run.wellFormed_initial
  basisKept _ := ⟨fun k v hk => by simp [System.initial, Run.initial, Run.storedState] at hk,
    .inl rfl⟩
  sees r hread := by rcases hread with h | h <;> cases h
  lost r w hw := by simp [System.initial, Run.initial] at hw

/-- A write that does not overtake another one names the version of what its run
has read or written last. -/
theorem System.Locked.expected_of_store (h : s.Locked env) {r : ι} {k : ℕ} {w : Write}
    {record old : IStateRecord} (hw : (s.runs r).writes[k]? = some w)
    (hup : upsert w.filterVersion w.state (s.db (env.conversationId r)) = some record)
    (hold : s.db (env.conversationId r) = some old)
    (hok : ¬ Overtakes env s (.update r k true)) :
    w.filterVersion = expectedVersion (s.runs r).basis := by
  have hfilter := (h.wellFormed r).filter k w hw
  have hversion : old.version = w.filterVersion := (upsert_eq_some_iff.mp hup).2 old hold
  have hread : (s.runs r).hasRead := .inr ((h.wellFormed r).running_of_write hw)
  have hle := (h.sees r hread).expectedVersion_le
  rw [hold, expectedVersion_some] at hle
  rcases Nat.eq_zero_or_pos k with rfl | hk
  · rcases (h.basisKept r).basis_eq with hbasis | ⟨j, v, -, hbasis⟩
    · rw [hfilter, hbasis]
      rfl
    · rw [hbasis, expectedVersion_some] at hle
      simp only at hle
      omega
  · cases hprev : (s.runs r).storedState (k - 1) with
    | none => exact absurd ⟨hk, hprev, w, old, hw, hold, hversion⟩ hok
    | some v =>
        have := ((h.basisKept r).stored_le _ v hprev).2
        omega

variable [DecidableEq ι]

theorem System.Locked.setRun (h : s.Locked env) {r : ι} {ρ : Run}
    (hstep : LocalStep env r (s.db (env.conversationId r)) (s.runs r) l ρ) :
    (s.setRun r ρ).Locked env := by
  constructor
  · intro q
    rw [System.setRun_runs]
    split
    · exact (h.wellFormed r).step hstep
    · exact h.wellFormed q
  · intro q
    rw [System.setRun_runs]
    split
    · exact (h.basisKept r).step (h.wellFormed r) hstep
    · exact h.basisKept q
  · intro q
    rw [System.setRun_runs, System.setRun_db]
    split
    · rename_i hq
      subst hq
      intro hread
      obtain ⟨-, ⟨hbasis, -, hread'⟩ | ⟨-, hbasis, -⟩⟩ := hstep.frame (h.wellFormed q)
      · rw [hbasis]
        exact h.sees q (hread' hread)
      · rw [hbasis]
        exact sees_self _
    · exact h.sees q
  · intro q
    rw [System.setRun_runs, System.setRun_db]
    split
    · rename_i hq
      subst hq
      exact hstep.lost (h.lost q)
    · exact h.lost q

theorem System.Locked.store (h : s.Locked env) {r : ι} {k : ℕ} {w : Write}
    {record : IStateRecord} (hw : (s.runs r).writes[k]? = some w)
    (hup : upsert w.filterVersion w.state (s.db (env.conversationId r)) = some record) :
    (s.store env r k record).Locked env := by
  have hread : (s.runs r).hasRead := .inr ((h.wellFormed r).running_of_write hw)
  constructor
  · intro q
    rw [System.store_runs]
    split
    · exact ((h.wellFormed r).settle k .stored).saw _
    · exact h.wellFormed q
  · intro q
    rw [System.store_runs]
    split
    · exact (h.basisKept r).stored (h.wellFormed r) (h.sees r hread) hw hup
    · exact h.basisKept q
  · intro q hq
    rw [System.store_runs] at hq ⊢
    rw [System.store_db]
    by_cases hqr : q = r
    · subst hqr
      rw [if_pos rfl, if_pos rfl]
      exact sees_self _
    · rw [if_neg hqr] at hq ⊢
      have hsees := h.sees q hq
      by_cases hconv : env.conversationId q = env.conversationId r
      · rw [hconv] at hsees
        rw [if_pos hconv]
        exact hsees.upsert hup
      · rwa [if_neg hconv]
  · intro q w' hw' hdup
    rw [System.store_db]
    split_ifs with hconv
    · simp
    · rw [System.store_runs, if_neg fun hqr => hconv (congrArg env.conversationId hqr)] at hw'
      exact h.lost q w' hw' hdup

theorem System.Locked.step (h : s.Locked env) (hstep : step env s l = some s') :
    s'.Locked env := by
  rcases step_cases hstep with ⟨r, ρ, hlocal, rfl⟩ | ⟨r, k, w, record, -, hw, -, hup, rfl⟩
  · exact h.setRun hlocal
  · exact h.store hw hup

theorem System.RaceFree.store (hP : s.RaceFree) (h : s.Locked env) {r : ι} {k : ℕ} {w : Write}
    {record : IStateRecord} (hw : (s.runs r).writes[k]? = some w)
    (hup : upsert w.filterVersion w.state (s.db (env.conversationId r)) = some record)
    (hok : ¬ Overtakes env s (.update r k true)) : (s.store env r k record).RaceFree := by
  have hwf := h.wellFormed r
  have hrunning := hwf.running_of_write hw
  have hsees := h.sees r (.inr hrunning)
  have hlen := hwf.length_le
  have hklen : k < (s.runs r).writes.length := (List.getElem?_eq_some_iff.mp hw).1
  have hreplaced : s.db (env.conversationId r) = (s.runs r).basis := by
    cases hold : s.db (env.conversationId r) with
    | none =>
        -- records are never deleted, so the run cannot have seen one either
        rw [hold] at hsees
        cases hbasis : (s.runs r).basis with
        | none => rfl
        | some b =>
            rw [hbasis] at hsees
            obtain ⟨old, hcell, -⟩ := hsees
            cases hcell
    | some old =>
        -- the write names the version of the basis, and versions are not reused
        have hexpected := h.expected_of_store hw hup hold hok
        rw [hexpected] at hup
        rw [← hold]
        exact hsees.eq_of_upsert hup
  refine ⟨fun u hu => ?_, fun u hu => ?_, fun u hu => ?_⟩
  · rcases List.mem_cons.mp hu with rfl | hu
    · exact hreplaced
    · exact hP.replaced u hu
  · rcases List.mem_cons.mp hu with rfl | hu
    · rcases Nat.eq_zero_or_pos k with rfl | hk
      · simp
      · obtain ⟨w₀, hw₀⟩ : ∃ w₀, (s.runs r).writes[0]? = some w₀ :=
          ⟨_, List.getElem?_eq_getElem (by omega)⟩
        intro hdup
        have hstatus : w₀.status = .duplicateKey := by
          rw [List.head?_eq_getElem?, List.getElem?_map, List.getElem?_take_of_lt hk, hw₀] at hdup
          exact Option.some.inj hdup
        -- the first write lost against a record, and it is the one before write `k`
        obtain ⟨old, hold⟩ := Option.ne_none_iff_exists'.mp
          (h.lost r w₀ (List.mem_of_getElem? hw₀) hstatus)
        have hversion := (upsert_eq_some_iff.mp hup).2 old hold
        refine hok ⟨hk, ?_, w, old, hw, hold, hversion⟩
        obtain rfl : k = 1 := by omega
        simp [Run.storedState, hw₀, hstatus]
    · exact hP.loser u hu
  · rcases List.mem_cons.mp hu with rfl | hu
    · intro old hold
      have hbasis : (s.runs r).basis = some old := hreplaced.symm.trans hold
      -- a run starts from no final state, and only its last write can be final
      rcases (h.basisKept r).basis_eq with hprev | ⟨j, v, hj, hprev⟩
      · exact hwf.opened hrunning old (hprev.symm.trans hbasis)
      · obtain rfl := Option.some.inj (hbasis.symm.trans hprev)
        have hversion : expectedVersion (s.runs r).previousStateRecord + j + 1 =
            w.filterVersion := (upsert_eq_some_iff.mp hup).2 _ hold
        have hfilter := hwf.filter k w hw
        obtain ⟨w', hw', hstored⟩ := Option.bind_eq_some_iff.mp hj
        obtain ⟨-, hstate⟩ := Option.ite_none_right_eq_some.mp hstored
        obtain rfl := Option.some.inj hstate
        show w'.state.isFinal = false
        rw [hwf.earlier j w' hw' (by omega)]
        rfl
    · exact hP.final u hu

theorem System.not_raceFree_of_overtakes (h : s.Locked env) (hbad : Overtakes env s l)
    (hstep : step env s l = some s') : ¬ s'.RaceFree := by
  cases l with
  | update r k reachable =>
      cases reachable with
      | false => cases hbad
      | true =>
          obtain ⟨hk, hprev, w, old, hw, hold, hversion⟩ := hbad
          have hfilter := (h.wellFormed r).filter k w hw
          -- the version matches, so the write cannot have failed
          rcases step_cases hstep with ⟨q, ρ, hlocal, -⟩ | ⟨q, j, w', record, hl, hw', -, hup, rfl⟩
          · cases hlocal with
            | updateFails hw' _ hstatus =>
                obtain rfl := Option.some.inj (hw.symm.trans hw')
                rcases hstatus with ⟨hfalse, -⟩ | ⟨-, hup⟩
                · cases hfalse
                · obtain ⟨old', hold', hne⟩ := upsert_eq_none_iff.mp hup
                  obtain rfl := Option.some.inj (hold.symm.trans hold')
                  exact absurd hversion hne
          · cases hl
            intro hfree
            have heq := hfree.replaced _ (List.mem_cons_self ..)
            -- the basis is what was read or an older write, which names a lower version
            have hne : old.version ≠ expectedVersion (s.runs r).basis := by
              rcases (h.basisKept r).basis_eq with hbasis | ⟨i, v, hi, hbasis⟩
              · rw [hbasis]
                omega
              · rw [hbasis, expectedVersion_some]
                intro hcontra
                obtain rfl : i = k - 1 := by
                  simp only at hcontra
                  omega
                rw [hprev] at hi
                cases hi
            exact some_ne_of_version_ne hne (hold.symm.trans heq)
  | _ => cases hbad

/-- The writes that succeed replace what their runs had read or written last, the
losers of the race store nothing more and final states stay, exactly as long as
no later write of a run overtakes the run's write before it. -/
theorem raceFree_iff_not_overtakes (env : Env ι) (db : String → Option IStateRecord)
    (schedule : List (Label ι)) :
    Along (step env) System.RaceFree (System.initial db) schedule ↔
      Guarded (step env) (fun s l => ¬ Overtakes env s l) (System.initial db) schedule := by
  refine along_iff_guarded (I := System.Locked env) (fun s l s' h hstep => h.step hstep)
    (fun s l s' h hP hok hstep => ?_) (fun s l s' h _ hbad hstep => ?_)
    (System.locked_initial env db) ?_ schedule
  · rcases step_cases hstep with ⟨r, ρ, -, rfl⟩ | ⟨r, k, w, record, rfl, hw, -, hup, rfl⟩
    · exact ⟨hP.replaced, hP.loser, hP.final⟩
    · exact hP.store h hw hup hok
  · exact System.not_raceFree_of_overtakes h (not_not.mp hbad) hstep
  · constructor <;> simp [System.initial]

/-- An approval that arrives while the approver's refusal is being applied. Both
runs read the record of the pending approval; the refusal is stored first. -/
def approvalRace : Env Bool where
  configuration := ⟨true, false⟩
  restartsInvocation := false
  event refusal := if refusal then "REQUESTREFUSED_FROM_APPROVER" else "APPROVED_FROM_APPROVER"
  conversationId _ := "conversation"
  message refusal := ⟨if refusal then "requestRefused" else "approved", "Approver",
    "conversation", some []⟩

def approvalRaceSchedule : List (Label Bool) :=
  [.applyEvent true, .applyEvent false, .read true true, .read false true,
    .resume true, .resume false, .update true 0 true, .update false 0 true,
    .createInstanceEnds false none, .update false 1 true]

/-- The approval loses the race, and yet replaces the stored `OperationFailed`. -/
theorem not_raceFree_approvalRace :
    ¬ ∀ (env : Env Bool) (db : String → Option IStateRecord) (schedule : List (Label Bool)),
      Along (step env) System.RaceFree (System.initial db) schedule := by
  intro h
  have hrun := h approvalRace (fun _ => some ⟨1, .waitingForApproval⟩) approvalRaceSchedule
  have hupdates : (exec (step approvalRace)
      (System.initial fun _ => some ⟨1, .waitingForApproval⟩) approvalRaceSchedule).map
        (fun s => s.updates.map fun u => u.replaced.map fun record => record.value.isFinal) =
      some [some true, some false] := by decide
  obtain ⟨s, hs, hfinal⟩ := Option.map_eq_some_iff.mp hupdates
  have hfree := hrun.exec_eq hs
  cases hu : s.updates with
  | nil => simp [hu] at hfinal
  | cons u us =>
      rw [hu, List.map_cons, List.cons.injEq] at hfinal
      obtain ⟨record, hrecord, htrue⟩ := Option.map_eq_some_iff.mp hfinal.1
      have hfalse := hfree.final u (by simp [hu]) record hrecord
      rw [htrue] at hfalse
      cases hfalse

end Race

end I40Aas.OnboardingSkill
