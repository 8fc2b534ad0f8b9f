import I40Aas.Lib.History
import I40Aas.Lib.Progress
import I40Aas.DataManager.Runs

/-!
What the answers of the data manager stand for. A request is answered with status 200 only
when every submodel of it was stored in the database of the adapter that the registry had
named for it, whatever else goes on; and every request that is taken on can be brought to its
end, in a number of steps that is bounded by its length.
-/

namespace I40Aas.DataManager

open I40Aas.Lib I40Aas.AdapterRegistry

variable {ι κ : Type*} {env : Env ι κ} {s s' : State ι κ} {r : ι} {i : ℕ}

/-- The submodel is in the database of the adapter at the url. -/
def Stored (env : Env ι κ) (submodel : Submodel) (url : String) (s : State ι κ) : Prop :=
  ∃ sm submodelId version, submodel.fromJSON = some sm ∧ sm.submodelId = .ok submodelId ∧
    (s.db (env.host url)).lookup (env.md5 submodelId) = some ⟨version, sm.serialized⟩

/-! ### One submodel -/

/-- How the call of task `i` has come about in a step. -/
inductive Goes (env : Env ι κ) (s s' : State ι κ) (r : ι) (i : ℕ) (t' : Task) : Prop
  | stays (t : Task) : (s.requests r).tasks[i]? = some t →
      (t'.call = t.call ∨ t'.call = t.call.abandon) → Goes env s s' r i t'
  | starts (submodel : Submodel) : (s.requests r).phase = .idle →
      (env.submodels r)[i]? = some submodel → t'.call = submodel.start → Goes env s s' r i t'
  | moves (t : Task) (submodel : Submodel) : (s.requests r).tasks[i]? = some t →
      (env.submodels r)[i]? = some submodel → Moves s submodel t.call t'.call →
      s'.storage = s.storage → Goes env s s' r i t'
  | stores (t : Task) (url submodelId : String) (sm : StorageAdapter.Submodel) (version : ℕ) :
      (s.requests r).tasks[i]? = some t → t.call = .update url submodelId sm version →
      t'.call = .stored url →
      StorageAdapter.update (s.db (env.host url)) (env.md5 submodelId) version sm.serialized =
        .ok (s'.db (env.host url)) → Goes env s s' r i t'

/-- Task `i` knows the adapter at the url. -/
def State.Knows (s : State ι κ) (r : ι) (i : ℕ) (url : String) : Prop :=
  ∃ t, (s.requests r).tasks[i]? = some t ∧ t.call.url = some url

/-- The adapter at the url has stored the submodel of task `i`. -/
def State.HasStored (s : State ι κ) (r : ι) (i : ℕ) (url : String) : Prop :=
  ∃ t, (s.requests r).tasks[i]? = some t ∧ t.call = .stored url

/-- A stored submodel was looked up before. -/
theorem knows_of_hasStored {url : String} (h : s.HasStored r i url) : s.Knows r i url := by
  obtain ⟨t, ht, hcall⟩ := h
  exact ⟨t, ht, by rw [hcall]; rfl⟩

section Task

variable [DecidableEq ι] [DecidableEq κ] {l : Label ι κ}

theorem goes_of_step (h : s.Sound env) (hstep : step env s l = some s') {t' : Task}
    (ht' : (s'.requests r).tasks[i]? = some t') : Goes env s s' r i t' := by
  have hsame : (s.requests r).tasks[i]? = some t' → Goes env s s' r i t' :=
    fun ht => .stays t' ht (.inl rfl)
  cases step_cases hstep with
  | receives q hidle =>
      rw [State.setRequest_requests] at ht'
      split at ht'
      · rename_i hq
        subst hq
        unfold Env.receive at ht'
        split at ht'
        · cases ht'
        · rw [List.getElem?_map] at ht'
          obtain ⟨submodel, hsubmodel, rfl⟩ := Option.map_eq_some_iff.mp ht'
          exact .starts submodel hidle hsubmodel rfl
      · exact hsame ht'
  | @advances _ q j t call _ ht hmoves =>
      rw [State.advance, State.setRequest_requests] at ht'
      split at ht'
      · rename_i hq
        subst hq
        rcases getElem?_modify_task ht' with ⟨rfl, t₀, ht₀, rfl⟩ | ht'
        · obtain ⟨submodel, hsubmodel⟩ := (h r).submodel ht₀
          obtain rfl := Option.some.inj (ht.symm.trans ht₀)
          exact .moves t submodel ht hsubmodel (hmoves submodel hsubmodel) rfl
        · exact hsame ht'
      · exact hsame ht'
  | @stores _ q j t url submodelId sm version db _ ht hcall hupdate =>
      change ((s.advance q j (.stored url)).requests r).tasks[i]? = some t' at ht'
      rw [State.advance, State.setRequest_requests] at ht'
      split at ht'
      · rename_i hq
        subst hq
        rcases getElem?_modify_task ht' with ⟨rfl, t₀, ht₀, rfl⟩ | ht'
        · refine .stores t url submodelId sm version ht hcall rfl ?_
          show _ = Except.ok (Function.update s.db (env.host url) db (env.host url))
          rw [hupdate, Function.update_self]
        · exact hsame ht'
      · exact hsame ht'
  | @settles _ q j t promise _ ht hpending hpromise =>
      rw [State.setRequest_requests] at ht'
      split at ht'
      · rename_i hq
        subst hq
        rcases getElem?_modify_task ht' with ⟨rfl, t₀, ht₀, rfl⟩ | ht'
        · exact .stays t₀ ht₀ (.inr rfl)
        · exact hsame ht'
      · exact hsame ht'
  | registers storage _ => exact hsame ht'
  | changes db _ => exact hsame ht'
  | exits _ =>
      obtain ⟨t, ht, rfl⟩ := Request.exit_tasks ht'
      exact .stays t ht (.inr rfl)

/-- The url is known from the registry. -/
theorem registered_of_knows (h : s.Sound env) (hstep : step env s l = some s') {url : String}
    {submodel : Submodel} (hsubmodel : (env.submodels r)[i]? = some submodel)
    (hno : ¬ s.Knows r i url) (hknows : s'.Knows r i url) :
    Registered submodel url s'.storage := by
  obtain ⟨t', ht', hurl⟩ := hknows
  cases goes_of_step h hstep ht' with
  | stays t ht hcall =>
      refine absurd ⟨t, ht, ?_⟩ hno
      rcases hcall with heq | heq <;> rw [heq] at hurl
      · exact hurl
      · exact (Call.abandon_url _).symm.trans hurl
  | starts submodel' _ _ hcall =>
      rcases submodel'.start_cases with heq | heq <;> rw [hcall, heq] at hurl <;> cases hurl
  | moves t submodel' ht hsubmodel' hmoves hstorage =>
      obtain rfl := Option.some.inj (hsubmodel.symm.trans hsubmodel')
      rw [hstorage]
      exact (hmoves.url hurl).resolve_left fun hurl' => hno ⟨t, ht, hurl'⟩
  | stores t url' submodelId sm version ht hcall hcall' _ =>
      rw [hcall'] at hurl
      exact absurd ⟨t, ht, by rw [hcall]; exact hurl⟩ hno

/-- A submodel that has just been stored is in the database. -/
theorem stored_of_hasStored (h : s.Sound env) (hstep : step env s l = some s') {url : String}
    {submodel : Submodel} (hsubmodel : (env.submodels r)[i]? = some submodel)
    (hno : ¬ s.HasStored r i url) (hstored : s'.HasStored r i url) :
    Stored env submodel url s' := by
  obtain ⟨t', ht', hcall'⟩ := hstored
  cases goes_of_step h hstep ht' with
  | stays t ht hcall =>
      refine absurd ⟨t, ht, ?_⟩ hno
      rcases hcall with heq | heq <;> rw [heq] at hcall'
      · exact hcall'
      · exact Call.abandon_eq_stored.mp hcall'
  | starts submodel' _ _ hcall =>
      rcases submodel'.start_cases with heq | heq <;> cases (hcall.trans heq).symm.trans hcall'
  | moves t submodel' ht hsubmodel' hmoves hstorage => exact absurd hcall' hmoves.ne_stored.2
  | stores t url' submodelId sm version ht hcall hcall'' hupdate =>
      obtain rfl : url' = url := by simpa [hcall''] using hcall'
      have hcarries := (h r).carries i t submodel ht hsubmodel
      rw [hcall] at hcarries
      refine ⟨sm, submodelId, version + 1, hcarries.1, hcarries.2, ?_⟩
      rw [(StorageAdapter.update_eq_ok_iff.mp hupdate).2, AList.lookup_insert]

end Task

section Runs

variable [DecidableEq ι] [DecidableEq κ] {storage : Storage}
  {db : κ → StorageAdapter.Collection} {ls : List (Label ι κ)}

theorem sound_of_exec (hexec : exec (step env) (.initial storage db) ls = some s) :
    s.Sound env :=
  (along_of_invariant (fun _ _ _ h hstep => h.step hstep)
    (State.sound_initial env storage db) ls).exec_eq hexec

/-- The adapter of a stored submodel was looked up in the registry, and then the submodel was
stored there. -/
theorem then_of_hasStored (hexec : exec (step env) (.initial storage db) ls = some s)
    {submodel : Submodel} (hsubmodel : (env.submodels r)[i]? = some submodel) {url : String}
    (h : s.HasStored r i url) :
    Then (step env) (fun t => Registered submodel url t.storage) (Stored env submodel url)
      (.initial storage db) ls := by
  have hinitial : ¬ (State.initial storage db : State ι κ).Knows r i url := by
    rintro ⟨t, ht, -⟩
    cases ht
  have hknown : ∀ ls t, exec (step env) (.initial storage db) ls = some t → t.Knows r i url →
      Once (step env) (fun t => Registered submodel url t.storage) (.initial storage db) ls :=
    fun ls t hexec' => once_of_becomes (fun _ _ _ h hstep => h.step hstep)
      (fun _ _ _ h hstep => registered_of_knows h hstep hsubmodel)
      (State.sound_initial env storage db) hinitial hexec'
  have hstored : Once (step env) (fun t => t.Sound env ∧ t.HasStored r i url ∧
      Stored env submodel url t) (.initial storage db) ls := by
    refine once_of_becomes (I := State.Sound env) (Q := fun t => t.HasStored r i url)
      (fun _ _ _ h hstep => h.step hstep) (fun s l s' hsound hstep hno hnow => ?_)
      (State.sound_initial env storage db) (fun hno => hinitial (knows_of_hasStored hno)) hexec h
    exact ⟨hsound.step hstep, hnow, stored_of_hasStored hsound hstep hsubmodel hno hnow⟩
  have hthen := hstored.then fun ls t hexec' ht => hknown ls t hexec' (knows_of_hasStored ht.2.1)
  exact hthen.mono (fun _ h => h) fun _ h => h.2.2

/-- A request that is turned away stays without tasks. -/
theorem tasks_of_refusal (hexec : exec (step env) (.initial storage db) ls = some s)
    {status : ℕ} (hrefusal : env.refusal r = some status) :
    (s.requests r).tasks = [] ∧ ∀ status', (s.requests r).phase = .answered status' →
      status' = status := by
  have hsound := sound_of_exec hexec r
  rcases hsound.refused status hrefusal with hidle | heq
  · refine ⟨hsound.idle hidle, fun status' h => ?_⟩
    cases hidle.symm.trans h
  · rw [heq]
    exact ⟨rfl, fun status' h => (Phase.answered.inj h).symm⟩

/-- Only a request that is taken on is answered without an error, and then every submodel was
stored. -/
theorem hasStored_of_answered (hexec : exec (step env) (.initial storage db) ls = some s)
    {status : ℕ} (h : (s.requests r).phase = .answered status) (hstatus : status < 400) :
    env.refusal r = none ∧ ∀ (i : ℕ) (submodel : Submodel),
      (env.submodels r)[i]? = some submodel → ∃ url, s.HasStored r i url := by
  have hrefusal : env.refusal r = none := by
    refine Option.eq_none_iff_forall_not_mem.mpr fun refusal hrefusal => ?_
    have hle := Env.le_of_refusal hrefusal
    have heq := (tasks_of_refusal hexec hrefusal).2 status h
    omega
  refine ⟨hrefusal, fun i submodel hsubmodel => ?_⟩
  have hsound := sound_of_exec hexec r
  have hall : ∀ promise ∈ (s.requests r).promises, promise = .fulfilled := by
    rcases hsound.answered status hrefusal h with ⟨-, hall⟩ | ⟨rfl, -⟩
    · exact hall
    · omega
  obtain ⟨hi, -⟩ := List.getElem?_eq_some_iff.mp hsubmodel
  rw [← hsound.length hrefusal (by rw [h]; simp)] at hi
  have ht : (s.requests r).tasks[i]? = some (s.requests r).tasks[i] := List.getElem?_eq_getElem hi
  obtain ⟨url, hurl⟩ := hsound.fulfilled _ (List.getElem_mem hi)
    (hall _ (List.mem_map.mpr ⟨_, List.getElem_mem hi, rfl⟩))
  exact ⟨url, _, ht, hurl⟩

/-- A request that is answered with status 200 has submodels, and each of them was stored by
the adapter that a lookup in the registry had found for it before. -/
theorem stored_of_answered (hexec : exec (step env) (.initial storage db) ls = some s)
    (h : (s.requests r).phase = .answered 200) :
    ∃ submodels, env.body r = some submodels ∧ submodels ≠ [] ∧
      ∀ (i : ℕ) (submodel : Submodel), submodels[i]? = some submodel → ∃ url,
        Then (step env) (fun t => Registered submodel url t.storage) (Stored env submodel url)
          (.initial storage db) ls := by
  obtain ⟨hrefusal, hstored⟩ := hasStored_of_answered hexec h (by decide)
  obtain ⟨hbody, hne⟩ := Env.submodels_ne_nil hrefusal
  refine ⟨env.submodels r, hbody, hne, fun i submodel hsubmodel => ?_⟩
  obtain ⟨url, hurl⟩ := hstored i submodel hsubmodel
  exact ⟨url, then_of_hasStored hexec hsubmodel hurl⟩

end Runs

/-! ### A submodel by itself -/

/-- `getAdapterFromRegistry` where nothing is registered between the lookups. -/
def Submodel.resolve (submodel : Submodel) (storage : Storage) : Call :=
  match submodel.start with
  | .getAdapterBySubmodelId =>
      match submodel.lookup storage with
      | .getAdapterBySubmodelSemanticId => submodel.lookupSemantic storage
      | call => call
  | call => call

theorem callFor_eq_post_iff {adapter : Adapter} {url : String} :
    callFor adapter = .post url ↔ adapter.url.truthy = true ∧ adapter.url = .string url := by
  unfold callFor
  split
  · rename_i text hurl
    by_cases hempty : text = ""
    · simp [hurl, hempty, Field.truthy]
    · simp [hurl, hempty, Field.truthy]
  · rename_i hno
    simpa using fun _ => hno url

theorem resolve_eq_callFor {submodel : Submodel} {id value : Option String}
    (hparams : submodel.params = some (id, value)) (storage : Storage) :
    submodel.resolve storage =
      match getAdapters storage id value with
      | .adapter adapter => callFor adapter
      | _ => .failed := by
  unfold Submodel.resolve Submodel.start Submodel.lookup Submodel.lookupSemantic getAdapters
  simp only [hparams]
  by_cases hgiven : (!given id && !given value) = true
  · rw [if_pos hgiven, if_pos hgiven]
  · rw [if_neg hgiven, if_neg hgiven]
    cases getAdapterBySubmodelId storage id with
    | none => cases getAdapterBySubmodelSemanticId storage value <;> rfl
    | some adapter =>
        dsimp only
        rcases callFor_cases adapter with heq | ⟨url, -, -, heq⟩ <;> rw [heq]

/-- Then the submodel is posted to the adapter that one look at the registry finds. -/
theorem resolve_eq_post_iff {submodel : Submodel} {id url : String}
    (hid : submodel.identification = some (some id)) {storage : Storage} :
    submodel.resolve storage = .post url ↔ ∃ adapter,
      postedTo storage ⟨id, submodel.semanticId⟩ = some adapter ∧ adapter.url = .string url := by
  have hparams : submodel.params =
      (AdapterRegistry.Submodel.semanticIdValue ⟨id, submodel.semanticId⟩).map (some id, ·) := by
    unfold Submodel.params AdapterRegistry.Submodel.semanticIdValue
    rw [hid]
    cases submodel.semanticId with
    | none => rfl
    | some values => cases values <;> rfl
  simp only [postedTo_eq_some_iff]
  cases hvalue : AdapterRegistry.Submodel.semanticIdValue ⟨id, submodel.semanticId⟩ with
  | none =>
      rw [hvalue] at hparams
      simp [Submodel.resolve, Submodel.start, show submodel.params = none from hparams]
  | some value =>
      rw [hvalue] at hparams
      rw [resolve_eq_callFor (show submodel.params = some (some id, value) from hparams)]
      simp only [Option.some.injEq, exists_eq_left']
      cases getAdapters storage (some id) value with
      | adapter adapter => simp [callFor_eq_post_iff]
      | _ => simp

/-- And the adapter stores it as it does for a client of its own. -/
theorem exec_update [DecidableEq ι] [DecidableEq κ] {promise : Promise} {url submodelId : String}
    {sm : StorageAdapter.Submodel}
    (ht : (s.requests r).tasks[i]? = some ⟨promise, .getPreviousSubmodel url submodelId sm⟩)
    (hid : sm.submodelId = .ok submodelId) :
    (exec (step env) s [.getPreviousSubmodel r i true, .update r i true]).map
        (·.db (env.host url)) =
      some (StorageAdapter.createEquipmentAndSetInitialValues env.md5 (fun _ => true)
        (s.db (env.host url)) sm).2 := by
  generalize hversion : expectedVersion ((s.db (env.host url)).lookup (env.md5 submodelId)) = version
  have hread : step env s (.getPreviousSubmodel r i true) =
      some (s.advance r i (.update url submodelId sm version)) := by
    simp [step, ht, hversion]
  have htask : ((s.advance r i (.update url submodelId sm version)).requests r).tasks[i]? =
      some ⟨promise, .update url submodelId sm version⟩ := by
    rw [State.advance, State.setRequest_requests, if_pos rfl, Request.advance,
      List.getElem?_modify_eq, ht]
    rfl
  rw [exec, hread, Option.bind_some, exec]
  simp only [step, htask, exec, Option.bind_some, Option.map_some]
  unfold StorageAdapter.createEquipmentAndSetInitialValues
  simp only [hid, if_true, hversion]
  cases hupdate : StorageAdapter.update (s.db (env.host url)) (env.md5 submodelId) version
    sm.serialized with
  | error error => simp [State.updateEnds, State.advance, State.setRequest, hupdate]
  | ok db => simp [State.updateEnds, State.advance, State.setRequest, hupdate]

/-! ### The end of a request -/

def Task.rank (t : Task) : ℕ := t.call.rank + if t.promise = .pending then 1 else 0

/-- How many steps a request may still take. -/
def State.rank (env : Env ι κ) (r : ι) (s : State ι κ) : ℕ :=
  if (s.requests r).phase = .idle then 6 * (env.submodels r).length + 1
  else ((s.requests r).tasks.map Task.rank).sum

/-- Submodel `i` of the request reaches an adapter. -/
def Label.posts [DecidableEq ι] (r : ι) (i : ℕ) : Label ι κ → Bool
  | .postSubmodel q j => q = r ∧ j = i
  | _ => false

/-- How often task `i` may still be posted. -/
def State.posts (r : ι) (i : ℕ) (s : State ι κ) : ℕ :=
  if (s.requests r).phase = .idle ∨ ∃ t, (s.requests r).tasks[i]? = some t ∧ 3 ≤ t.call.rank then 1
  else 0

section Progress

theorem Submodel.start_rank_le (submodel : Submodel) : submodel.start.rank ≤ 5 := by
  rcases submodel.start_cases with heq | heq <;> rw [heq] <;> decide

theorem Call.abandon_rank_le (call : Call) : call.abandon.rank ≤ call.rank := by
  cases call <;> simp [Call.abandon, Call.rank]

theorem sum_start_le (submodels : List Submodel) :
    ((submodels.map fun submodel => Task.mk .pending submodel.start).map Task.rank).sum ≤
      6 * submodels.length := by
  induction submodels with
  | nil => exact Nat.le_refl _
  | cons submodel submodels ih =>
      have hrank : (Task.mk .pending submodel.start).rank ≤ 6 :=
        Nat.succ_le_succ submodel.start_rank_le
      simp only [List.map_cons, List.sum_cons, List.length_cons]
      omega

theorem sum_exit_le (tasks : List Task) :
    ((tasks.map fun t => { t with call := t.call.abandon }).map Task.rank).sum ≤
      (tasks.map Task.rank).sum := by
  induction tasks with
  | nil => exact Nat.le_refl _
  | cons t tasks ih =>
      have hrank : Task.rank { t with call := t.call.abandon } ≤ t.rank :=
        Nat.add_le_add_right t.call.abandon_rank_le _
      simp only [List.map_cons, List.sum_cons]
      omega

theorem Env.receive_phase (env : Env ι κ) (r : ι) : (env.receive r).phase ≠ .idle := by
  unfold Env.receive
  split <;> simp

theorem Env.sum_receive_le (env : Env ι κ) (r : ι) :
    ((env.receive r).tasks.map Task.rank).sum ≤ 6 * (env.submodels r).length := by
  unfold Env.receive
  split
  · exact Nat.zero_le _
  · exact sum_start_le _

variable [DecidableEq ι] [DecidableEq κ] {l : Label ι κ}

/-- A task that has gone on makes the request have fewer steps before it. -/
theorem Request.sum_modify_lt {ρ : Request} {t t' : Task} {f : Task → Task}
    (ht : ρ.tasks[i]? = some t) (hf : f t = t') (hrank : t'.rank < t.rank) :
    ((ρ.tasks.modify i f).map Task.rank).sum < (ρ.tasks.map Task.rank).sum := by
  have hsum := sum_modify Task.rank (f := f) ht
  rw [hf] at hsum
  omega

theorem rank_step (h : s.Sound env) (hstep : step env s l = some s') (r : ι) :
    s'.rank env r + (if l.request = some r then 1 else 0) ≤ s.rank env r := by
  -- a step of another request
  have hother : ∀ {q : ι} {ρ : Request}, q ≠ r → (s.setRequest q ρ).rank env r + 0 ≤ s.rank env r := by
    intro q ρ hq
    rw [State.rank, State.setRequest_requests, if_neg (Ne.symm hq)]
    exact Nat.le_refl _
  -- a step of this one
  have hown : ∀ {ρ : Request}, (s.requests r).phase ≠ .idle → ρ.phase ≠ .idle →
      (ρ.tasks.map Task.rank).sum < ((s.requests r).tasks.map Task.rank).sum →
      (s.setRequest r ρ).rank env r + 1 ≤ s.rank env r := by
    intro ρ hidle hidle' hlt
    rw [State.rank, State.setRequest_requests, if_pos rfl, if_neg hidle', State.rank, if_neg hidle]
    exact hlt
  cases step_cases hstep with
  | receives q hidle =>
      have hl : (Label.postSubmodels q : Label ι κ).request = some q := rfl
      rw [hl]
      by_cases hq : q = r
      · subst hq
        have hsum := env.sum_receive_le q
        rw [if_pos rfl, State.rank, State.setRequest_requests, if_pos rfl,
          if_neg (env.receive_phase q), State.rank, if_pos hidle]
        omega
      · rw [if_neg (by simpa using hq)]
        exact hother hq
  | @advances _ q i t call hl ht hmoves =>
      rw [hl]
      by_cases hq : q = r
      · subst hq
        obtain ⟨submodel, hsubmodel⟩ := (h q).submodel ht
        have hlt : call.rank < t.call.rank := (hmoves submodel hsubmodel).rank_lt
        rw [if_pos rfl]
        exact hown ((h q).not_idle ht) ((h q).not_idle ht)
          (Request.sum_modify_lt ht rfl (Nat.add_lt_add_right hlt _))
      · rw [if_neg (by simpa using hq)]
        exact hother hq
  | @stores _ q i t url submodelId sm version db hl ht hcall hupdate =>
      rw [hl]
      by_cases hq : q = r
      · subst hq
        have hlt : (Call.stored url).rank < t.call.rank := by
          rw [hcall]
          exact Nat.zero_lt_one
        rw [if_pos rfl]
        exact hown ((h q).not_idle ht) ((h q).not_idle ht)
          (Request.sum_modify_lt ht rfl (Nat.add_lt_add_right hlt _))
      · rw [if_neg (by simpa using hq)]
        exact hother hq
  | @settles _ q i t promise hl ht hpending hpromise =>
      rw [hl]
      by_cases hq : q = r
      · subst hq
        have hne : promise ≠ .pending := by
          rcases hpromise with ⟨rfl, -⟩ | rfl <;> decide
        have hlt : (Task.mk promise t.call.abandon).rank < t.rank := by
          have habandon := t.call.abandon_rank_le
          simp only [Task.rank, hpending, if_neg hne, if_true]
          omega
        have hidle' := ((h q).settle ht hpending hpromise).not_idle (i := i)
          (t := ⟨promise, t.call.abandon⟩) (by simp [Request.settle, ht])
        rw [if_pos rfl]
        exact hown ((h q).not_idle ht) hidle' (Request.sum_modify_lt ht rfl hlt)
      · rw [if_neg (by simpa using hq)]
        exact hother hq
  | registers storage hl =>
      rw [hl]
      exact Nat.le_refl _
  | changes db hl =>
      rw [hl]
      exact Nat.le_refl _
  | exits hl =>
      rw [hl]
      rw [if_neg (by simp), State.rank, State.rank]
      by_cases hidle : (s.requests r).phase = .idle
      · have hidle' : (s.requests r).exit.phase = .idle := by
          rw [Request.exit_phase, hidle]
          rfl
        rw [if_pos hidle, if_pos hidle']
      · have hidle' : (s.requests r).exit.phase ≠ .idle :=
          fun hno => hidle (Request.exit_phase_eq hno (by decide)).2
        rw [if_neg hidle, if_neg hidle']
        exact sum_exit_le _

/-- A request that is under way can take a step, and no answer need be missing for it. -/
theorem exists_step (h : s.Sound env) (hrouting : (s.requests r).phase = .routing) :
    ∃ l, l.request = some r ∧ (∀ i, l ≠ .settle r i false) ∧ (step env s l).isSome = true := by
  obtain ⟨hno, promise, hmem, hne⟩ := (h r).routing hrouting
  obtain ⟨t, ht, rfl⟩ := List.mem_map.mp hmem
  obtain ⟨i, hi⟩ := List.mem_iff_getElem?.mp ht
  obtain ⟨submodel, hsubmodel⟩ := (h r).submodel hi
  have hpending : t.promise = .pending := by
    cases hpromise : t.promise with
    | pending => rfl
    | fulfilled => exact absurd hpromise hne
    | rejected => exact absurd (List.mem_map.mpr ⟨t, ht, hpromise⟩) hno
  obtain ⟨promise, call⟩ := t
  obtain rfl : promise = .pending := hpending
  have hlost : (s.requests r).phase ≠ .lost := by
    rw [hrouting]
    decide
  cases call with
  | getAdapterBySubmodelId =>
      exact ⟨.getAdapterBySubmodelId r i, rfl, by simp, by simp [step, hi, hsubmodel]⟩
  | getAdapterBySubmodelSemanticId =>
      exact ⟨.getAdapterBySubmodelSemanticId r i, rfl, by simp, by simp [step, hi, hsubmodel]⟩
  | post url => exact ⟨.postSubmodel r i, rfl, by simp, by simp [step, hi, hsubmodel]⟩
  | getPreviousSubmodel url submodelId sm =>
      exact ⟨.getPreviousSubmodel r i true, rfl, by simp, by simp [step, hi]⟩
  | update url submodelId sm version =>
      exact ⟨.update r i true, rfl, by simp, by simp [step, hi]⟩
  | stored url => exact ⟨.settle r i true, rfl, by simp, by simp [step, hi, hlost]⟩
  | failed => exact ⟨.settle r i true, rfl, by simp, by simp [step, hi, hlost]⟩

/-- A post uses up the one post of its task. -/
theorem posts_step (h : s.Sound env) (hstep : step env s l = some s') :
    s'.posts r i + (if l.posts r i then 1 else 0) ≤ s.posts r i := by
  by_cases hl : l.posts r i = true
  · obtain rfl : l = .postSubmodel r i := by
      cases l with
      | postSubmodel q j =>
          obtain ⟨rfl, rfl⟩ : q = r ∧ j = i := by simpa [Label.posts] using hl
          rfl
      | _ => cases hl
    simp only [step] at hstep
    split at hstep
    · rename_i submodel promise url hsubmodel htask
      obtain rfl := Option.some.inj hstep
      have hbefore : s.posts r i = 1 := if_pos (.inr ⟨_, htask, Nat.le_refl 3⟩)
      have hafter : (s.advance r i (submodel.taken url)).posts r i = 0 := by
        refine if_neg ?_
        rw [State.advance, State.setRequest_requests, if_pos rfl]
        rintro (hidle | ⟨t, ht, hrank⟩)
        · exact (h r).not_idle htask hidle
        · rw [Request.advance, List.getElem?_modify, htask] at ht
          obtain rfl : (⟨promise, submodel.taken url⟩ : Task) = t := by simpa using ht
          rcases submodel.taken_cases url with heq | ⟨submodelId, sm, heq, -, -⟩ <;>
            simp [heq, Call.rank] at hrank
      rw [hbefore, hafter, if_pos hl]
    · cases hstep
  · rw [if_neg hl]
    by_cases hafter : (s'.requests r).phase = .idle ∨
        ∃ t, (s'.requests r).tasks[i]? = some t ∧ 3 ≤ t.call.rank
    · have hbefore : (s.requests r).phase = .idle ∨
          ∃ t, (s.requests r).tasks[i]? = some t ∧ 3 ≤ t.call.rank := by
        rcases hafter with hidle | ⟨t', ht', hrank⟩
        · exact .inl (by_contra fun hno => not_idle_of_step hstep hno hidle)
        · cases goes_of_step h hstep ht' with
          | stays t ht hcall =>
              have habandon := t.call.abandon_rank_le
              rcases hcall with heq | heq <;> rw [heq] at hrank
              · exact .inr ⟨t, ht, hrank⟩
              · exact .inr ⟨t, ht, Nat.le_trans hrank habandon⟩
          | starts submodel hidle _ _ => exact .inl hidle
          | moves t submodel ht _ hmoves _ =>
              exact .inr ⟨t, ht, Nat.le_trans hrank (Nat.le_of_lt hmoves.rank_lt)⟩
          | stores t url submodelId sm version ht _ hcall _ =>
              rw [hcall] at hrank
              cases hrank
      rw [State.posts, if_pos hafter, State.posts, if_pos hbefore]
    · rw [State.posts, if_neg hafter]
      exact Nat.zero_le _

/-- In every run a request takes at most six steps for each of its submodels and one more,
each submodel reaches an adapter at most once, and a request under way can always go on. -/
theorem request_ends {storage : Storage} {db : κ → StorageAdapter.Collection}
    {ls : List (Label ι κ)} (hexec : exec (step env) (.initial storage db) ls = some s) (r : ι) :
    (ls.filter (·.request = some r)).length ≤ 6 * (env.submodels r).length + 1 ∧
      (∀ i, (ls.filter (·.posts r i)).length ≤ 1) ∧
      ((s.requests r).phase = .routing → ∃ l, l.request = some r ∧
        (∀ i, l ≠ .settle r i false) ∧ (step env s l).isSome = true) := by
  have hinitial := State.sound_initial env storage db
  have hkeeps : ∀ (s : State ι κ) (l : Label ι κ) (s' : State ι κ), s.Sound env →
      step env s l = some s' → s'.Sound env := fun _ _ _ h hstep => h.step hstep
  refine ⟨?_, fun i => ?_, exists_step (sound_of_exec hexec)⟩
  · have hsteps := length_filter_add_le (fun l : Label ι κ => decide (l.request = some r))
      (State.rank env r) hkeeps
      (fun s l s' h hstep => by simpa using rank_step h hstep r) hinitial hexec
    have hsupply : (State.initial storage db : State ι κ).rank env r =
        6 * (env.submodels r).length + 1 := rfl
    omega
  · have hposts := length_filter_add_le (fun l : Label ι κ => l.posts r i) (State.posts r i) hkeeps
      (fun s l s' h hstep => posts_step h hstep) hinitial hexec
    have hsupply : (State.initial storage db : State ι κ).posts r i = 1 := if_pos (.inl rfl)
    omega

end Progress

/-! A submodel, and the adapter for it. -/

def motorText : String :=
  "\x7b\"idShort\":\"motor\",\"identification\":\x7b\"id\":\"submodel\",\"idType\":\"uri\"\x7d\x7d"

def motor : Submodel where
  idShort := .string "motor"
  identification := some (some "submodel")
  semanticId := none
  fromJSON := some ⟨some "submodel", some (some "uri"), motorText⟩

def motorEnv : Env Unit Unit where
  body _ := some [motor]
  fits _ := true
  authorized _ := true
  md5 := id
  host _ := ()

def motorSchedule : List (Label Unit Unit) :=
  [.createAdapter submodelAdapter, .postSubmodels (), .getAdapterBySubmodelId () 0,
    .postSubmodel () 0, .getPreviousSubmodel () 0 true, .update () 0 true, .settle () 0 true]

def motorEnd : Option Phase :=
  (exec (step motorEnv) (.initial .empty fun _ => ∅) motorSchedule).map
    fun s => (s.requests ()).phase

theorem stored_of_answered_motor :
    ∃ url, Then (step motorEnv) (fun t => Registered motor url t.storage)
      (Stored motorEnv motor url) (.initial .empty fun _ => ∅) motorSchedule := by
  have hend : motorEnd = some (.answered 200) := by decide
  obtain ⟨s, hexec, hphase⟩ := Option.map_eq_some_iff.mp hend
  obtain ⟨submodels, hbody, -, hstored⟩ := stored_of_answered hexec hphase
  obtain rfl := Option.some.inj hbody
  exact hstored 0 motor rfl

theorem request_ends_motor : (motorSchedule.filter (·.request = some ())).length ≤ 7 ∧
    ∀ i, (motorSchedule.filter (·.posts () i)).length ≤ 1 := by
  have hend : motorEnd = some (.answered 200) := by decide
  obtain ⟨s, hexec, -⟩ := Option.map_eq_some_iff.mp hend
  obtain ⟨hsteps, hposts, -⟩ := request_ends hexec ()
  exact ⟨hsteps, hposts⟩

end I40Aas.DataManager
