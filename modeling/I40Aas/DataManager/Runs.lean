import I40Aas.Lib.Execution
import I40Aas.DataManager.Requests

/-!
What a step of the data manager and its neighbours can do, said once, and the bookkeeping of
the requests that every step keeps.
-/

namespace I40Aas.DataManager

open I40Aas.Lib I40Aas.AdapterRegistry

/-- The adapter at the url is the one that a lookup for the submodel finds. -/
def Registered (submodel : Submodel) (url : String) (storage : Storage) : Prop :=
  url ≠ "" ∧ ∃ adapter submodelid submodelsemanticid, adapter.url = .string url ∧
    submodel.params = some (submodelid, submodelsemanticid) ∧
    (IsLast (·.submodelid.equals submodelid) storage.values adapter ∨
      IsLast (·.submodelsemanticid.equals submodelsemanticid) storage.values adapter)

/-! ### The parts of a call -/

/-- The url of the adapter, as soon as it is known. -/
def Call.url : Call → Option String
  | .post url | .getPreviousSubmodel url _ _ | .update url _ _ _ | .stored url => some url
  | _ => none

/-- How many steps may still follow. -/
def Call.rank : Call → ℕ
  | .getAdapterBySubmodelId => 5
  | .getAdapterBySubmodelSemanticId => 4
  | .post _ => 3
  | .getPreviousSubmodel _ _ _ => 2
  | .update _ _ _ _ => 1
  | .stored _ | .failed => 0

/-- The submodel that waits for the database is the one of the request. -/
def Call.Carries (submodel : Submodel) : Call → Prop
  | .getPreviousSubmodel _ submodelId sm | .update _ submodelId sm _ =>
      submodel.fromJSON = some sm ∧ sm.submodelId = .ok submodelId
  | _ => True

section Call

variable {submodel : Submodel} {storage : Storage} {adapter : Adapter} {url : String}

@[simp] theorem Call.abandon_url (call : Call) : call.abandon.url = call.url := by
  cases call <;> rfl

theorem Call.abandon_eq_stored {call : Call} : call.abandon = .stored url ↔ call = .stored url := by
  cases call <;> simp [Call.abandon]

theorem Call.Carries.abandon {call : Call} (h : call.Carries submodel) :
    call.abandon.Carries submodel := by
  cases call <;> exact h

theorem callFor_cases (adapter : Adapter) :
    callFor adapter = .failed ∨
      ∃ url, adapter.url = .string url ∧ url ≠ "" ∧ callFor adapter = .post url := by
  unfold callFor
  split
  · rename_i url hurl
    by_cases hempty : url = ""
    · exact .inl (if_pos hempty)
    · exact .inr ⟨url, hurl, hempty, if_neg hempty⟩
  · exact .inl rfl

theorem Submodel.start_cases (submodel : Submodel) :
    submodel.start = .failed ∨ submodel.start = .getAdapterBySubmodelId := by
  unfold Submodel.start
  split
  · exact .inl rfl
  · split
    · exact .inl rfl
    · exact .inr rfl

theorem Submodel.lookup_cases (submodel : Submodel) (storage : Storage) :
    submodel.lookup storage = .failed ∨
      submodel.lookup storage = .getAdapterBySubmodelSemanticId ∨
      ∃ url, submodel.lookup storage = .post url ∧ Registered submodel url storage := by
  unfold Submodel.lookup
  split
  · exact .inl rfl
  · rename_i submodelid submodelsemanticid hparams
    split
    · rename_i adapter hadapter
      have hlast := lastMatch_eq_some_iff.mp hadapter
      rcases callFor_cases adapter with hfailed | ⟨url, hurl, hempty, hpost⟩
      · exact .inl hfailed
      · exact .inr (.inr ⟨url, hpost, hempty, adapter, _, _, hurl, hparams, .inl hlast⟩)
    · exact .inr (.inl rfl)

theorem Submodel.lookupSemantic_cases (submodel : Submodel) (storage : Storage) :
    submodel.lookupSemantic storage = .failed ∨
      ∃ url, submodel.lookupSemantic storage = .post url ∧ Registered submodel url storage := by
  unfold Submodel.lookupSemantic
  split
  · exact .inl rfl
  · rename_i submodelid submodelsemanticid hparams
    split
    · rename_i adapter hadapter
      have hlast := lastMatch_eq_some_iff.mp hadapter
      rcases callFor_cases adapter with hfailed | ⟨url, hurl, hempty, hpost⟩
      · exact .inl hfailed
      · exact .inr ⟨url, hpost, hempty, adapter, _, _, hurl, hparams, .inr hlast⟩
    · exact .inl rfl

theorem Submodel.taken_cases (submodel : Submodel) (url : String) :
    submodel.taken url = .failed ∨
      ∃ submodelId sm, submodel.taken url = .getPreviousSubmodel url submodelId sm ∧
        submodel.fromJSON = some sm ∧ sm.submodelId = .ok submodelId := by
  unfold Submodel.taken
  split
  · exact .inl rfl
  · rename_i sm hsm
    split
    · exact .inl rfl
    · rename_i submodelId hid
      exact .inr ⟨submodelId, sm, rfl, hsm, hid⟩

end Call

/-! ### Steps -/

section Step

variable {ι κ : Type*} {s s' : State ι κ}

/-- The ways in which a call goes on that leave the databases alone. -/
inductive Moves (s : State ι κ) (submodel : Submodel) : Call → Call → Prop
  | lookup : Moves s submodel .getAdapterBySubmodelId (submodel.lookup s.storage)
  | lookupSemantic :
      Moves s submodel .getAdapterBySubmodelSemanticId (submodel.lookupSemantic s.storage)
  | taken (url : String) : Moves s submodel (.post url) (submodel.taken url)
  | reads (url submodelId : String) (sm : StorageAdapter.Submodel) (version : ℕ) :
      Moves s submodel (.getPreviousSubmodel url submodelId sm)
        (.update url submodelId sm version)
  | fails (call : Call) (h : 0 < call.rank) : Moves s submodel call .failed

/-- A call that moves gets its url from the registry as it is, or has it already. -/
theorem Moves.url {submodel : Submodel} {call call' : Call} {url : String}
    (h : Moves s submodel call call') (hurl : call'.url = some url) :
    call.url = some url ∨ Registered submodel url s.storage := by
  cases h with
  | lookup =>
      rcases submodel.lookup_cases s.storage with heq | heq | ⟨url', heq, hreg⟩ <;>
        rw [heq] at hurl
      · cases hurl
      · cases hurl
      · obtain rfl := Option.some.inj hurl
        exact .inr hreg
  | lookupSemantic =>
      rcases submodel.lookupSemantic_cases s.storage with heq | ⟨url', heq, hreg⟩ <;>
        rw [heq] at hurl
      · cases hurl
      · obtain rfl := Option.some.inj hurl
        exact .inr hreg
  | taken url' =>
      rcases submodel.taken_cases url' with heq | ⟨submodelId, sm, heq, -, -⟩ <;>
        rw [heq] at hurl
      · cases hurl
      · exact .inl hurl
  | reads url' submodelId sm version => exact .inl hurl
  | fails call hpos => cases hurl

theorem Moves.carries {submodel : Submodel} {call call' : Call}
    (h : Moves s submodel call call') (hcarries : call.Carries submodel) :
    call'.Carries submodel := by
  cases h with
  | lookup =>
      rcases submodel.lookup_cases s.storage with heq | heq | ⟨url, heq, -⟩ <;> rw [heq] <;> trivial
  | lookupSemantic =>
      rcases submodel.lookupSemantic_cases s.storage with heq | ⟨url, heq, -⟩ <;> rw [heq] <;> trivial
  | taken url =>
      rcases submodel.taken_cases url with heq | ⟨submodelId, sm, heq, hsm, hid⟩ <;> rw [heq]
      · trivial
      · exact ⟨hsm, hid⟩
  | reads url submodelId sm version => exact hcarries
  | fails call hpos => trivial

theorem Moves.rank_lt {submodel : Submodel} {call call' : Call} (h : Moves s submodel call call') :
    call'.rank < call.rank := by
  cases h with
  | lookup =>
      rcases submodel.lookup_cases s.storage with heq | heq | ⟨url, heq, -⟩ <;>
        simp [heq, Call.rank]
  | lookupSemantic =>
      rcases submodel.lookupSemantic_cases s.storage with heq | ⟨url, heq, -⟩ <;>
        simp [heq, Call.rank]
  | taken url =>
      rcases submodel.taken_cases url with heq | ⟨submodelId, sm, heq, -, -⟩ <;>
        simp [heq, Call.rank]
  | reads url submodelId sm version => exact Nat.lt_succ_self _
  | fails call hpos => exact hpos

/-- Only the database stores. -/
theorem Moves.ne_stored {submodel : Submodel} {call call' : Call} {url : String}
    (h : Moves s submodel call call') : call ≠ .stored url ∧ call' ≠ .stored url := by
  cases h with
  | lookup =>
      rcases submodel.lookup_cases s.storage with heq | heq | ⟨url', heq, -⟩ <;> simp [heq]
  | lookupSemantic =>
      rcases submodel.lookupSemantic_cases s.storage with heq | ⟨url', heq, -⟩ <;> simp [heq]
  | taken url' =>
      rcases submodel.taken_cases url' with heq | ⟨submodelId, sm, heq, -, -⟩ <;> simp [heq]
  | reads url' submodelId sm version => simp
  | fails call hpos =>
      refine ⟨?_, by simp⟩
      rintro rfl
      exact Nat.lt_irrefl 0 hpos

variable [DecidableEq ι] [DecidableEq κ] {env : Env ι κ}

/-- What a step can do, of a request or of nobody's. -/
inductive Stepped (env : Env ι κ) (s : State ι κ) : Label ι κ → State ι κ → Prop
  | receives (r : ι) : (s.requests r).phase = .idle →
      Stepped env s (.postSubmodels r) (s.setRequest r (env.receive r))
  | advances {l : Label ι κ} {r : ι} {i : ℕ} {t : Task} {call : Call} : l.request = some r →
      (s.requests r).tasks[i]? = some t →
      (∀ submodel, (env.submodels r)[i]? = some submodel → Moves s submodel t.call call) →
      Stepped env s l (s.advance r i call)
  | stores {l : Label ι κ} {r : ι} {i : ℕ} {t : Task} {url submodelId : String}
      {sm : StorageAdapter.Submodel} {version : ℕ} {db : StorageAdapter.Collection} :
      l.request = some r → (s.requests r).tasks[i]? = some t →
      t.call = .update url submodelId sm version →
      StorageAdapter.update (s.db (env.host url)) (env.md5 submodelId) version sm.serialized =
        .ok db →
      Stepped env s l
        { s.advance r i (.stored url) with db := Function.update s.db (env.host url) db }
  | settles {l : Label ι κ} {r : ι} {i : ℕ} {t : Task} {promise : Promise} :
      l.request = some r → (s.requests r).tasks[i]? = some t → t.promise = .pending →
      (promise = .fulfilled ∧ (∃ url, t.call = .stored url) ∨ promise = .rejected) →
      Stepped env s l (s.setRequest r ((s.requests r).settle i promise))
  | registers {l : Label ι κ} (storage : Storage) : l.request = none →
      Stepped env s l { s with storage := storage }
  | changes {l : Label ι κ} (db : κ → StorageAdapter.Collection) : l.request = none →
      Stepped env s l { s with db := db }
  | exits {l : Label ι κ} : l.request = none →
      Stepped env s l { s with requests := fun r => (s.requests r).exit }

theorem step_cases {l : Label ι κ} (h : step env s l = some s') :
    Stepped env s l s' := by
  cases l with
  | postSubmodels r =>
      simp only [step, Option.ite_none_right_eq_some, Option.some.injEq] at h
      obtain ⟨hidle, rfl⟩ := h
      exact .receives r hidle
  | getAdapterBySubmodelId r i =>
      simp only [step] at h
      split at h
      · rename_i submodel promise hsubmodel htask
        obtain rfl := Option.some.inj h
        refine .advances rfl htask fun submodel' hsubmodel' => ?_
        obtain rfl := Option.some.inj (hsubmodel.symm.trans hsubmodel')
        exact .lookup
      · cases h
  | getAdapterBySubmodelSemanticId r i =>
      simp only [step] at h
      split at h
      · rename_i submodel promise hsubmodel htask
        obtain rfl := Option.some.inj h
        refine .advances rfl htask fun submodel' hsubmodel' => ?_
        obtain rfl := Option.some.inj (hsubmodel.symm.trans hsubmodel')
        exact .lookupSemantic
      · cases h
  | postSubmodel r i =>
      simp only [step] at h
      split at h
      · rename_i submodel promise url hsubmodel htask
        obtain rfl := Option.some.inj h
        refine .advances rfl htask fun submodel' hsubmodel' => ?_
        obtain rfl := Option.some.inj (hsubmodel.symm.trans hsubmodel')
        exact .taken url
      · cases h
  | getPreviousSubmodel r i reachable =>
      simp only [step] at h
      split at h
      · rename_i promise url submodelId sm htask
        obtain rfl := Option.some.inj h
        refine .advances rfl htask fun submodel _ => ?_
        cases reachable with
        | true => exact .reads url submodelId sm _
        | false => exact .fails _ (Nat.succ_pos 1)
      · cases h
  | update r i reachable =>
      simp only [step] at h
      split at h
      · rename_i promise url submodelId sm version htask
        obtain rfl := Option.some.inj h
        have hfails : Stepped env s (.update r i reachable) (s.advance r i .failed) :=
          .advances rfl htask fun submodel _ => .fails _ Nat.zero_lt_one
        cases reachable with
        | false => exact hfails
        | true =>
            rw [if_pos rfl]
            cases hupdate : StorageAdapter.update (s.db (env.host url)) (env.md5 submodelId)
              version sm.serialized with
            | error error => exact hfails
            | ok db => exact .stores rfl htask rfl hupdate
      · cases h
  | settle r i arrives =>
      simp only [step] at h
      split at h
      · rename_i call htask
        split_ifs at h
        · obtain rfl := Option.some.inj h
          exact .settles rfl htask rfl (.inr rfl)
        · split at h
          · rename_i url
            obtain rfl := Option.some.inj h
            exact .settles rfl htask rfl (.inl ⟨rfl, url, rfl⟩)
          · obtain rfl := Option.some.inj h
            exact .settles rfl htask rfl (.inr rfl)
          · cases h
      · cases h
  | createAdapter record =>
      simp only [step] at h
      split_ifs at h
      obtain rfl := Option.some.inj h
      exact .registers _ rfl
  | clearAll =>
      obtain rfl := Option.some.inj h
      exact .registers _ rfl
  | otherClient k db =>
      obtain rfl := Option.some.inj h
      exact .changes _ rfl
  | exit =>
      obtain rfl := Option.some.inj h
      exact .exits rfl

end Step

/-! ### The requests -/

def Request.promises (ρ : Request) : List Promise := ρ.tasks.map (·.promise)

/-- The bookkeeping of a request with these submodels that is refused with a status or not. -/
structure Request.Sound (refusal : Option ℕ) (submodels : List Submodel) (ρ : Request) :
    Prop where
  idle : ρ.phase = .idle → ρ.tasks = []
  refused : ∀ status, refusal = some status → ρ.phase = .idle ∨ ρ = ⟨.answered status, []⟩
  length : refusal = none → ρ.phase ≠ .idle → ρ.tasks.length = submodels.length
  routing : ρ.phase = .routing →
    .rejected ∉ ρ.promises ∧ ∃ promise ∈ ρ.promises, promise ≠ .fulfilled
  answered : ∀ status, refusal = none → ρ.phase = .answered status →
    status = 200 ∧ (∀ promise ∈ ρ.promises, promise = .fulfilled) ∨
      status = 500 ∧ .rejected ∈ ρ.promises
  fulfilled : ∀ t ∈ ρ.tasks, t.promise = .fulfilled → ∃ url, t.call = .stored url
  carries : ∀ (i : ℕ) (t : Task) (submodel : Submodel), ρ.tasks[i]? = some t →
    submodels[i]? = some submodel → t.call.Carries submodel

section Requests

variable {refusal : Option ℕ} {submodels : List Submodel} {ρ : Request} {i : ℕ} {t : Task}

theorem Request.sound_initial : Request.initial.Sound refusal submodels where
  idle _ := rfl
  refused _ _ := .inl rfl
  length _ hphase := absurd rfl hphase
  routing hphase := by cases hphase
  answered _ _ hphase := by cases hphase
  fulfilled t ht := by cases ht
  carries i t submodel ht := by cases ht

/-- A request with tasks is not refused. -/
theorem Request.Sound.not_refused (h : ρ.Sound refusal submodels) (ht : ρ.tasks[i]? = some t) :
    refusal = none := by
  cases hrefusal : refusal with
  | none => rfl
  | some status =>
      rcases h.refused status hrefusal with hidle | rfl
      · rw [h.idle hidle] at ht
        cases ht
      · cases ht

/-- A request with tasks has arrived. -/
theorem Request.Sound.not_idle (h : ρ.Sound refusal submodels) (ht : ρ.tasks[i]? = some t) :
    ρ.phase ≠ .idle := by
  intro hidle
  rw [h.idle hidle] at ht
  cases ht

theorem Request.Sound.submodel (h : ρ.Sound refusal submodels) (ht : ρ.tasks[i]? = some t) :
    ∃ submodel, submodels[i]? = some submodel := by
  have hlength := h.length (h.not_refused ht) (h.not_idle ht)
  obtain ⟨hi, -⟩ := List.getElem?_eq_some_iff.mp ht
  rw [hlength] at hi
  exact ⟨submodels[i], List.getElem?_eq_getElem hi⟩

/-- The tasks after one of them was changed. -/
theorem getElem?_modify_task {tasks : List Task} {f : Task → Task} {j : ℕ} {t' : Task}
    (h : (tasks.modify i f)[j]? = some t') :
    (j = i ∧ ∃ t, tasks[i]? = some t ∧ t' = f t) ∨ tasks[j]? = some t' := by
  rw [List.getElem?_modify] at h
  obtain ⟨t, ht, heq⟩ := Option.map_eq_some_iff.mp h
  by_cases hij : i = j
  · subst hij
    exact .inl ⟨rfl, t, ht, by simpa using heq.symm⟩
  · rw [if_neg hij] at heq
    exact .inr (ht.trans (congrArg some heq))

theorem promises_modify {tasks : List Task} {f : Task → Task}
    (hf : ∀ t, (f t).promise = t.promise) :
    (tasks.modify i f).map (·.promise) = tasks.map (·.promise) := by
  refine List.ext_getElem? fun j => ?_
  rw [List.getElem?_map, List.getElem?_map, List.getElem?_modify]
  cases tasks[j]? with
  | none => rfl
  | some t =>
      by_cases hij : i = j
      · simp [hij, hf]
      · simp [hij]

/-- A call that nobody has stored yet goes on. -/
theorem Request.Sound.advance (h : ρ.Sound refusal submodels) {call : Call}
    (ht : ρ.tasks[i]? = some t) (hstored : ∀ url, t.call ≠ .stored url)
    (hcarries : ∀ submodel, submodels[i]? = some submodel → call.Carries submodel) :
    (ρ.advance i call).Sound refusal submodels := by
  have hpromises : (ρ.advance i call).promises = ρ.promises := promises_modify fun _ => rfl
  constructor
  · intro hidle
    exact absurd hidle (h.not_idle ht)
  · intro status hrefusal
    rw [h.not_refused ht] at hrefusal
    cases hrefusal
  · intro hrefusal hphase
    rw [Request.advance, List.length_modify]
    exact h.length hrefusal hphase
  · rw [hpromises]
    exact h.routing
  · rw [hpromises]
    exact h.answered
  · intro t' ht' hfulfilled
    obtain ⟨j, hj⟩ := List.mem_iff_getElem?.mp ht'
    rcases getElem?_modify_task hj with ⟨-, t₀, ht₀, rfl⟩ | hj
    · obtain rfl := Option.some.inj (ht.symm.trans ht₀)
      obtain ⟨url, hurl⟩ := h.fulfilled t (List.mem_of_getElem? ht) hfulfilled
      exact absurd hurl (hstored url)
    · exact h.fulfilled t' (List.mem_of_getElem? hj) hfulfilled
  · intro j t' submodel hj hsubmodel
    rcases getElem?_modify_task hj with ⟨rfl, t₀, -, rfl⟩ | hj
    · exact hcarries submodel hsubmodel
    · exact h.carries j t' submodel hj hsubmodel

theorem Request.promises_settle (ρ : Request) (i : ℕ) (promise : Promise) :
    (ρ.settle i promise).promises = ρ.promises.set i promise := by
  refine List.ext_getElem? fun j => ?_
  rw [Request.promises, Request.promises, List.getElem?_map, Request.settle, List.getElem?_modify,
    List.getElem?_set, List.getElem?_map, List.length_map]
  by_cases hij : i = j
  · subst hij
    by_cases hi : i < ρ.tasks.length
    · simp [hi]
    · simp [hi]
  · simp [hij]

theorem Request.settle_phase (ρ : Request) (i : ℕ) (promise : Promise) :
    (ρ.settle i promise).phase =
      if ρ.phase = .routing then respond promise (ρ.promises.set i promise) else ρ.phase := by
  rw [← Request.promises_settle]
  rfl

theorem respond_cases (promise : Promise) (promises : List Promise) :
    (promise = .rejected ∧ respond promise promises = .answered 500) ∨
      (promise ≠ .rejected ∧ (∀ p ∈ promises, p = .fulfilled) ∧
        respond promise promises = .answered 200) ∨
      promise ≠ .rejected ∧ (∃ p ∈ promises, p ≠ .fulfilled) ∧
        respond promise promises = .routing := by
  unfold respond
  by_cases hrejected : promise = .rejected
  · exact .inl ⟨hrejected, if_pos hrejected⟩
  · rw [if_neg hrejected]
    by_cases hall : ∀ p ∈ promises, p = .fulfilled
    · exact .inr (.inl ⟨hrejected, hall, if_pos (by simpa using hall)⟩)
    · refine .inr (.inr ⟨hrejected, ?_, if_neg (by simpa using hall)⟩)
      simpa using hall

/-- The other promises stay. -/
theorem mem_set_of_ne {promises : List Promise} {promise p : Promise}
    (hi : promises[i]? = some promise) (hp : p ∈ promises) (hne : p ≠ promise) (q : Promise) :
    p ∈ promises.set i q := by
  obtain ⟨j, hj⟩ := List.mem_iff_getElem?.mp hp
  have hij : i ≠ j := by
    rintro rfl
    exact hne (Option.some.inj (hj.symm.trans hi))
  exact List.mem_of_getElem? ((List.getElem?_set_ne hij).trans hj)

/-- A promise is settled. -/
theorem Request.Sound.settle (h : ρ.Sound refusal submodels) {promise : Promise}
    (ht : ρ.tasks[i]? = some t) (hpending : t.promise = .pending)
    (hpromise : promise = .fulfilled ∧ (∃ url, t.call = .stored url) ∨ promise = .rejected) :
    (ρ.settle i promise).Sound refusal submodels := by
  have hrefusal := h.not_refused ht
  have hi : ρ.promises[i]? = some .pending := by
    rw [Request.promises, List.getElem?_map, ht, ← hpending]
    rfl
  have hmem : promise ∈ ρ.promises.set i promise := by
    obtain ⟨hlt, -⟩ := List.getElem?_eq_some_iff.mp hi
    exact List.mem_set hlt promise
  have hidle := h.not_idle ht
  have hphase := ρ.settle_phase i promise
  constructor
  · intro hidle'
    rw [hidle'] at hphase
    split at hphase
    · rcases respond_cases promise (ρ.promises.set i promise) with
        ⟨-, heq⟩ | ⟨-, -, heq⟩ | ⟨-, -, heq⟩ <;> cases hphase.trans heq
    · exact absurd hphase.symm hidle
  · intro status hsome
    rw [hrefusal] at hsome
    cases hsome
  · intro _ _
    rw [Request.settle, List.length_modify]
    exact h.length hrefusal hidle
  · intro hrouting
    rw [hrouting] at hphase
    split at hphase
    · rename_i hwas
      rcases respond_cases promise (ρ.promises.set i promise) with
        ⟨-, heq⟩ | ⟨-, -, heq⟩ | ⟨hne, hsome, heq⟩
      · cases hphase.trans heq
      · cases hphase.trans heq
      · rw [Request.promises_settle]
        refine ⟨fun hmem' => ?_, hsome⟩
        rcases List.mem_or_eq_of_mem_set hmem' with hmem' | hmem'
        · exact (h.routing hwas).1 hmem'
        · exact hne hmem'.symm
    · rename_i hwas
      exact absurd hphase.symm hwas
  · intro status _ hanswered
    rw [Request.promises_settle]
    rw [hanswered] at hphase
    split at hphase
    · rcases respond_cases promise (ρ.promises.set i promise) with
        ⟨rfl, heq⟩ | ⟨-, hall, heq⟩ | ⟨-, -, heq⟩
      · cases hphase.trans heq
        exact .inr ⟨rfl, hmem⟩
      · cases hphase.trans heq
        exact .inl ⟨rfl, hall⟩
      · cases hphase.trans heq
    · -- the request was answered before
      rcases h.answered status hrefusal hphase.symm with ⟨-, hall⟩ | ⟨rfl, hrejected⟩
      · cases hall .pending (List.mem_of_getElem? hi)
      · exact .inr ⟨rfl, mem_set_of_ne hi hrejected (by decide) promise⟩
  · intro t' ht' hfulfilled
    obtain ⟨j, hj⟩ := List.mem_iff_getElem?.mp ht'
    rcases getElem?_modify_task hj with ⟨-, t₀, ht₀, rfl⟩ | hj
    · obtain rfl := Option.some.inj (ht.symm.trans ht₀)
      rcases hpromise with ⟨-, url, hurl⟩ | hrejected
      · exact ⟨url, Call.abandon_eq_stored.mpr hurl⟩
      · cases hrejected.symm.trans hfulfilled
    · exact h.fulfilled t' (List.mem_of_getElem? hj) hfulfilled
  · intro j t' submodel hj hsubmodel
    rcases getElem?_modify_task hj with ⟨rfl, t₀, ht₀, rfl⟩ | hj
    · exact (h.carries j t₀ submodel ht₀ hsubmodel).abandon
    · exact h.carries j t' submodel hj hsubmodel

theorem Request.promises_exit (ρ : Request) : ρ.exit.promises = ρ.promises := by
  rw [Request.promises, Request.exit, List.map_map]
  rfl

theorem Request.exit_phase (ρ : Request) :
    ρ.exit.phase = if ρ.phase = .routing then .lost else ρ.phase := rfl

theorem Request.exit_tasks {ρ : Request} {j : ℕ} {t' : Task} (h : ρ.exit.tasks[j]? = some t') :
    ∃ t, ρ.tasks[j]? = some t ∧ t' = { t with call := t.call.abandon } := by
  rw [Request.exit, List.getElem?_map] at h
  obtain ⟨t, ht, rfl⟩ := Option.map_eq_some_iff.mp h
  exact ⟨t, ht, rfl⟩

/-- A request that is under way is lost with the process, the others stay as they are. -/
theorem Request.exit_phase_eq {phase : Phase} (h : ρ.exit.phase = phase) (hlost : phase ≠ .lost) :
    phase ≠ .routing ∧ ρ.phase = phase := by
  rw [Request.exit_phase] at h
  split at h
  · exact absurd h.symm hlost
  · rename_i hno
    exact ⟨h ▸ hno, h⟩

theorem Request.Sound.exit (h : ρ.Sound refusal submodels) : ρ.exit.Sound refusal submodels := by
  constructor
  · intro hidle
    rw [Request.exit, h.idle (Request.exit_phase_eq hidle (by decide)).2]
    rfl
  · intro status hrefusal
    rcases h.refused status hrefusal with hidle | rfl
    · exact .inl (by rw [Request.exit_phase, hidle]; rfl)
    · exact .inr rfl
  · intro hrefusal hphase
    rw [Request.exit, List.length_map]
    refine h.length hrefusal fun hidle => hphase ?_
    rw [Request.exit_phase, hidle]
    rfl
  · intro hrouting
    exact absurd rfl (Request.exit_phase_eq hrouting (by decide)).1
  · intro status hrefusal hanswered
    rw [Request.promises_exit]
    exact h.answered status hrefusal (Request.exit_phase_eq hanswered (by simp)).2
  · intro t' ht' hfulfilled
    obtain ⟨j, hj⟩ := List.mem_iff_getElem?.mp ht'
    obtain ⟨t, ht, rfl⟩ := Request.exit_tasks hj
    obtain ⟨url, hurl⟩ := h.fulfilled t (List.mem_of_getElem? ht) hfulfilled
    exact ⟨url, Call.abandon_eq_stored.mpr hurl⟩
  · intro j t' submodel hj hsubmodel
    obtain ⟨t, ht, rfl⟩ := Request.exit_tasks hj
    exact (h.carries j t submodel ht hsubmodel).abandon

end Requests

section System

variable {ι κ : Type*} {env : Env ι κ} {s s' : State ι κ}

/-- A request that is not refused has submodels. -/
theorem Env.submodels_ne_nil {r : ι} (h : env.refusal r = none) :
    env.body r = some (env.submodels r) ∧ env.submodels r ≠ [] := by
  unfold Env.refusal at h
  unfold Env.submodels
  split at h
  · cases h
  · split at h
    · cases h
    · split at h
      · cases h
      · cases h
      · rename_i submodels hne hbody
        rw [hbody]
        exact ⟨rfl, hne⟩

theorem validateSubmodelsRequest_cases (submodels : List Submodel) :
    validateSubmodelsRequest submodels = none ∨ validateSubmodelsRequest submodels = some 422 ∨
      validateSubmodelsRequest submodels = some 500 := by
  induction submodels with
  | nil => exact .inl rfl
  | cons submodel submodels ih =>
      rw [validateSubmodelsRequest]
      split
      · exact ih
      · split
        · exact .inr (.inl rfl)
        · exact .inr (.inr rfl)

/-- The statuses with which the middleware turns requests away. -/
theorem Env.refusal_cases {r : ι} {status : ℕ} (h : env.refusal r = some status) :
    status = 401 ∧ env.authorized r = false ∨ status = 400 ∧ env.body r = none ∨
      status = 404 ∧ env.body r = some [] ∨ status = 422 ∨ status = 500 := by
  unfold Env.refusal at h
  split at h
  · exact .inr (.inr (.inr (.inr (Option.some.inj h).symm)))
  · split at h
    · rename_i hno
      exact .inl ⟨(Option.some.inj h).symm, by simpa using hno⟩
    · split at h
      · exact .inr (.inl ⟨(Option.some.inj h).symm, by assumption⟩)
      · exact .inr (.inr (.inl ⟨(Option.some.inj h).symm, by assumption⟩))
      · rename_i submodels _ _
        rcases validateSubmodelsRequest_cases submodels with heq | heq | heq <;> rw [heq] at h
        · cases h
        · exact .inr (.inr (.inr (.inl (Option.some.inj h).symm)))
        · exact .inr (.inr (.inr (.inr (Option.some.inj h).symm)))

/-- The middleware turns requests away with errors only. -/
theorem Env.le_of_refusal {r : ι} {status : ℕ} (h : env.refusal r = some status) :
    400 ≤ status := by
  rcases env.refusal_cases h with ⟨rfl, -⟩ | ⟨rfl, -⟩ | ⟨rfl, -⟩ | rfl | rfl <;> decide

theorem Env.receive_sound (env : Env ι κ) (r : ι) :
    (env.receive r).Sound (env.refusal r) (env.submodels r) := by
  unfold Env.receive
  cases hrefusal : env.refusal r with
  | some status =>
      constructor
      · intro hidle
        cases hidle
      · intro status' hstatus
        obtain rfl := Option.some.inj hstatus
        exact .inr rfl
      · intro hnone
        cases hnone
      · intro hrouting
        cases hrouting
      · intro status' hnone
        cases hnone
      · intro t ht
        cases ht
      · intro j t submodel ht
        cases ht
  | none =>
      have hpromise : ∀ t ∈ (env.submodels r).map fun submodel => Task.mk .pending submodel.start,
          t.promise = .pending := by
        intro t ht
        obtain ⟨submodel, -, rfl⟩ := List.mem_map.mp ht
        rfl
      constructor
      · intro hidle
        cases hidle
      · intro status hstatus
        cases hstatus
      · intro _ _
        exact List.length_map _
      · intro _
        obtain ⟨submodel, submodels, hcons⟩ :=
          List.exists_cons_of_ne_nil (Env.submodels_ne_nil hrefusal).2
        constructor
        · intro hmem
          obtain ⟨t, ht, hrejected⟩ := List.mem_map.mp hmem
          cases (hpromise t ht).symm.trans hrejected
        · exact ⟨.pending, by simp [Request.promises, hcons], by decide⟩
      · intro status _ hanswered
        cases hanswered
      · intro t ht hfulfilled
        cases (hpromise t ht).symm.trans hfulfilled
      · intro j t submodel ht hsubmodel
        rw [List.getElem?_map, hsubmodel] at ht
        obtain rfl := Option.some.inj ht
        rcases submodel.start_cases with heq | heq <;> simp only [heq] <;> trivial

/-- The bookkeeping of all requests. -/
def State.Sound (env : Env ι κ) (s : State ι κ) : Prop :=
  ∀ r, (s.requests r).Sound (env.refusal r) (env.submodels r)

theorem State.sound_initial (env : Env ι κ) (storage : Storage)
    (db : κ → StorageAdapter.Collection) : (State.initial storage db : State ι κ).Sound env :=
  fun _ => Request.sound_initial

variable [DecidableEq ι]

theorem State.setRequest_requests (s : State ι κ) (r : ι) (ρ : Request) (q : ι) :
    (s.setRequest r ρ).requests q = if q = r then ρ else s.requests q :=
  Function.update_apply _ _ _ _

theorem State.Sound.setRequest (h : s.Sound env) {r : ι} {ρ : Request}
    (hρ : ρ.Sound (env.refusal r) (env.submodels r)) : (s.setRequest r ρ).Sound env := by
  intro q
  rw [State.setRequest_requests]
  split
  · rename_i hq
    subst hq
    exact hρ
  · exact h q

variable [DecidableEq κ]

theorem State.Sound.step {l : Label ι κ} (h : s.Sound env) (hstep : step env s l = some s') :
    s'.Sound env := by
  cases step_cases hstep with
  | receives r hidle => exact h.setRequest (env.receive_sound r)
  | @advances _ r i t call _ ht hmoves =>
      obtain ⟨submodel, hsubmodel⟩ := (h r).submodel ht
      have hmove := hmoves submodel hsubmodel
      refine h.setRequest ((h r).advance ht (fun url => hmove.ne_stored.1) ?_)
      intro submodel' hsubmodel'
      obtain rfl := Option.some.inj (hsubmodel.symm.trans hsubmodel')
      exact hmove.carries ((h r).carries i t submodel ht hsubmodel)
  | @stores _ r i t url submodelId sm version db _ ht hcall hupdate =>
      have hadvanced : (s.advance r i (.stored url)).Sound env :=
        h.setRequest ((h r).advance ht (fun url' => by simp [hcall]) fun _ _ => trivial)
      exact fun q => hadvanced q
  | settles _ ht hpending hpromise => exact h.setRequest ((h _).settle ht hpending hpromise)
  | registers storage _ => exact h
  | changes db _ => exact h
  | exits _ => exact fun q => (h q).exit

/-! ### One request -/

/-- What a step can do to one request. -/
inductive Request.Stepped (env : Env ι κ) (r : ι) (ρ : Request) : Request → Prop
  | stays : Request.Stepped env r ρ ρ
  | receives : ρ.phase = .idle → Request.Stepped env r ρ (env.receive r)
  | advances {i : ℕ} {t : Task} (call : Call) : ρ.tasks[i]? = some t →
      Request.Stepped env r ρ (ρ.advance i call)
  | settles {i : ℕ} {t : Task} (promise : Promise) : ρ.tasks[i]? = some t →
      t.promise = .pending → Request.Stepped env r ρ (ρ.settle i promise)
  | exits : Request.Stepped env r ρ ρ.exit

theorem requestStepped {l : Label ι κ} (hstep : step env s l = some s') (r : ι) :
    (s.requests r).Stepped env r (s'.requests r) := by
  have hset : ∀ q ρ, (s.requests q).Stepped env q ρ →
      (s.requests r).Stepped env r ((s.setRequest q ρ).requests r) := by
    intro q ρ hρ
    rw [State.setRequest_requests]
    split
    · rename_i hq
      subst hq
      exact hρ
    · exact .stays
  cases step_cases hstep with
  | receives q hidle => exact hset q _ (.receives hidle)
  | @advances _ q i t call _ ht hmoves => exact hset q _ (.advances call ht)
  | @stores _ q i t url submodelId sm version db _ ht hcall hupdate =>
      exact hset q _ (.advances (.stored url) ht)
  | @settles _ q i t promise _ ht hpending hpromise => exact hset q _ (.settles promise ht hpending)
  | registers storage _ => exact .stays
  | changes db _ => exact .stays
  | exits _ => exact .exits

section One

variable {l : Label ι κ} {r : ι} {i : ℕ}

/-- An answer is not taken back. -/
theorem answered_of_step (hstep : step env s l = some s') {status : ℕ}
    (h : (s.requests r).phase = .answered status) : (s'.requests r).phase = .answered status := by
  have hstepped := requestStepped hstep r
  generalize s'.requests r = ρ at hstepped ⊢
  cases hstepped with
  | stays => exact h
  | receives hidle => cases h.symm.trans hidle
  | advances call ht => exact h
  | settles promise ht hpending => rw [Request.settle_phase, h, if_neg (by simp)]
  | exits => rw [Request.exit_phase, h, if_neg (by simp)]

theorem not_idle_of_step (hstep : step env s l = some s')
    (hidle : (s.requests r).phase ≠ .idle) : (s'.requests r).phase ≠ .idle := by
  have hstepped := requestStepped hstep r
  generalize s'.requests r = ρ at hstepped ⊢
  cases hstepped with
  | stays => exact hidle
  | receives hidle' => exact absurd hidle' hidle
  | advances call ht => exact hidle
  | settles promise ht hpending =>
      rw [Request.settle_phase]
      split
      · rcases respond_cases promise ((s.requests r).promises.set _ promise) with
          ⟨-, heq⟩ | ⟨-, -, heq⟩ | ⟨-, -, heq⟩ <;> (rw [heq]; simp)
      · exact hidle
  | exits => exact fun hno => hidle (Request.exit_phase_eq hno (by decide)).2

/-- A request without tasks has had none before. -/
theorem tasks_eq_nil_of_step (h : s.Sound env) (hstep : step env s l = some s')
    (htasks : (s'.requests r).tasks = []) : (s.requests r).tasks = [] := by
  have hstepped := requestStepped hstep r
  generalize s'.requests r = ρ at hstepped htasks
  cases hstepped with
  | stays => exact htasks
  | receives hidle => exact (h r).idle hidle
  | advances call ht => simpa [Request.advance] using congrArg List.length htasks
  | settles promise ht hpending => simpa [Request.settle] using congrArg List.length htasks
  | exits => simpa [Request.exit] using htasks

/-- A request arrives by being posted. -/
theorem eq_postSubmodels_of_step (h : s.Sound env) (hstep : step env s l = some s')
    (hidle : (s.requests r).phase = .idle) (hnow : (s'.requests r).phase ≠ .idle) :
    l = .postSubmodels r := by
  have hother : ∀ {q : ι} {ρ : Request}, (s.requests q).phase ≠ .idle →
      ((s.setRequest q ρ).requests r).phase = .idle := by
    intro q ρ hq
    rw [State.setRequest_requests]
    split
    · rename_i heq
      subst heq
      exact absurd hidle hq
    · exact hidle
  cases step_cases hstep with
  | receives q _ =>
      rw [State.setRequest_requests] at hnow
      split at hnow
      · rename_i hq
        rw [hq]
      · exact absurd hidle hnow
  | advances _ ht _ => exact absurd (hother ((h _).not_idle ht)) hnow
  | stores _ ht _ _ => exact absurd (hother ((h _).not_idle ht)) hnow
  | settles _ ht _ _ => exact absurd (hother ((h _).not_idle ht)) hnow
  | registers _ _ => exact absurd hidle hnow
  | changes _ _ => exact absurd hidle hnow
  | exits _ =>
      refine absurd ?_ hnow
      rw [Request.exit_phase, hidle]
      rfl

/-- Only a submodel that is under way is posted. -/
theorem task_of_postSubmodel (hstep : step env s (.postSubmodel r i) = some s') :
    ∃ t, (s.requests r).tasks[i]? = some t := by
  simp only [step] at hstep
  split at hstep
  · rename_i htask
    exact ⟨_, htask⟩
  · cases hstep

end One

end System

end I40Aas.DataManager
