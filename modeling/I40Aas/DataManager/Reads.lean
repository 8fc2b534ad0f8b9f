import I40Aas.DataManager.Answers

/-!
`GET /submodels` beside everything else. A read looks the adapter up in the registry, once or
twice, and asks the adapter, which reads its database at a moment of its own; nobody handles
the rejection when one of this fails, so then the process ends. A read that is answered gives what
the database of the adapter held while the read was under way, and never an older state of a
submodel than one that was stored there before the read began.
-/

namespace I40Aas.DataManager

open I40Aas.Lib I40Aas.AdapterRegistry

/-- The parameters `submodelid` and `semanticid` of the request. -/
structure Query where
  submodelid : Option String
  semanticid : Option String

/-- What an adapter answers to a read: one submodel as it is stored, or all of them. -/
inductive Data
  | submodel (serializedSubmodel : String)
  | submodels (submodels : List JavaScript.Value)

/-- `GET /submodels` at an adapter whose database can be reached. -/
def readSubmodels (md5 : String → String) (db : StorageAdapter.Collection)
    (submodelid : Option String) : Except StorageAdapter.AdapterError Data :=
  match submodelid with
  | none => (StorageAdapter.getSubmodels (fun _ => true) db).map .submodels
  | some id =>
      -- an empty parameter counts as a missing one
      if id = "" then (StorageAdapter.getSubmodels (fun _ => true) db).map .submodels
      else (StorageAdapter.getSubmodel md5 (fun _ => true) db id).map .submodel

inductive Read
  | idle
  /-- `GET /adapters` is about to read the values for the first lookup. -/
  | getAdapterBySubmodelId
  | getAdapterBySubmodelSemanticId
  /-- The request to the adapter is on its way. -/
  | getSubmodel (url : String)
  /-- The adapter has read its database. -/
  | responded (url : String) (data : Data)
  | failed
  /-- With status 200; the adapter is the one at the url. -/
  | answered (url : String) (data : Data)
  | refused (status : ℕ)
  /-- The process has ended before it answered. -/
  | lost

/-- `getAdapterFromRegistry` with the adapter of the response. -/
def readFrom (adapter : Adapter) : Read :=
  match (callFor adapter).url with
  | some url => .getSubmodel url
  | none => .failed

def Read.exit : Read → Read
  | .getAdapterBySubmodelId | .getAdapterBySubmodelSemanticId | .getSubmodel _ | .responded _ _
  | .failed => .lost
  | read => read

/-- What is fixed while the requests of `ι` and the reads of `ν` are under way. -/
structure ReadEnv (ι κ ν : Type*) extends Env ι κ where
  query : ν → Query
  /-- With the user and the password of the data manager. -/
  mayRead : ν → Bool

structure ReadState (ι κ ν : Type*) where
  manager : State ι κ
  reads : ν → Read

def ReadState.initial {ι κ ν : Type*} (storage : Storage) (db : κ → StorageAdapter.Collection) :
    ReadState ι κ ν :=
  ⟨.initial storage db, fun _ => .idle⟩

inductive ReadLabel (ι κ ν : Type*)
  | manager (l : Label ι κ)
  | getSubmodels (q : ν)
  | getAdapterBySubmodelId (q : ν)
  | getAdapterBySubmodelSemanticId (q : ν)
  | getSubmodel (q : ν)
  | respond (q : ν)
  /-- An error arrives, or no answer does. -/
  | reject (q : ν)

section

variable {ι κ ν : Type*}

/-- The request arrives. -/
def ReadEnv.receive (env : ReadEnv ι κ ν) (q : ν) : Read :=
  if !env.mayRead q then .refused 401
  else if !given (env.query q).submodelid && !given (env.query q).semanticid then .refused 400
  else .getAdapterBySubmodelId

/-- The first lookup of the registry. -/
def Query.lookup (query : Query) (storage : Storage) : Read :=
  match AdapterRegistry.getAdapterBySubmodelId storage query.submodelid with
  | some adapter => readFrom adapter
  | none => .getAdapterBySubmodelSemanticId

def Query.lookupSemantic (query : Query) (storage : Storage) : Read :=
  match AdapterRegistry.getAdapterBySubmodelSemanticId storage query.semanticid with
  | some adapter => readFrom adapter
  | none => .failed

/-- The adapter reads its database. -/
def ReadEnv.respond (env : ReadEnv ι κ ν) (s : State ι κ) (q : ν) (url : String) : Read :=
  match readSubmodels env.md5 (s.db (env.host url)) (env.query q).submodelid with
  | .ok data => .responded url data
  | .error _ => .failed

variable [DecidableEq ν]

def ReadState.setRead (s : ReadState ι κ ν) (q : ν) (read : Read) : ReadState ι κ ν :=
  { s with reads := Function.update s.reads q read }

variable [DecidableEq ι] [DecidableEq κ]

/-- One step. The process ends by the rejection of a read only. -/
def readStep (env : ReadEnv ι κ ν) (s : ReadState ι κ ν) :
    ReadLabel ι κ ν → Option (ReadState ι κ ν)
  | .manager .exit => none
  | .manager l => (step env.toEnv s.manager l).map fun manager => { s with manager := manager }
  | .getSubmodels q =>
      match s.reads q with
      | .idle => some (s.setRead q (env.receive q))
      | _ => none
  | .getAdapterBySubmodelId q =>
      match s.reads q with
      | .getAdapterBySubmodelId =>
          some (s.setRead q ((env.query q).lookup s.manager.storage))
      | _ => none
  | .getAdapterBySubmodelSemanticId q =>
      match s.reads q with
      | .getAdapterBySubmodelSemanticId =>
          some (s.setRead q ((env.query q).lookupSemantic s.manager.storage))
      | _ => none
  | .getSubmodel q =>
      match s.reads q with
      | .getSubmodel url => some (s.setRead q (env.respond s.manager q url))
      | _ => none
  | .respond q =>
      match s.reads q with
      | .responded url data => some (s.setRead q (.answered url data))
      | _ => none
  | .reject q =>
      match s.reads q with
      | .idle | .answered _ _ | .refused _ | .lost => none
      | _ =>
          -- the posts and the other reads that are under way are lost with the process
          (step env.toEnv s.manager .exit).map fun manager =>
            { manager := manager
              reads := fun q => (s.reads q).exit }

end

/-! ### One read -/

/-- The adapter at the url is the one that a lookup for the query finds. -/
def Named (query : Query) (url : String) (storage : Storage) : Prop :=
  url ≠ "" ∧ ∃ adapter, adapter.url = .string url ∧
    (IsLast (·.submodelid.equals query.submodelid) storage.values adapter ∨
      IsLast (·.submodelsemanticid.equals query.semanticid) storage.values adapter)

/-- The url of the adapter, as soon as it is known. -/
def Read.url : Read → Option String
  | .getSubmodel url | .responded url _ | .answered url _ => some url
  | _ => none

/-- What the adapter has answered. -/
def Read.response : Read → Option (String × Data)
  | .responded url data | .answered url data => some (url, data)
  | _ => none

section Read

variable {ι κ ν : Type*} {env : ReadEnv ι κ ν} {q : ν} {query : Query} {storage : Storage}
  {url : String} {data : Data}

theorem readFrom_cases (adapter : Adapter) :
    readFrom adapter = .failed ∨
      ∃ url, adapter.url = .string url ∧ url ≠ "" ∧ readFrom adapter = .getSubmodel url := by
  unfold readFrom
  rcases callFor_cases adapter with heq | ⟨url, hurl, hempty, heq⟩
  · exact .inl (by rw [heq]; rfl)
  · exact .inr ⟨url, hurl, hempty, by rw [heq]; rfl⟩

theorem Query.lookup_cases (query : Query) (storage : Storage) :
    query.lookup storage = .failed ∨ query.lookup storage = .getAdapterBySubmodelSemanticId ∨
      ∃ url, query.lookup storage = .getSubmodel url ∧ Named query url storage := by
  unfold Query.lookup
  split
  · rename_i adapter hadapter
    have hlast := lastMatch_eq_some_iff.mp hadapter
    rcases readFrom_cases adapter with heq | ⟨url, hurl, hempty, heq⟩
    · exact .inl heq
    · exact .inr (.inr ⟨url, heq, hempty, adapter, hurl, .inl hlast⟩)
  · exact .inr (.inl rfl)

theorem Query.lookupSemantic_cases (query : Query) (storage : Storage) :
    query.lookupSemantic storage = .failed ∨
      ∃ url, query.lookupSemantic storage = .getSubmodel url ∧ Named query url storage := by
  unfold Query.lookupSemantic
  split
  · rename_i adapter hadapter
    have hlast := lastMatch_eq_some_iff.mp hadapter
    rcases readFrom_cases adapter with heq | ⟨url, hurl, hempty, heq⟩
    · exact .inl heq
    · exact .inr ⟨url, heq, hempty, adapter, hurl, .inr hlast⟩
  · exact .inl rfl

theorem ReadEnv.receive_cases (env : ReadEnv ι κ ν) (q : ν) :
    (env.receive q = .getAdapterBySubmodelId) ∨ ∃ status, env.receive q = .refused status := by
  unfold ReadEnv.receive
  split_ifs
  · exact .inr ⟨401, rfl⟩
  · exact .inr ⟨400, rfl⟩
  · exact .inl rfl

theorem ReadEnv.receive_url (env : ReadEnv ι κ ν) (q : ν) : (env.receive q).url = none := by
  rcases env.receive_cases q with heq | ⟨status, heq⟩ <;> rw [heq] <;> rfl

theorem Query.lookup_response (query : Query) (storage : Storage) :
    (query.lookup storage).response = none := by
  rcases query.lookup_cases storage with heq | heq | ⟨url, heq, -⟩ <;> rw [heq] <;> rfl

theorem Query.lookupSemantic_response (query : Query) (storage : Storage) :
    (query.lookupSemantic storage).response = none := by
  rcases query.lookupSemantic_cases storage with heq | ⟨url, heq, -⟩ <;> rw [heq] <;> rfl

theorem ReadEnv.respond_cases (env : ReadEnv ι κ ν) (s : State ι κ) (q : ν) (url : String) :
    env.respond s q url = .failed ∨ ∃ data, env.respond s q url = .responded url data ∧
      readSubmodels env.md5 (s.db (env.host url)) (env.query q).submodelid = .ok data := by
  unfold ReadEnv.respond
  split
  · rename_i data hdata
    exact .inr ⟨data, rfl, hdata⟩
  · exact .inl rfl

theorem Read.exit_response (read : Read) (h : read.exit.response = some (url, data)) :
    read.response = some (url, data) := by
  cases read with
  | answered url data => exact h
  | _ => cases h

/-- A response comes from an adapter. -/
theorem Read.url_of_response {read : Read} (h : read.response = some (url, data)) :
    read.url = some url := by
  cases read with
  | responded url' data' => exact congrArg (Option.map Prod.fst) h
  | answered url' data' => exact congrArg (Option.map Prod.fst) h
  | _ => cases h

theorem Read.exit_url (read : Read) (h : read.exit.url = some url) : read.url = some url := by
  cases read with
  | answered url data => exact h
  | _ => cases h

variable {s s' : ReadState ι κ ν} {l : ReadLabel ι κ ν}

/-- What a step can do to one read. -/
inductive Read.Stepped (env : ReadEnv ι κ ν) (q : ν) (s s' : ReadState ι κ ν) : Prop
  | stays : s'.reads q = s.reads q → Read.Stepped env q s s'
  | exits : s'.reads q = (s.reads q).exit → Read.Stepped env q s s'
  | receives : s.reads q = .idle → s'.reads q = env.receive q → Read.Stepped env q s s'
  | lookup : s.reads q = .getAdapterBySubmodelId → s'.manager = s.manager →
      s'.reads q = (env.query q).lookup s.manager.storage → Read.Stepped env q s s'
  | lookupSemantic : s.reads q = .getAdapterBySubmodelSemanticId → s'.manager = s.manager →
      s'.reads q = (env.query q).lookupSemantic s.manager.storage → Read.Stepped env q s s'
  | responds (url : String) : s.reads q = .getSubmodel url → s'.manager = s.manager →
      s'.reads q = env.respond s.manager q url → Read.Stepped env q s s'
  | answers (url : String) (data : Data) : s.reads q = .responded url data →
      s'.reads q = .answered url data → Read.Stepped env q s s'

variable [DecidableEq ν]

theorem ReadState.setRead_reads (s : ReadState ι κ ν) (q : ν) (read : Read) (p : ν) :
    (s.setRead q read).reads p = if p = q then read else s.reads p :=
  Function.update_apply _ _ _ _

variable [DecidableEq ι] [DecidableEq κ]

/-- The data manager posts submodels as it does without reads, and does not end by itself. -/
theorem readStep_manager {l : Label ι κ} (h : readStep env s (.manager l) = some s') :
    ∃ manager, step env.toEnv s.manager l = some manager ∧ s' = { s with manager := manager } := by
  cases l with
  | exit => cases h
  | _ =>
      simp only [readStep] at h
      obtain ⟨manager, hstep, rfl⟩ := Option.map_eq_some_iff.mp h
      exact ⟨manager, hstep, rfl⟩

theorem readStepped (h : readStep env s l = some s') (p : ν) : Read.Stepped env p s s' := by
  have hset : ∀ q read, (q = p → Read.Stepped env p s (s.setRead p read)) →
      Read.Stepped env p s (s.setRead q read) := by
    intro q read hq
    by_cases heq : q = p
    · subst heq
      exact hq rfl
    · exact .stays (by rw [ReadState.setRead_reads, if_neg (Ne.symm heq)])
  have hself : ∀ read, (s.setRead p read).reads p = read := fun read => by
    rw [ReadState.setRead_reads, if_pos rfl]
  cases l with
  | manager l =>
      obtain ⟨manager, -, rfl⟩ := readStep_manager h
      exact .stays rfl
  | getSubmodels q =>
      simp only [readStep] at h
      split at h
      · rename_i hread
        obtain rfl := Option.some.inj h
        exact hset q _ fun heq => .receives (heq ▸ hread) (by subst heq; exact hself _)
      · cases h
  | getAdapterBySubmodelId q =>
      simp only [readStep] at h
      split at h
      · rename_i hread
        obtain rfl := Option.some.inj h
        exact hset q _ fun heq => .lookup (heq ▸ hread) rfl (by subst heq; exact hself _)
      · cases h
  | getAdapterBySubmodelSemanticId q =>
      simp only [readStep] at h
      split at h
      · rename_i hread
        obtain rfl := Option.some.inj h
        exact hset q _ fun heq => .lookupSemantic (heq ▸ hread) rfl (by subst heq; exact hself _)
      · cases h
  | getSubmodel q =>
      simp only [readStep] at h
      split at h
      · rename_i url hread
        obtain rfl := Option.some.inj h
        exact hset q _ fun heq => .responds url (heq ▸ hread) rfl (by subst heq; exact hself _)
      · cases h
  | respond q =>
      simp only [readStep] at h
      split at h
      · rename_i url data hread
        obtain rfl := Option.some.inj h
        exact hset q _ fun heq => .answers url data (heq ▸ hread) (by subst heq; exact hself _)
      · cases h
  | reject q =>
      simp only [readStep] at h
      split at h
      · cases h
      · cases h
      · cases h
      · cases h
      · obtain ⟨manager, -, rfl⟩ := Option.map_eq_some_iff.mp h
        exact .exits rfl

/-- The url is known from the registry. -/
theorem named_of_url (h : readStep env s l = some s') (hno : ¬ (s.reads q).url = some url)
    (hnow : (s'.reads q).url = some url) : Named (env.query q) url s'.manager.storage := by
  cases readStepped h q with
  | stays heq =>
      rw [heq] at hnow
      exact absurd hnow hno
  | exits heq =>
      rw [heq] at hnow
      exact absurd (Read.exit_url _ hnow) hno
  | receives _ heq =>
      rw [heq, env.receive_url] at hnow
      cases hnow
  | lookup _ hmanager heq =>
      rw [heq] at hnow
      rcases (env.query q).lookup_cases s.manager.storage with hread | hread | ⟨url', hread, hnamed⟩
        <;> rw [hread] at hnow
      · cases hnow
      · cases hnow
      · obtain rfl := Option.some.inj hnow
        rw [hmanager]
        exact hnamed
  | lookupSemantic _ hmanager heq =>
      rw [heq] at hnow
      rcases (env.query q).lookupSemantic_cases s.manager.storage with hread | ⟨url', hread, hnamed⟩
        <;> rw [hread] at hnow
      · cases hnow
      · obtain rfl := Option.some.inj hnow
        rw [hmanager]
        exact hnamed
  | responds url' hread _ heq =>
      rw [heq] at hnow
      rcases env.respond_cases s.manager q url' with hread' | ⟨data, hread', -⟩ <;>
        rw [hread'] at hnow
      · cases hnow
      · exact absurd (by rw [hread]; exact hnow) hno
  | answers url' data hread heq =>
      rw [heq] at hnow
      exact absurd (by rw [hread]; exact hnow) hno

/-- The response is what the database holds. -/
theorem read_of_response (h : readStep env s l = some s')
    (hno : ¬ (s.reads q).response = some (url, data))
    (hnow : (s'.reads q).response = some (url, data)) :
    readSubmodels env.md5 (s'.manager.db (env.host url)) (env.query q).submodelid = .ok data := by
  cases readStepped h q with
  | stays heq =>
      rw [heq] at hnow
      exact absurd hnow hno
  | exits heq =>
      rw [heq] at hnow
      exact absurd (Read.exit_response _ hnow) hno
  | receives _ heq =>
      have hurl := Read.url_of_response hnow
      rw [heq, env.receive_url] at hurl
      cases hurl
  | lookup _ _ heq =>
      rw [heq, Query.lookup_response] at hnow
      cases hnow
  | lookupSemantic _ _ heq =>
      rw [heq, Query.lookupSemantic_response] at hnow
      cases hnow
  | responds url' hread hmanager heq =>
      rw [heq] at hnow
      rcases env.respond_cases s.manager q url' with hread' | ⟨data', hread', hdata⟩ <;>
        rw [hread'] at hnow
      · cases hnow
      · obtain ⟨rfl, rfl⟩ : url' = url ∧ data' = data := by simpa [Read.response] using hnow
        rw [hmanager]
        exact hdata
  | answers url' data' hread heq =>
      rw [heq] at hnow
      exact absurd (by rw [hread]; exact hnow) hno

/-- A read that is answered was sent to an adapter that the registry named while it was under
way, and gives what the database of this adapter held after that and before the answer. -/
theorem read_of_answered {ls : List (ReadLabel ι κ ν)} {s s' : ReadState ι κ ν}
    (hidle : s.reads q = .idle) (hexec : exec (readStep env) s ls = some s')
    (h : s'.reads q = .answered url data) :
    Then (readStep env) (fun t => Named (env.query q) url t.manager.storage)
      (fun t => readSubmodels env.md5 (t.manager.db (env.host url)) (env.query q).submodelid =
        .ok data) s ls := by
  have hnamed : ∀ ls t, exec (readStep env) s ls = some t → (t.reads q).url = some url →
      Once (readStep env) (fun t => Named (env.query q) url t.manager.storage) s ls :=
    fun ls t hexec' => once_of_becomes (I := fun _ => True) (fun _ _ _ _ _ => trivial)
      (fun _ _ _ _ hstep => named_of_url hstep) trivial 
      (fun hno => by rw [hidle] at hno; cases hno) hexec'
  have honce : Once (readStep env) (fun t => (t.reads q).url = some url ∧
      readSubmodels env.md5 (t.manager.db (env.host url)) (env.query q).submodelid = .ok data)
      s ls := by
    exact once_of_becomes (I := fun _ => True)
      (Q := fun t => (t.reads q).response = some (url, data)) (fun _ _ _ _ _ => trivial)
      (fun s l s' _ hstep hno hnow =>
        ⟨Read.url_of_response hnow, read_of_response hstep hno hnow⟩) trivial
      (fun hno => by rw [hidle] at hno; cases hno) hexec (by rw [h]; rfl)
  have hthen := honce.then fun ls t hexec' ht => hnamed ls t hexec' ht.1
  exact hthen.mono (fun _ h => h) fun _ h => h.2

end Read

/-! ### A submodel that was posted before -/

section Posted

variable {ι κ ν : Type*} [DecidableEq ι] [DecidableEq κ] [DecidableEq ν] {env : ReadEnv ι κ ν}
  {s s' : ReadState ι κ ν} {l : ReadLabel ι κ ν} {k : κ} {_id : String}

/-- The steps of the data manager and of its neighbours. -/
def ReadLabel.ofManager : ReadLabel ι κ ν → Option (Label ι κ)
  | .manager l => some l
  | .reject _ => some .exit
  | _ => none

theorem hasPart_manager (env : ReadEnv ι κ ν) :
    HasPart (readStep env) (step env.toEnv) ReadState.manager ReadLabel.ofManager := by
  intro s l s' h
  cases l with
  | manager l =>
      obtain ⟨manager, hstep, rfl⟩ := readStep_manager h
      exact hstep
  | reject q =>
      simp only [readStep] at h
      split at h
      · cases h
      · cases h
      · cases h
      · cases h
      · obtain ⟨manager, hstep, rfl⟩ := Option.map_eq_some_iff.mp h
        exact hstep
  | _ =>
      simp only [readStep] at h
      split at h
      · obtain rfl := Option.some.inj h
        rfl
      · cases h

/-- What a step of the data manager does to the databases. -/
theorem db_of_step {env : Env ι κ} {s s' : State ι κ} {l : Label ι κ}
    (h : step env s l = some s') :
    s'.db = s.db ∨
      (∃ url submodelId version serialized db,
        StorageAdapter.update (s.db (env.host url)) (env.md5 submodelId) version serialized =
          .ok db ∧ s'.db = Function.update s.db (env.host url) db) ∨
      ∃ k db, l = .otherClient k db ∧ s'.db = Function.update s.db k db := by
  have hrequest : l.request ≠ none → s'.db = s.db ∨
      ∃ url submodelId version serialized db,
        StorageAdapter.update (s.db (env.host url)) (env.md5 submodelId) version serialized =
          .ok db ∧ s'.db = Function.update s.db (env.host url) db := by
    intro hne
    cases step_cases h with
    | receives _ _ => exact .inl rfl
    | advances _ _ _ => exact .inl rfl
    | stores _ _ _ hupdate => exact .inr ⟨_, _, _, _, _, hupdate, rfl⟩
    | settles _ _ _ _ => exact .inl rfl
    | registers _ hl => exact absurd hl hne
    | changes _ hl => exact absurd hl hne
    | exits hl => exact absurd hl hne
  cases l with
  | createAdapter record =>
      simp only [step] at h
      split_ifs at h
      obtain rfl := Option.some.inj h
      exact .inl rfl
  | clearAll =>
      obtain rfl := Option.some.inj h
      exact .inl rfl
  | otherClient k db =>
      obtain rfl := Option.some.inj h
      exact .inr (.inr ⟨k, db, rfl, rfl⟩)
  | exit =>
      obtain rfl := Option.some.inj h
      exact .inl rfl
  | _ => exact (hrequest (by simp [Label.request])).imp_right .inl

/-- Another client of the database does not delete the record. -/
def Keeps (k : κ) (_id : String) (s : ReadState ι κ ν) (l : ReadLabel ι κ ν) : Prop :=
  ∀ db, l = .manager (.otherClient k db) →
    Sees (db.lookup _id) ((s.manager.db k).lookup _id)

/-- The record of a submodel at the adapter. -/
def ReadEnv.record (env : ReadEnv ι κ ν) (s : ReadState ι κ ν) (url submodelId : String) :
    Option StorageAdapter.ISubmodelRecord :=
  (s.manager.db (env.host url)).lookup (env.md5 submodelId)

/-- A record that has been there is seen until it is deleted. -/
theorem sees_step {b : Option StorageAdapter.ISubmodelRecord} (hkeeps : Keeps k _id s l)
    (hstep : readStep env s l = some s') (h : Sees ((s.manager.db k).lookup _id) b) :
    Sees ((s'.manager.db k).lookup _id) b := by
  have hpart := hasPart_manager env s l s' hstep
  cases hlabel : l.ofManager with
  | none =>
      rw [hlabel] at hpart
      rw [show s'.manager = s.manager from hpart]
      exact h
  | some a =>
      rw [hlabel] at hpart
      rcases db_of_step hpart with heq | ⟨url, submodelId, version, serialized, db, hupdate, heq⟩ |
        ⟨k', db, rfl, heq⟩
      · rw [heq]
        exact h
      · rw [heq, Function.update_apply]
        split
        · rename_i hk
          subst hk
          obtain ⟨hversion, rfl⟩ := StorageAdapter.update_eq_ok_iff.mp hupdate
          by_cases hid : _id = env.md5 submodelId
          · subst hid
            rw [AList.lookup_insert]
            exact h.upsert (upsert_eq_some_iff.mpr ⟨rfl, hversion⟩)
          · rw [AList.lookup_insert_ne hid]
            exact h
        · exact h
      · rw [heq, Function.update_apply]
        split
        · rename_i hk
          subst hk
          have hl : l = .manager (.otherClient k db) := by
            cases l with
            | manager l => rw [show l = _ from Option.some.inj hlabel]
            | _ => cases hlabel
          exact (hkeeps db hl).trans h
        · exact h

variable {storage : Storage} {db : κ → StorageAdapter.Collection} {r : ι} {i : ℕ} {q : ν}
  {s₁ s₂ : ReadState ι κ ν} {ls₁ ls₂ : List (ReadLabel ι κ ν)} {url : String} {data : Data}
  {submodel : Submodel} {sm : StorageAdapter.Submodel} {submodelId : String}

/-- A read that begins after the adapter has stored a submodel finds this one, or one that was
stored over it, unless somebody deletes the record. -/
theorem seen_of_hasStored
    (h₁ : exec (readStep env) (.initial storage db) ls₁ = some s₁)
    (h₂ : exec (readStep env) s₁ ls₂ = some s₂)
    (hkeeps : Guarded (readStep env) (Keeps (env.host url) (env.md5 submodelId))
      (.initial storage db) (ls₁ ++ ls₂))
    (hsubmodel : (env.submodels r)[i]? = some submodel) (hsm : submodel.fromJSON = some sm)
    (hid : sm.submodelId = .ok submodelId) (hstored : s₁.manager.HasStored r i url)
    (hidle : s₁.reads q = .idle) (hquery : (env.query q).submodelid = some submodelId)
    (hne : submodelId ≠ "") (hanswered : s₂.reads q = .answered url data) :
    ∃ b b' : StorageAdapter.ISubmodelRecord, b.value = sm.serialized ∧
      data = .submodel b'.value ∧ Sees (some b') (some b) ∧
      Once (readStep env) (fun t => env.record t url submodelId = some b) (.initial storage db)
        ls₁ ∧
      Once (readStep env) (fun t => env.record t url submodelId = some b') s₁ ls₂ := by
  have hthen := (hasPart_manager env).then h₁
    (then_of_hasStored ((hasPart_manager env).exec h₁) hsubmodel hstored)
  obtain ⟨before, after, t, rfl, hbefore, hlookup, -⟩ := hthen
  obtain ⟨sm', submodelId', version, hsm', hid', hrecord⟩ := hlookup
  obtain rfl := Option.some.inj (hsm.symm.trans hsm')
  obtain rfl := Except.ok.inj (hid.symm.trans hid')
  obtain ⟨before', after', u, rfl, hbefore', hread, -⟩ := read_of_answered hidle h₂ hanswered
  -- from where the submodel is stored to where it is read
  have hexec : exec (readStep env) t (after ++ before') = some u := by
    rw [exec_append, hbefore, Option.bind_some] at h₁
    rw [exec_append, h₁]
    exact hbefore'
  have hstart : env.record t url submodelId = some ⟨version, sm.serialized⟩ := hrecord
  have hsees : Sees (env.record u url submodelId) (some ⟨version, sm.serialized⟩) := by
    refine exec_keeps (I := fun t : ReadState ι κ ν =>
        Sees (env.record t url submodelId) (some ⟨version, sm.serialized⟩))
      (fun _ _ _ h hok hstep => sees_step hok hstep h) hbefore ?_ ?_ hexec
    · have hall : before ++ after ++ (before' ++ after') =
          before ++ (after ++ before') ++ after' := by simp
      rw [hall] at hkeeps
      -- only the part of the schedule up to the read counts
      refine (Guarded.of_append hkeeps (t := u) ?_).1
      rw [exec_append, hbefore]
      exact hexec
    · rw [hstart]
      exact sees_self _
  obtain ⟨b', hb', hsees⟩ := hsees
  have hend : (u.manager.db (env.host url)).lookup (env.md5 submodelId) = some b' := hb'
  have hdata : data = .submodel b'.value := by
    rw [hquery] at hread
    simp only [readSubmodels, if_neg hne, StorageAdapter.getSubmodel, if_true, hend] at hread
    exact (Except.ok.inj hread).symm
  exact ⟨_, b', rfl, hdata, ⟨b', rfl, hsees⟩, ⟨before, after, t, rfl, hbefore, hstart⟩,
    before', after', u, rfl, hbefore', hb'⟩

end Posted

/-! ### Where a read and a post go -/

/-- Changes the adapter registry. -/
def Label.registers {ι κ : Type*} : Label ι κ → Bool
  | .createAdapter _ | .clearAll => true
  | _ => false

/-- The call goes by what the registry holds. -/
structure Call.Routed (submodel : Submodel) (storage : Storage) (call : Call) : Prop where
  semantic : call = .getAdapterBySubmodelSemanticId →
    submodel.lookup storage = .getAdapterBySubmodelSemanticId
  url : ∀ url, call.url = some url → submodel.lookup storage = .post url ∨
    submodel.lookup storage = .getAdapterBySubmodelSemanticId ∧
      submodel.lookupSemantic storage = .post url

/-- And so does the read. -/
structure Read.Routed (query : Query) (storage : Storage) (read : Read) : Prop where
  semantic : read = .getAdapterBySubmodelSemanticId →
    query.lookup storage = .getAdapterBySubmodelSemanticId
  url : ∀ url, read.url = some url → query.lookup storage = .getSubmodel url ∨
    query.lookup storage = .getAdapterBySubmodelSemanticId ∧
      query.lookupSemantic storage = .getSubmodel url

section Routed

variable {ι κ ν : Type*} {query : Query} {submodel : Submodel} {storage : Storage}
  {url url' : String}

theorem readFrom_eq_iff {adapter : Adapter} :
    readFrom adapter = .getSubmodel url ↔ callFor adapter = .post url := by
  unfold readFrom
  rcases callFor_cases adapter with heq | ⟨url', -, -, heq⟩ <;> rw [heq] <;> simp [Call.url]

theorem Call.Routed.of_url_eq_none {call : Call} (hne : call ≠ .getAdapterBySubmodelSemanticId)
    (hurl : call.url = none) : call.Routed submodel storage := by
  refine ⟨fun heq => absurd heq hne, fun url heq => ?_⟩
  rw [hurl] at heq
  cases heq

theorem Read.Routed.of_url_eq_none {read : Read} (hne : read ≠ .getAdapterBySubmodelSemanticId)
    (hurl : read.url = none) : read.Routed query storage := by
  refine ⟨fun heq => absurd heq hne, fun url heq => ?_⟩
  rw [hurl] at heq
  cases heq

/-- A read with the ids of a submodel goes to the adapter that the submodel was posted to. -/
theorem Read.Routed.url_eq {read : Read} {call : Call}
    (hread : read.Routed query storage) (hcall : call.Routed submodel storage)
    (hparams : submodel.params = some (query.submodelid, query.semanticid))
    (hurl : read.url = some url) (hurl' : call.url = some url') : url' = url := by
  have hread' := hread.url url hurl
  have hcall' := hcall.url url' hurl'
  simp only [Query.lookup, Query.lookupSemantic] at hread'
  simp only [Submodel.lookup, Submodel.lookupSemantic, hparams] at hcall'
  cases hfirst : AdapterRegistry.getAdapterBySubmodelId storage query.submodelid with
  | some adapter =>
      simp only [hfirst, readFrom_eq_iff] at hread' hcall'
      have hpost : callFor adapter = .post url := by
        refine hread'.resolve_right fun hsecond => ?_
        rcases readFrom_cases adapter with heq | ⟨_, -, -, heq⟩ <;>
          cases hsecond.1.symm.trans heq
      rw [hpost] at hcall'
      rcases hcall' with heq | ⟨hno, -⟩
      · exact (Call.post.inj heq).symm
      · cases hno
  | none =>
      simp only [hfirst, true_and] at hread' hcall'
      have hread' := hread'.resolve_left fun hno => by cases hno
      have hcall' := hcall'.resolve_left fun hno => by cases hno
      cases hsecond : AdapterRegistry.getAdapterBySubmodelSemanticId storage query.semanticid with
      | some adapter =>
          simp only [hsecond, readFrom_eq_iff] at hread' hcall'
          exact (Call.post.inj (hread'.symm.trans hcall')).symm
      | none =>
          rw [hsecond] at hread'
          cases hread'

theorem Moves.routed {s : State ι κ} {call call' : Call} (h : Moves s submodel call call')
    (hrouted : call.Routed submodel s.storage) : call'.Routed submodel s.storage := by
  cases h with
  | lookup =>
      refine ⟨fun heq => heq, fun url hurl => ?_⟩
      rcases submodel.lookup_cases s.storage with heq | heq | ⟨url', heq, -⟩
      · rw [heq] at hurl
        cases hurl
      · rw [heq] at hurl
        cases hurl
      · rw [heq] at hurl
        obtain rfl := Option.some.inj hurl
        exact .inl heq
  | lookupSemantic =>
      have hfirst := hrouted.semantic rfl
      rcases submodel.lookupSemantic_cases s.storage with heq | ⟨url', heq, -⟩
      · rw [heq]
        exact .of_url_eq_none (by simp) rfl
      · refine ⟨fun hno => ?_, fun url hurl => ?_⟩
        · cases heq.symm.trans hno
        · rw [heq] at hurl
          obtain rfl := Option.some.inj hurl
          exact .inr ⟨hfirst, heq⟩
  | taken url =>
      rcases submodel.taken_cases url with heq | ⟨submodelId, sm, heq, -, -⟩
      · rw [heq]
        exact .of_url_eq_none (by simp) rfl
      · rw [heq]
        exact ⟨(fun hno => by cases hno), hrouted.url⟩
  | reads url submodelId sm version => exact ⟨(fun hno => by cases hno), hrouted.url⟩
  | fails call _ => exact .of_url_eq_none (by simp) rfl

theorem Call.Routed.abandon {call : Call} (h : call.Routed submodel storage) :
    call.abandon.Routed submodel storage := by
  refine ⟨fun hno => ?_, fun url hurl => h.url url (call.abandon_url ▸ hurl)⟩
  cases call <;> cases hno

variable [DecidableEq ι] [DecidableEq κ]

theorem storage_of_step {env : Env ι κ} {s s' : State ι κ} {l : Label ι κ}
    (h : step env s l = some s') (hl : l.registers = false) : s'.storage = s.storage := by
  have hrequest : l.request ≠ none → s'.storage = s.storage := by
    intro hne
    cases step_cases h with
    | registers _ hno => exact absurd hno hne
    | _ => rfl
  cases l with
  | createAdapter record => cases hl
  | clearAll => cases hl
  | otherClient k db =>
      obtain rfl := Option.some.inj h
      rfl
  | exit =>
      obtain rfl := Option.some.inj h
      rfl
  | _ => exact hrequest (by simp [Label.request])

/-- While nobody changes the registry, all calls go by it. -/
structure State.Routed (env : Env ι κ) (storage : Storage) (s : State ι κ) : Prop where
  sound : s.Sound env
  registry : s.storage = storage
  calls : ∀ (r : ι) (i : ℕ) (t : Task) (submodel : Submodel), (s.requests r).tasks[i]? = some t →
    (env.submodels r)[i]? = some submodel → t.call.Routed submodel storage

theorem State.Routed.step {env : Env ι κ} {s s' : State ι κ} {l : Label ι κ}
    (h : s.Routed env storage) (hl : l.registers = false) (hstep : step env s l = some s') :
    s'.Routed env storage := by
  refine ⟨h.sound.step hstep, (storage_of_step hstep hl).trans h.registry, ?_⟩
  intro r i t' submodel ht' hsubmodel
  cases goes_of_step h.sound hstep ht' with
  | stays t ht hcall =>
      have hrouted := h.calls r i t submodel ht hsubmodel
      rcases hcall with heq | heq <;> rw [heq]
      · exact hrouted
      · exact hrouted.abandon
  | starts submodel' _ _ hcall =>
      rcases submodel'.start_cases with heq | heq <;> rw [hcall, heq] <;>
        exact .of_url_eq_none (by simp) rfl
  | moves t submodel' ht hsubmodel' hmoves _ =>
      obtain rfl := Option.some.inj (hsubmodel.symm.trans hsubmodel')
      have hrouted := h.calls r i t submodel ht hsubmodel
      rw [← h.registry] at hrouted ⊢
      exact hmoves.routed hrouted
  | stores t url submodelId sm version ht hcall hcall' _ =>
      have hrouted := h.calls r i t submodel ht hsubmodel
      rw [hcall] at hrouted
      rw [hcall']
      exact ⟨(fun hno => by cases hno), hrouted.url⟩

variable [DecidableEq ν] {env : ReadEnv ι κ ν}

structure ReadState.Routed (env : ReadEnv ι κ ν) (storage : Storage) (s : ReadState ι κ ν) :
    Prop where
  manager : s.manager.Routed env.toEnv storage
  reads : ∀ q, (s.reads q).Routed (env.query q) storage

theorem ReadState.Routed.step {s s' : ReadState ι κ ν} {l : ReadLabel ι κ ν}
    (h : s.Routed env storage) (hl : ∀ a, l.ofManager = some a → a.registers = false)
    (hstep : readStep env s l = some s') : s'.Routed env storage := by
  constructor
  · have hpart := hasPart_manager env s l s' hstep
    cases hlabel : l.ofManager with
    | none =>
        rw [hlabel] at hpart
        rw [show s'.manager = s.manager from hpart]
        exact h.manager
    | some a =>
        rw [hlabel] at hpart
        exact h.manager.step (hl a hlabel) hpart
  · intro q
    have hq := h.reads q
    cases readStepped hstep q with
    | stays heq =>
        rw [heq]
        exact hq
    | exits heq =>
        rw [heq]
        refine ⟨fun hno => ?_, fun url hurl => hq.url url (Read.exit_url _ hurl)⟩
        cases hread : s.reads q <;> rw [hread] at hno <;> cases hno
    | receives _ heq =>
        rw [heq]
        refine .of_url_eq_none ?_ (env.receive_url q)
        rcases env.receive_cases q with hread | ⟨status, hread⟩ <;> rw [hread] <;> simp
    | lookup _ _ heq =>
        rw [heq, h.manager.registry]
        refine ⟨fun hno => hno, fun url hurl => ?_⟩
        rcases (env.query q).lookup_cases storage with hread | hread | ⟨url', hread, -⟩
        · rw [hread] at hurl
          cases hurl
        · rw [hread] at hurl
          cases hurl
        · rw [hread] at hurl
          obtain rfl := Option.some.inj hurl
          exact .inl hread
    | lookupSemantic hread _ heq =>
        have hfirst := hq.semantic hread
        rw [heq, h.manager.registry]
        rcases (env.query q).lookupSemantic_cases storage with hread | ⟨url', hread, -⟩
        · rw [hread]
          exact .of_url_eq_none (by simp) rfl
        · refine ⟨fun hno => ?_, fun url hurl => ?_⟩
          · cases hread.symm.trans hno
          · rw [hread] at hurl
            obtain rfl := Option.some.inj hurl
            exact .inr ⟨hfirst, hread⟩
    | responds url hread _ heq =>
        rw [heq]
        rw [hread] at hq
        rcases env.respond_cases s.manager q url with hread' | ⟨data, hread', -⟩ <;> rw [hread']
        · exact .of_url_eq_none (by simp) rfl
        · exact ⟨(fun hno => by cases hno), hq.url⟩
    | answers url data hread heq =>
        rw [hread] at hq
        rw [heq]
        exact ⟨(fun hno => by cases hno), hq.url⟩

/-- While nobody changes the adapter registry and nobody deletes its record, a submodel whose
request was answered with status 200 is found by every read for its ids that begins later:
the read gives the text of this submodel, or one that was stored over it. -/
theorem found_of_answered {db : κ → StorageAdapter.Collection} {r : ι} {i : ℕ} {q : ν}
    {s₁ s₂ : ReadState ι κ ν} {ls₁ ls₂ : List (ReadLabel ι κ ν)} {data : Data}
    {sm : StorageAdapter.Submodel} {submodelId : String}
    (h₁ : exec (readStep env) (.initial storage db) ls₁ = some s₁)
    (h₂ : exec (readStep env) s₁ ls₂ = some s₂)
    (hregistry : ∀ l ∈ ls₁ ++ ls₂, ∀ a, l.ofManager = some a → a.registers = false)
    (hkeeps : ∀ k, Guarded (readStep env) (Keeps k (env.md5 submodelId)) (.initial storage db)
      (ls₁ ++ ls₂))
    (hsubmodel : (env.submodels r)[i]? = some submodel) (hsm : submodel.fromJSON = some sm)
    (hid : sm.submodelId = .ok submodelId) (hposted : (s₁.manager.requests r).phase = .answered 200)
    (hidle : s₁.reads q = .idle) (hquery : (env.query q).submodelid = some submodelId)
    (hne : submodelId ≠ "")
    (hparams : submodel.params = some ((env.query q).submodelid, (env.query q).semanticid))
    (hanswered : s₂.reads q = .answered url data) :
    ∃ b b' : StorageAdapter.ISubmodelRecord, b.value = sm.serialized ∧
      data = .submodel b'.value ∧ Sees (some b') (some b) ∧
      Once (readStep env) (fun t => env.record t url submodelId = some b) (.initial storage db)
        ls₁ ∧
      Once (readStep env) (fun t => env.record t url submodelId = some b') s₁ ls₂ := by
  have hrouted : ∀ ls ⊆ ls₁ ++ ls₂, ∀ s s' : ReadState ι κ ν, s.Routed env storage →
      exec (readStep env) s ls = some s' → s'.Routed env storage := by
    intro ls hls s s' hs hexec
    have halong : Along (readStep env) (ReadState.Routed env storage) s ls :=
      along_of_mem (fun s l s' hl h hstep => h.step (hregistry l (hls hl)) hstep) hs
    exact halong.exec_eq hexec
  have hinitial : (ReadState.initial storage db : ReadState ι κ ν).Routed env storage := by
    refine ⟨⟨State.sound_initial _ _ _, rfl, fun r i t submodel ht => ?_⟩, fun q => ?_⟩
    · cases ht
    · exact .of_url_eq_none (by simp [ReadState.initial]) rfl
  have hrouted₁ := hrouted ls₁ (List.subset_append_left _ _) _ _ hinitial h₁
  have hrouted₂ := hrouted ls₂ (List.subset_append_right _ _) _ _ hrouted₁ h₂
  obtain ⟨-, hall⟩ := hasStored_of_answered ((hasPart_manager env).exec h₁) hposted (by decide)
  obtain ⟨url', t, ht, hcall⟩ := hall i submodel hsubmodel
  have hurl : url' = url := (hrouted₂.reads q).url_eq
    (hrouted₁.manager.calls r i t submodel ht hsubmodel) hparams (by rw [hanswered]; rfl)
    (by rw [hcall]; rfl)
  subst hurl
  exact seen_of_hasStored h₁ h₂ (hkeeps _) hsubmodel hsm hid ⟨t, ht, hcall⟩ hidle hquery hne
    hanswered

end Routed

/-! The submodel is posted and then read. -/

def motorReads : ReadEnv Unit Unit Unit where
  toEnv := motorEnv
  query _ := ⟨some "submodel", none⟩
  mayRead _ := true

def motorPosted : List (ReadLabel Unit Unit Unit) :=
  [.manager (.postSubmodels ()), .manager (.getAdapterBySubmodelId () 0),
    .manager (.postSubmodel () 0), .manager (.getPreviousSubmodel () 0 true),
    .manager (.update () 0 true), .manager (.settle () 0 true)]

def motorRead : List (ReadLabel Unit Unit Unit) :=
  [.getSubmodels (), .getAdapterBySubmodelId (), .getSubmodel (), .respond ()]

/-- Whether the read has not begun or is answered. -/
def Read.status : Read → Option ℕ
  | .idle => some 0
  | .answered _ _ => some 200
  | _ => none

/-- The states after the post and after the read. -/
theorem exists_motorReads : ∃ s₁ s₂ url data,
    exec (readStep motorReads) (.initial submodelStorage fun _ => ∅) motorPosted = some s₁ ∧
      exec (readStep motorReads) s₁ motorRead = some s₂ ∧
      (s₁.manager.requests ()).phase = .answered 200 ∧ s₁.reads () = .idle ∧
      s₂.reads () = .answered url data := by
  have hrun : ((exec (readStep motorReads) (.initial submodelStorage fun _ => ∅)
      motorPosted).bind fun s₁ => (exec (readStep motorReads) s₁ motorRead).map fun s₂ =>
        ((s₁.manager.requests ()).phase, (s₁.reads ()).status, (s₂.reads ()).status)) =
      some (.answered 200, some 0, some 200) := by decide
  obtain ⟨s₁, hs₁, hrest⟩ := Option.bind_eq_some_iff.mp hrun
  obtain ⟨s₂, hs₂, heq⟩ := Option.map_eq_some_iff.mp hrest
  obtain ⟨hphase, hfirst, hsecond⟩ : _ ∧ _ ∧ _ := by simpa only [Prod.mk.injEq] using heq
  have hidle : s₁.reads () = .idle := by
    cases hread : s₁.reads () <;> simp [hread, Read.status] at hfirst
    rfl
  cases hread : s₂.reads () with
  | answered url data => exact ⟨s₁, s₂, url, data, hs₁, hs₂, hphase, hidle, hread⟩
  | _ => simp [hread, Read.status] at hsecond

theorem read_of_answered_motor : ∃ s₁ url data, Then (readStep motorReads)
    (fun t => Named ⟨some "submodel", none⟩ url t.manager.storage)
    (fun t => readSubmodels id (t.manager.db ()) (some "submodel") = .ok data) s₁ motorRead := by
  obtain ⟨s₁, s₂, url, data, -, hs₂, -, hidle, hanswered⟩ := exists_motorReads
  exact ⟨s₁, url, data, read_of_answered hidle hs₂ hanswered⟩

theorem found_of_answered_motor : ∃ (s₁ s₂ : ReadState Unit Unit Unit) (url : String)
    (b b' : StorageAdapter.ISubmodelRecord),
    exec (readStep motorReads) s₁ motorRead = some s₂ ∧ b.value = motorText ∧
      Sees (some b') (some b) ∧ s₂.reads () = .answered url (.submodel b'.value) := by
  obtain ⟨s₁, s₂, url, data, hs₁, hs₂, hphase, hidle, hanswered⟩ := exists_motorReads
  have hregistry : ∀ l ∈ motorPosted ++ motorRead, ∀ a, l.ofManager = some a →
      a.registers = false := by
    intro l hl a ha
    simp only [motorPosted, motorRead, List.cons_append, List.nil_append, List.mem_cons,
      List.not_mem_nil, or_false] at hl
    rcases hl with rfl | rfl | rfl | rfl | rfl | rfl | rfl | rfl | rfl | rfl <;> cases ha <;> rfl
  have hkeeps : ∀ k, Guarded (readStep motorReads) (Keeps k (id "submodel"))
      (.initial submodelStorage fun _ => ∅) (motorPosted ++ motorRead) := by
    intro k
    refine guarded_of_mem fun l hl s db hdb => ?_
    subst hdb
    simp [motorPosted, motorRead] at hl
  obtain ⟨b, b', hvalue, rfl, hsees, -, -⟩ := found_of_answered (r := ()) (i := 0) hs₁ hs₂
    hregistry hkeeps rfl rfl rfl hphase hidle rfl (by decide) rfl hanswered
  exact ⟨s₁, s₂, url, b, b', hs₂, hvalue, hsees, hanswered⟩

end I40Aas.DataManager
