import Mathlib.Logic.Function.Basic
import I40Aas.AdapterRegistry.Routing
import I40Aas.StorageAdapter.Submodels

/-!
The data manager between the adapter registry and the storage adapters. `POST /submodels`
looks every submodel of the request up in the adapter registry and posts it to the adapter
that is found; `Promise.all` waits for the first failure or for all of them. The submodels of
all requests go on independently, and so do the registry, the databases of the adapters and
the process, which ends at the first rejection that nobody handles.
-/

namespace I40Aas.DataManager

open I40Aas.Lib I40Aas.AdapterRegistry

/-- A submodel of a request. -/
structure Submodel where
  idShort : Field
  /-- `identification.id`; it cannot be read where there is no identification. -/
  identification : Option (Option String)
  /-- The values of the keys, if there is a semantic id. -/
  semanticId : Option (List (Option String))
  /-- What the storage adapter makes of it with `Submodel.fromJSON`, unless that throws. -/
  fromJSON : Option StorageAdapter.Submodel

/-- The parameters of the query for an adapter; `none` where reading them throws. -/
def Submodel.params (submodel : Submodel) : Option (Option String × Option String) :=
  match submodel.identification, submodel.semanticId with
  | some id, none => some (id, none)
  | some id, some (value :: _) => some (id, value)
  | _, _ => none

/-! ### Before the handler -/

/-- The status of the error for the first submodel without `idShort`. The message for the log
reads the identification. -/
def validateSubmodelsRequest : List Submodel → Option ℕ
  | [] => none
  | submodel :: submodels =>
      if submodel.idShort.truthy then validateSubmodelsRequest submodels
      else if submodel.identification.isSome then some 422
      else some 500

/-- What is fixed while the requests of `ι` are under way; `κ` are the databases. -/
structure Env (ι κ : Type*) where
  /-- The body, if the request has one. -/
  body : ι → Option (List Submodel)
  /-- Within the limit of the body parser. -/
  fits : ι → Bool
  /-- With the user and the password of the data manager. -/
  authorized : ι → Bool
  md5 : String → String
  /-- The database of the storage adapter at a url. -/
  host : String → κ

section

variable {ι κ : Type*} (env : Env ι κ)

/-- The status with which the middleware turns a request away. -/
def Env.refusal (r : ι) : Option ℕ :=
  if !env.fits r then some 500
  else if !env.authorized r then some 401
  else
    match env.body r with
    | none => some 400
    | some [] => some 404
    | some submodels => validateSubmodelsRequest submodels

/-- The submodels that `routeSubmodel` is called with. -/
def Env.submodels (r : ι) : List Submodel := (env.body r).getD []

end

/-! ### One submodel -/

inductive Promise
  | pending
  | fulfilled
  | rejected
  deriving DecidableEq, Repr

/-- How far a submodel has come. -/
inductive Call
  /-- `GET /adapters` is about to read the values for the first lookup. -/
  | getAdapterBySubmodelId
  /-- The first lookup has found nothing. -/
  | getAdapterBySubmodelSemanticId
  /-- The post to the adapter is on its way. -/
  | post (url : String)
  /-- The adapter has taken the submodel and is about to read its record. -/
  | getPreviousSubmodel (url submodelId : String) (sm : StorageAdapter.Submodel)
  | update (url submodelId : String) (sm : StorageAdapter.Submodel) (version : ℕ)
  | stored (url : String)
  | failed
  deriving DecidableEq, Repr

structure Task where
  promise : Promise
  call : Call
  deriving DecidableEq, Repr

/-- The call up to its first `await`. Without a parameter the registry answers with a list,
which has no `url`. -/
def Submodel.start (submodel : Submodel) : Call :=
  match submodel.params with
  | none => .failed
  | some (submodelid, submodelsemanticid) =>
      if !given submodelid && !given submodelsemanticid then .failed
      else .getAdapterBySubmodelId

/-- `getAdapterFromRegistry` with the adapter of the response. -/
def callFor (adapter : Adapter) : Call :=
  match adapter.url with
  | .string url => if url = "" then .failed else .post url
  | _ => .failed

def Submodel.lookup (submodel : Submodel) (storage : Storage) : Call :=
  match submodel.params with
  | none => .failed
  | some (submodelid, _) =>
      match getAdapterBySubmodelId storage submodelid with
      | some adapter => callFor adapter
      | none => .getAdapterBySubmodelSemanticId

def Submodel.lookupSemantic (submodel : Submodel) (storage : Storage) : Call :=
  match submodel.params with
  | none => .failed
  | some (_, submodelsemanticid) =>
      match getAdapterBySubmodelSemanticId storage submodelsemanticid with
      | some adapter => callFor adapter
      | none => .failed

/-- The adapter at the url takes the post. -/
def Submodel.taken (submodel : Submodel) (url : String) : Call :=
  match submodel.fromJSON with
  | none => .failed
  | some sm =>
      match sm.submodelId with
      | .error _ => .failed
      | .ok submodelId => .getPreviousSubmodel url submodelId sm

/-! ### The process -/

inductive Phase
  | idle
  /-- In `routeSubmodel`. -/
  | routing
  | answered (status : ℕ)
  /-- The process has ended before it answered. -/
  | lost
  deriving DecidableEq, Repr

structure Request where
  phase : Phase
  tasks : List Task

def Request.initial : Request := ⟨.idle, []⟩

/-- The request arrives. -/
def Env.receive {ι κ : Type*} (env : Env ι κ) (r : ι) : Request :=
  match env.refusal r with
  | some status => ⟨.answered status, []⟩
  | none => ⟨.routing, (env.submodels r).map fun submodel => ⟨.pending, submodel.start⟩⟩

/-- Task `i` goes on. -/
def Request.advance (ρ : Request) (i : ℕ) (call : Call) : Request :=
  { ρ with tasks := ρ.tasks.modify i fun t => { t with call := call } }

/-- What `Promise.all` and the handler do when one of the promises is settled. -/
def respond (promise : Promise) (promises : List Promise) : Phase :=
  if promise = .rejected then .answered 500
  else if promises.all (· = .fulfilled) then .answered 200
  else .routing

/-- Nobody waits for the answer any more: a call that has not left the registry ends there, a
post may still arrive. -/
def Call.abandon : Call → Call
  | .getAdapterBySubmodelId | .getAdapterBySubmodelSemanticId => .failed
  | call => call

/-- The promise of task `i` is settled. -/
def Request.settle (ρ : Request) (i : ℕ) (promise : Promise) : Request :=
  let tasks := ρ.tasks.modify i fun t => ⟨promise, t.call.abandon⟩
  { tasks := tasks
    phase :=
      if ρ.phase = .routing then respond promise (tasks.map (·.promise)) else ρ.phase }

def Request.exit (ρ : Request) : Request where
  phase := if ρ.phase = .routing then .lost else ρ.phase
  tasks := ρ.tasks.map fun t => { t with call := t.call.abandon }

structure State (ι κ : Type*) where
  /-- Of the adapter registry. -/
  storage : Storage
  db : κ → StorageAdapter.Collection
  requests : ι → Request

def State.initial {ι κ : Type*} (storage : Storage) (db : κ → StorageAdapter.Collection) :
    State ι κ :=
  ⟨storage, db, fun _ => .initial⟩

inductive Label (ι κ : Type*)
  | postSubmodels (r : ι)
  | getAdapterBySubmodelId (r : ι) (i : ℕ)
  | getAdapterBySubmodelSemanticId (r : ι) (i : ℕ)
  | postSubmodel (r : ι) (i : ℕ)
  | getPreviousSubmodel (r : ι) (i : ℕ) (reachable : Bool)
  | update (r : ι) (i : ℕ) (reachable : Bool)
  /-- The answer to the last request for a submodel arrives, or none does. -/
  | settle (r : ι) (i : ℕ) (arrives : Bool)
  /-- One `setItem` of a `POST /adapters`. -/
  | createAdapter (record : Adapter)
  | clearAll
  /-- Another client of a storage adapter. -/
  | otherClient (k : κ) (db : StorageAdapter.Collection)
  /-- A `GET /submodels` fails, whose handler catches nothing. -/
  | exit

/-- The request that a step belongs to. -/
def Label.request {ι κ : Type*} : Label ι κ → Option ι
  | .postSubmodels r | .getAdapterBySubmodelId r _ | .getAdapterBySubmodelSemanticId r _
  | .postSubmodel r _ | .getPreviousSubmodel r _ _ | .update r _ _ | .settle r _ _ => some r
  | .createAdapter _ | .clearAll | .otherClient _ _ | .exit => none

section Step

variable {ι κ : Type*} [DecidableEq ι] [DecidableEq κ]

def State.setRequest (s : State ι κ) (r : ι) (ρ : Request) : State ι κ :=
  { s with requests := Function.update s.requests r ρ }

def State.advance (s : State ι κ) (r : ι) (i : ℕ) (call : Call) : State ι κ :=
  s.setRequest r ((s.requests r).advance i call)

/-- The database has executed the update of task `i`, or not. -/
def State.updateEnds (env : Env ι κ) (s : State ι κ) (r : ι) (i : ℕ) (url : String) :
    Except StorageAdapter.AdapterError StorageAdapter.Collection → State ι κ
  | .error _ => s.advance r i .failed
  | .ok db =>
      { s.advance r i (.stored url) with db := Function.update s.db (env.host url) db }

/-- One step; a label that is not enabled has no successor. -/
def step (env : Env ι κ) (s : State ι κ) : Label ι κ → Option (State ι κ)
  | .postSubmodels r =>
      if (s.requests r).phase = .idle then some (s.setRequest r (env.receive r)) else none
  | .getAdapterBySubmodelId r i =>
      match (env.submodels r)[i]?, (s.requests r).tasks[i]? with
      | some submodel, some ⟨_, .getAdapterBySubmodelId⟩ =>
          some (s.advance r i (submodel.lookup s.storage))
      | _, _ => none
  | .getAdapterBySubmodelSemanticId r i =>
      match (env.submodels r)[i]?, (s.requests r).tasks[i]? with
      | some submodel, some ⟨_, .getAdapterBySubmodelSemanticId⟩ =>
          some (s.advance r i (submodel.lookupSemantic s.storage))
      | _, _ => none
  | .postSubmodel r i =>
      match (env.submodels r)[i]?, (s.requests r).tasks[i]? with
      | some submodel, some ⟨_, .post url⟩ => some (s.advance r i (submodel.taken url))
      | _, _ => none
  | .getPreviousSubmodel r i reachable =>
      match (s.requests r).tasks[i]? with
      | some ⟨_, .getPreviousSubmodel url submodelId sm⟩ =>
          some (s.advance r i (if reachable then
            .update url submodelId sm
              (expectedVersion ((s.db (env.host url)).lookup (env.md5 submodelId)))
          else .failed))
      | _ => none
  | .update r i reachable =>
      match (s.requests r).tasks[i]? with
      | some ⟨_, .update url submodelId sm version⟩ =>
          some (s.updateEnds env r i url (if reachable then
            StorageAdapter.update (s.db (env.host url)) (env.md5 submodelId) version sm.serialized
          else .error .mongoError))
      | _ => none
  | .settle r i arrives =>
      match (s.requests r).tasks[i]? with
      | some ⟨.pending, call⟩ =>
          if (s.requests r).phase = .lost then none
          else if !arrives then some (s.setRequest r ((s.requests r).settle i .rejected))
          else
            match call with
            | .stored _ => some (s.setRequest r ((s.requests r).settle i .fulfilled))
            | .failed => some (s.setRequest r ((s.requests r).settle i .rejected))
            | _ => none
      | _ => none
  | .createAdapter record =>
      if h : record.admitted = true then some { s with storage := s.storage.setItem record h }
      else none
  | .clearAll => some { s with storage := .empty }
  | .otherClient k db => some { s with db := Function.update s.db k db }
  | .exit => some { s with requests := fun r => (s.requests r).exit }

end Step

end I40Aas.DataManager
