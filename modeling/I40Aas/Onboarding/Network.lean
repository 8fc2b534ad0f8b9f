import I40Aas.Lib.History
import I40Aas.DataManager.Answers
import I40Aas.OnboardingSkill.CreateInstance

/-!
The onboarding skill and the data manager. `createInstance` posts the interaction elements
of the message of its run to the data manager, so every run has one request there, which
arrives at any time after the call or never. The promise of the call resolves with an answer
of the data manager below 300 and rejects with every other, and it rejects without an answer
whenever the connection fails.
-/

namespace I40Aas.Onboarding

open I40Aas.Lib I40Aas.OnboardingSkill

structure Env (ι κ : Type*) where
  toUpperCase : String → String
  configuration : Configuration
  restartsInvocation : Bool
  /-- The message of each run of `applyEvent`. -/
  message : ι → Message
  /-- What the data manager reads of an interaction element. -/
  submodel : String → DataManager.Submodel
  fits : ι → Bool
  authorized : ι → Bool
  md5 : String → String
  host : String → κ

section

variable {ι κ : Type*}

def Env.skill (env : Env ι κ) : OnboardingSkill.Env ι :=
  .receive env.toUpperCase env.configuration env.restartsInvocation env.message

/-- The body is missing where the message has no interaction elements. -/
def Env.manager (env : Env ι κ) : DataManager.Env ι κ where
  body r := (env.message r).interactionElements.map (List.map env.submodel)
  fits := env.fits
  authorized := env.authorized
  md5 := env.md5
  host := env.host

end

structure State (ι κ : Type*) where
  skill : System ι
  manager : DataManager.State ι κ

def State.initial {ι κ : Type*} (records : String → Option IStateRecord)
    (storage : AdapterRegistry.Storage) (db : κ → StorageAdapter.Collection) : State ι κ :=
  ⟨.initial records, .initial storage db⟩

inductive Label (ι κ : Type*)
  | skill (l : OnboardingSkill.Label ι)
  | manager (l : DataManager.Label ι κ)

/-- The outcome of `Axios.post` that the skill can learn from the request. -/
def learns (phase : DataManager.Phase) : Option RequestError → Bool
  | none =>
      match phase with
      | .answered status => 200 ≤ status ∧ status < 300
      | _ => false
  | some ⟨some status⟩ => phase = .answered status ∧ ¬ (200 ≤ status ∧ status < 300)
  | some ⟨none⟩ => true

/-- What one of the two can do only when the other has done something before. -/
def State.allows {ι κ : Type*} (s : State ι κ) : Label ι κ → Bool
  | .skill (.createInstanceEnds r error) => learns (s.manager.requests r).phase error
  | .manager (.postSubmodels r) => 0 < (s.skill.runs r).createInstanceCalls
  | _ => true

section Step

variable {ι κ : Type*} [DecidableEq ι] [DecidableEq κ]

def step (env : Env ι κ) (s : State ι κ) (l : Label ι κ) : Option (State ι κ) :=
  if s.allows l then
    match l with
    | .skill l =>
        (OnboardingSkill.step env.skill s.skill l).map fun skill => { s with skill := skill }
    | .manager l =>
        (DataManager.step env.manager s.manager l).map fun manager => { s with manager := manager }
  else none

end Step

/-- The steps of the data manager and of its neighbours. -/
def Label.ofManager {ι κ : Type*} : Label ι κ → Option (DataManager.Label ι κ)
  | .skill _ => none
  | .manager l => some l

section

variable {ι κ : Type*} [DecidableEq ι] [DecidableEq κ] {env : Env ι κ} {s s' : State ι κ}
  {l : Label ι κ}

theorem step_cases (h : step env s l = some s') :
    s.allows l = true ∧
      ((∃ a, l = .skill a ∧ OnboardingSkill.step env.skill s.skill a = some s'.skill ∧
          s'.manager = s.manager) ∨
        ∃ a, l = .manager a ∧ DataManager.step env.manager s.manager a = some s'.manager ∧
          s'.skill = s.skill) := by
  unfold step at h
  obtain ⟨hallows, h⟩ := Option.ite_none_right_eq_some.mp h
  refine ⟨hallows, ?_⟩
  cases l with
  | skill a =>
      obtain ⟨skill, hskill, rfl⟩ := Option.map_eq_some_iff.mp h
      exact .inl ⟨a, rfl, hskill, rfl⟩
  | manager a =>
      obtain ⟨manager, hmanager, rfl⟩ := Option.map_eq_some_iff.mp h
      exact .inr ⟨a, rfl, hmanager, rfl⟩

theorem hasPart_manager (env : Env ι κ) :
    HasPart (step env) (DataManager.step env.manager) State.manager Label.ofManager := by
  intro s l s' hstep
  rcases (step_cases hstep).2 with ⟨a, rfl, -, heq⟩ | ⟨a, rfl, hmanager, -⟩
  · exact heq
  · exact hmanager

end

end I40Aas.Onboarding
