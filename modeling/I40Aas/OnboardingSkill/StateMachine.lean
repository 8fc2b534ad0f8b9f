import Mathlib.Data.List.Basic
import Mathlib.Tactic.Common

/-!
The state machine of the onboarding skill: `machineDescription` and the guards
of `MySkillStateMachineSpecification`, and the actions of `MySkillActionMap`.

The description is kept as the table it is in the source. `select` is what
xstate does with it on an event: the first transition of the event's list whose
condition holds. `Enabled` lists the transitions one by one; `select_eq_some_iff`
connects the two, so that no later proof reads the table again.
-/

namespace I40Aas.OnboardingSkill

/-- The states of `machineDescription`. -/
inductive StateValue
  | waitingForOnboardingRequest
  | waitingForApproval
  | creatingInstance
  | instancePublished
  | instanceAndTypePublished
  | operationFailed
  | waitingForType
  deriving DecidableEq, Repr

/-- The configuration the guards read; a property counts as it counts in a
JavaScript condition. -/
structure Configuration where
  askForApproval : Bool
  askForType : Bool

/-- The `data` of an error event: a failed request, with the status of its
response if there was one. -/
structure RequestError where
  responseStatus : Option ℕ
  deriving DecidableEq, Repr

/-- An event as the interpreter receives it. -/
structure Event where
  type : String
  data : Option RequestError

/-- The part of an interaction message the skill reads. An element is kept as
its JSON text. -/
structure Message where
  type : String
  senderRoleName : String
  conversationId : String
  interactionElements : Option (List String)
  deriving DecidableEq

inductive Guard
  | notRequestType
  | requestType
  | notRequestApproval
  | requestApproval

/-- The `guards` of the machine options. -/
def Guard.holds (configuration : Configuration) : Guard → Bool
  | .notRequestType => !configuration.askForType
  | .requestType => configuration.askForType
  | .notRequestApproval => !configuration.askForApproval
  | .requestApproval => configuration.askForApproval

inductive Action
  | requestApprovalFromApprover
  | sendRequestRefusedToOperator
  | sendResponseInstanceToOperator
  | sendResponseToOperatorAndRequestType
  | sendCreationErrorToOperator
  | sendResponseTypeToOperator
  deriving DecidableEq

structure Transition where
  cond : Option Guard
  target : StateValue
  actions : List Action

structure Invoke where
  id : String
  onDone : List Transition
  onError : List Transition

/-- A node of the description; a final node has neither transitions nor an
invocation. -/
structure StateNode where
  final : Bool
  on : List (String × List Transition)
  invoke : Option Invoke

/-- `machineDescription.states`. -/
def machineDescription : StateValue → StateNode
  | .waitingForOnboardingRequest =>
      { final := false
        on := [("PUBLISHINSTANCE_FROM_OPERATOR",
          [⟨some .notRequestApproval, .creatingInstance, []⟩,
            ⟨some .requestApproval, .waitingForApproval, [.requestApprovalFromApprover]⟩])]
        invoke := none }
  | .waitingForApproval =>
      { final := false
        on := [("APPROVED_FROM_APPROVER", [⟨none, .creatingInstance, []⟩]),
          ("REQUESTREFUSED_FROM_APPROVER",
            [⟨none, .operationFailed, [.sendRequestRefusedToOperator]⟩]),
          ("NOTUNDERSTOOD_FROM_APPROVER",
            [⟨none, .operationFailed, [.sendRequestRefusedToOperator]⟩]),
          ("ERROR_FROM_APPROVER",
            [⟨none, .operationFailed, [.sendRequestRefusedToOperator]⟩])]
        invoke := none }
  | .creatingInstance =>
      { final := false
        on := []
        invoke := some
          { id := "create-instance-promise"
            onDone :=
              [⟨some .notRequestType, .instancePublished, [.sendResponseInstanceToOperator]⟩,
                ⟨some .requestType, .waitingForType,
                  [.sendResponseToOperatorAndRequestType]⟩]
            onError := [⟨none, .operationFailed, [.sendCreationErrorToOperator]⟩] } }
  | .instancePublished => { final := true, on := [], invoke := none }
  | .instanceAndTypePublished => { final := true, on := [], invoke := none }
  | .operationFailed => { final := true, on := [], invoke := none }
  | .waitingForType =>
      { final := false
        on := [("RESPONSETYPE_FROM_MANUFACTURER",
            [⟨none, .instanceAndTypePublished, [.sendResponseTypeToOperator]⟩]),
          ("NOTUNDERSTOOD_FROM_MANUFACTURER", [⟨none, .instancePublished, []⟩]),
          ("ERROR_FROM_MANUFACTURER", [⟨none, .instancePublished, []⟩]),
          ("REQUESTREFUSED_FROM_MANUFACTURER", [⟨none, .instancePublished, []⟩])]
        invoke := none }

def StateValue.isFinal (v : StateValue) : Bool := (machineDescription v).final

/-- The event that xstate raises when the service of an invocation resolves. -/
def doneInvoke (id : String) : String := "done.invoke." ++ id

/-- The event that xstate raises when the service of an invocation rejects. -/
def errorPlatform (id : String) : String := "error.platform." ++ id

/-- All transitions of a node by event name, those of its invocation included. -/
def StateNode.transitions (node : StateNode) : List (String × List Transition) :=
  node.on ++ match node.invoke with
    | none => []
    | some i => [(doneInvoke i.id, i.onDone), (errorPlatform i.id, i.onError)]

def stateValues : List StateValue :=
  [.waitingForOnboardingRequest, .waitingForApproval, .creatingInstance, .instancePublished,
    .instanceAndTypePublished, .operationFailed, .waitingForType]

/-- The event names the machine declares anywhere; in strict mode every other
name is refused with "does not accept event". -/
def declaredEvents : List String :=
  stateValues.flatMap fun v => (machineDescription v).transitions.map (·.1)

/-- The transition xstate takes in state `v` on an event of type `type`, if any. -/
def select (configuration : Configuration) (v : StateValue) (type : String) :
    Option Transition :=
  ((machineDescription v).transitions.lookup type).bind fun ts =>
    ts.find? fun t => (t.cond.map (Guard.holds configuration)).getD true

/-- The names of the events that end the invocation of `creatingInstance`. -/
def createInstanceDone : String := doneInvoke "create-instance-promise"
def createInstanceFailed : String := errorPlatform "create-instance-promise"

/-- The transitions of the machine under a configuration, one by one. -/
inductive Enabled (configuration : Configuration) :
    StateValue → String → StateValue → List Action → Prop
  | publish : configuration.askForApproval = false →
      Enabled configuration .waitingForOnboardingRequest "PUBLISHINSTANCE_FROM_OPERATOR"
        .creatingInstance []
  | publishForApproval : configuration.askForApproval = true →
      Enabled configuration .waitingForOnboardingRequest "PUBLISHINSTANCE_FROM_OPERATOR"
        .waitingForApproval [.requestApprovalFromApprover]
  | approved : Enabled configuration .waitingForApproval "APPROVED_FROM_APPROVER"
      .creatingInstance []
  | refused {type : String} :
      type ∈ ["REQUESTREFUSED_FROM_APPROVER", "NOTUNDERSTOOD_FROM_APPROVER",
        "ERROR_FROM_APPROVER"] →
      Enabled configuration .waitingForApproval type .operationFailed
        [.sendRequestRefusedToOperator]
  | created : configuration.askForType = false →
      Enabled configuration .creatingInstance createInstanceDone .instancePublished
        [.sendResponseInstanceToOperator]
  | createdForType : configuration.askForType = true →
      Enabled configuration .creatingInstance createInstanceDone .waitingForType
        [.sendResponseToOperatorAndRequestType]
  | failed : Enabled configuration .creatingInstance createInstanceFailed .operationFailed
      [.sendCreationErrorToOperator]
  | responseType : Enabled configuration .waitingForType "RESPONSETYPE_FROM_MANUFACTURER"
      .instanceAndTypePublished [.sendResponseTypeToOperator]
  | noType {type : String} :
      type ∈ ["NOTUNDERSTOOD_FROM_MANUFACTURER", "ERROR_FROM_MANUFACTURER",
        "REQUESTREFUSED_FROM_MANUFACTURER"] →
      Enabled configuration .waitingForType type .instancePublished []

variable {configuration : Configuration} {v w : StateValue} {type : String} {as : List Action}

theorem enabled_of_select {t : Transition} (h : select configuration v type = some t) :
    Enabled configuration v type t.target t.actions := by
  obtain ⟨ts, hts, hfind⟩ := Option.bind_eq_some_iff.mp h
  have hmem : (type, ts) ∈ (machineDescription v).transitions := by
    obtain ⟨l₁, l₂, hl, -⟩ := List.lookup_eq_some_iff.mp hts
    rw [hl]
    simp
  have htmem := List.mem_of_find?_eq_some hfind
  have hcond := List.find?_some hfind
  cases v <;>
    simp only [StateNode.transitions, machineDescription, List.append_nil, List.nil_append,
      List.mem_cons, List.not_mem_nil, or_false, Prod.mk.injEq] at hmem
  case waitingForOnboardingRequest =>
    obtain ⟨rfl, rfl⟩ := hmem
    simp only [List.mem_cons, List.not_mem_nil, or_false] at htmem
    rcases htmem with rfl | rfl
    · exact .publish (by simpa [Guard.holds] using hcond)
    · exact .publishForApproval (by simpa [Guard.holds] using hcond)
  case waitingForApproval =>
    rcases hmem with ⟨rfl, rfl⟩ | ⟨rfl, rfl⟩ | ⟨rfl, rfl⟩ | ⟨rfl, rfl⟩ <;>
      obtain rfl := List.mem_singleton.mp htmem
    · exact .approved
    all_goals exact .refused (by simp)
  case creatingInstance =>
    rcases hmem with ⟨rfl, rfl⟩ | ⟨rfl, rfl⟩
    · simp only [List.mem_cons, List.not_mem_nil, or_false] at htmem
      rcases htmem with rfl | rfl
      · exact .created (by simpa [Guard.holds] using hcond)
      · exact .createdForType (by simpa [Guard.holds] using hcond)
    · obtain rfl := List.mem_singleton.mp htmem
      exact .failed
  case waitingForType =>
    rcases hmem with ⟨rfl, rfl⟩ | ⟨rfl, rfl⟩ | ⟨rfl, rfl⟩ | ⟨rfl, rfl⟩ <;>
      obtain rfl := List.mem_singleton.mp htmem
    · exact .responseType
    all_goals exact .noType (by simp)

theorem select_of_enabled (h : Enabled configuration v type w as) :
    ∃ t, select configuration v type = some t ∧ t.target = w ∧ t.actions = as := by
  obtain ⟨askForApproval, askForType⟩ := configuration
  cases h with
  | publish h => subst h; exact ⟨_, rfl, rfl, rfl⟩
  | publishForApproval h => subst h; exact ⟨_, rfl, rfl, rfl⟩
  | approved => exact ⟨_, rfl, rfl, rfl⟩
  | refused h =>
      simp only [List.mem_cons, List.not_mem_nil, or_false] at h
      rcases h with rfl | rfl | rfl <;> exact ⟨_, rfl, rfl, rfl⟩
  | created h => subst h; exact ⟨_, rfl, rfl, rfl⟩
  | createdForType h => subst h; exact ⟨_, rfl, rfl, rfl⟩
  | failed => exact ⟨_, rfl, rfl, rfl⟩
  | responseType => exact ⟨_, rfl, rfl, rfl⟩
  | noType h =>
      simp only [List.mem_cons, List.not_mem_nil, or_false] at h
      rcases h with rfl | rfl | rfl <;> exact ⟨_, rfl, rfl, rfl⟩

/-- The table read by `select` has exactly the transitions of `Enabled`. -/
theorem select_eq_some_iff :
    (∃ t, select configuration v type = some t ∧ t.target = w ∧ t.actions = as) ↔
      Enabled configuration v type w as := by
  constructor
  · rintro ⟨t, ht, rfl, rfl⟩
    exact enabled_of_select ht
  · exact select_of_enabled

theorem mem_stateValues (v : StateValue) : v ∈ stateValues := by
  cases v <;> decide

theorem mem_declaredEvents_of_select {t : Transition} (h : select configuration v type = some t) :
    type ∈ declaredEvents := by
  obtain ⟨ts, hts, -⟩ := Option.bind_eq_some_iff.mp h
  obtain ⟨l₁, l₂, hl, -⟩ := List.lookup_eq_some_iff.mp hts
  have hmem : (type, ts) ∈ (machineDescription v).transitions := by
    rw [hl]
    simp
  exact List.mem_flatMap.mpr ⟨v, mem_stateValues v, List.mem_map_of_mem (f := (·.1)) hmem⟩

/-- A conversation in a final state is closed: nothing is enabled there. -/
theorem Enabled.not_final (h : Enabled configuration v type w as) : v.isFinal = false := by
  cases h <;> rfl

/-- Only the two ways into `creatingInstance` are silent about it. -/
theorem Enabled.into_creatingInstance
    (h : Enabled configuration v type .creatingInstance as) :
    as = [] ∧
      (v = .waitingForOnboardingRequest ∧ configuration.askForApproval = false ∨
        v = .waitingForApproval ∧ type = "APPROVED_FROM_APPROVER") := by
  cases h with
  | publish h => exact ⟨rfl, .inl ⟨rfl, h⟩⟩
  | approved => exact ⟨rfl, .inr ⟨rfl, rfl⟩⟩

/-- The result of `createInstance` leaves `creatingInstance` and is answered. -/
theorem Enabled.out_of_creatingInstance
    (h : Enabled configuration .creatingInstance type w as) :
    w ≠ .creatingInstance ∧ as ≠ [] := by
  cases h <;> simp

/-! ### The actions -/

/-- The calls of `MyAasMessageDispatcher` that the actions make. Every one of
them gets the message of the context as its argument as well. -/
inductive Command
  | requestApprovalFromApprover
  | sendResponseInstanceToOperator (submodel : Option String)
  | requestTypeFromManufacturer
  | sendErrorToOperator
  | sendNotUnderstoodToOperator
  | sendRequestRefusedToOperator
  | sendResponseTypeToOperator
  deriving DecidableEq

/-- What an action leaves: the calls it made on the dispatcher, and whether it
threw after them. -/
structure ActionResult where
  commands : List Command
  threw : Bool

/-- The methods of `MySkillActionMap`. Indexing missing interaction elements and
reading the response of missing error data are the two ways in which they throw. -/
def Action.run (event : Event) (message : Message) : Action → ActionResult
  | .requestApprovalFromApprover => ⟨[.requestApprovalFromApprover], false⟩
  | .sendRequestRefusedToOperator => ⟨[.sendRequestRefusedToOperator], false⟩
  | .sendResponseInstanceToOperator =>
      match message.interactionElements with
      | none => ⟨[], true⟩
      | some es => ⟨[.sendResponseInstanceToOperator es.head?], false⟩
  | .sendResponseToOperatorAndRequestType =>
      match message.interactionElements with
      | none => ⟨[], true⟩
      | some es =>
          ⟨[.sendResponseInstanceToOperator es.head?, .requestTypeFromManufacturer], false⟩
  | .sendCreationErrorToOperator =>
      match event.data with
      | none => ⟨[], true⟩
      | some error =>
          match error.responseStatus with
          | none => ⟨[.sendErrorToOperator], false⟩
          | some 400 => ⟨[.sendNotUnderstoodToOperator], false⟩
          | some 401 => ⟨[.sendRequestRefusedToOperator], false⟩
          | some _ => ⟨[.sendErrorToOperator], false⟩
  | .sendResponseTypeToOperator => ⟨[.sendResponseTypeToOperator], false⟩

/-- The actions of a transition in order, up to the first that throws. -/
def runActions (event : Event) (message : Message) : List Action → ActionResult
  | [] => ⟨[], false⟩
  | a :: as =>
      let first := a.run event message
      if first.threw then first
      else
        let rest := runActions event message as
        ⟨first.commands ++ rest.commands, rest.threw⟩

@[simp] theorem runActions_singleton (event : Event) (message : Message) (a : Action) :
    runActions event message [a] = a.run event message := by
  cases h : a.run event message with
  | mk commands threw => cases threw <;> simp [runActions, h]

/-- An action that does not throw has something to say. -/
theorem Action.run_commands_ne_nil {event : Event} {message : Message} {a : Action}
    (h : (a.run event message).threw = false) : (a.run event message).commands ≠ [] := by
  cases a with
  | sendResponseInstanceToOperator =>
      cases hes : message.interactionElements <;> simp_all [Action.run]
  | sendResponseToOperatorAndRequestType =>
      cases hes : message.interactionElements <;> simp_all [Action.run]
  | sendCreationErrorToOperator =>
      revert h
      simp only [Action.run]
      split
      · simp
      · split <;> simp
  | _ => simp [Action.run]

theorem runActions_commands_ne_nil {event : Event} {message : Message}
    (h : (runActions event message as).threw = false) (has : as ≠ []) :
    (runActions event message as).commands ≠ [] := by
  cases as with
  | nil => exact absurd rfl has
  | cons a as =>
      simp only [runActions] at h ⊢
      by_cases ha : (a.run event message).threw
      · rw [if_pos ha, ha] at h
        cases h
      · rw [if_neg ha]
        have := Action.run_commands_ne_nil (by simpa using ha)
        simp [this]

end I40Aas.OnboardingSkill
