import Mathlib.Data.List.ReduceOption
import I40Aas.Lib.JavaScript
import I40Aas.OnboardingSkill.Approval

/-!
The class `MessageInterpreter`: what `receive` does with a text from the broker. The two
validations look for what is missing and not at what type it has, so a type or a role name
that is not a string gets through to `toUpperCase`, outside of every `catch`.
-/

namespace I40Aas.OnboardingSkill.MessageInterpreter

open I40Aas.Lib I40Aas.Lib.Json I40Aas.Lib.JavaScript

/-- A call of the interpreter on the skill. -/
inductive SkillCall
  | receivedUnintelligibleMessage (message : Value)
  | preprocessingError (message : Value)
  | applyEvent (event : String) (conversationId : Option Value) (message : Value)

/-- The calls on the skill in their order, and whether `receive` has thrown after them. What
it logs is left out. -/
structure Received where
  calls : List SkillCall
  threw : Bool

/-- One call on the skill, unless one of its arguments throws. -/
def Received.ofCall : Option SkillCall → Received
  | none => ⟨[], true⟩
  | some call => ⟨[call], false⟩

section

variable (isZero : Literal → Bool)

/-- There is a sender id or a sender role. -/
def essentialDataGiven (data : Value) : Option Bool := do
  let frame ← getV (some data) "frame"
  let sender ← getV frame "sender"
  let identification ← getV sender "identification"
  let id ← if toBoolean isZero identification then getV identification "id" else some identification
  if toBoolean isZero id then return true
  let role ← getV sender "role"
  return toBoolean isZero role

def validateEssential (msg : List UInt8) : Option Value := do
  let data ← jsonParse msg
  if (← essentialDataGiven isZero data) then some data else none

/-- `[senderRole, messageType, conversationId]`. -/
def requiredData (data : Value) : Option (List (Option Value)) := do
  let frame ← getV (some data) "frame"
  let sender ← getV frame "sender"
  let role ← getV sender "role"
  let senderRole ← getV role "name"
  let messageType ← getV frame "type"
  let conversationId ← getV frame "conversationId"
  return [senderRole, messageType, conversationId]

/-- `e === undefined || e.length === 0`. -/
def isMissing (e : Option Value) : Option Bool :=
  if e.isNone then some true else lengthIsZero isZero e

/-- The ones that are missing. -/
def filterMissing : List (Option Value) → Option (List (Option Value))
  | [] => some []
  | e :: es => do
      let missing ← isMissing isZero e
      let rest ← filterMissing es
      return if missing then e :: rest else rest

def requiredAndMissingData (data : Value) : Option (List (Option Value)) :=
  (requiredData data).bind (filterMissing isZero)

/-- Converts the missing data for the log first. -/
def handleUnintelligibleMessage (message : Value) (missingData : List (Option Value)) :
    Option SkillCall :=
  if missingData.reduceOption.all convertible then some (.receivedUnintelligibleMessage message)
  else none

/-- `none`: nothing is missing. Else the reply, which is an error if anything has thrown. -/
def validateRequired (data : Value) : Option SkillCall :=
  match requiredAndMissingData isZero data with
  | none => some (.preprocessingError data)
  | some [] => none
  | some missingData =>
      some ((handleUnintelligibleMessage data missingData).getD (.preprocessingError data))

variable (toUpperCase : String → String)

/-- The method of a string. -/
def callToUpperCase : Option Value → Option String
  | some (.str s) => some (toUpperCase s)
  | _ => none

def applyEventCall (message : Value) : Option SkillCall := do
  let frame ← getV (some message) "frame"
  let type ← callToUpperCase toUpperCase (← getV frame "type")
  let role ← getV (← getV frame "sender") "role"
  let name ← callToUpperCase toUpperCase (← getV role "name")
  let conversationId ← getV frame "conversationId"
  return .applyEvent (type ++ "_FROM_" ++ name) conversationId message

def receive (msg : List UInt8) : Received :=
  match validateEssential isZero msg with
  | none => ⟨[], false⟩
  | some message =>
      match validateRequired isZero message with
      | some reply => ⟨[reply], false⟩
      | none => .ofCall (applyEventCall toUpperCase message)

end

/-- `receive` has returned, after nothing but logging, one reply, or one event with a name
and a conversation id made of texts that are not empty. -/
structure Received.Handled (toUpperCase : String → String) (r : Received) : Prop where
  returns : r.threw = false
  calls : r.calls = [] ∨
    (∃ message, r.calls = [.receivedUnintelligibleMessage message]) ∨
    (∃ message, r.calls = [.preprocessingError message]) ∨
    ∃ type role conversationId message, type ≠ "" ∧ role ≠ "" ∧ conversationId ≠ "" ∧
      r.calls = [.applyEvent (toUpperCase type ++ "_FROM_" ++ toUpperCase role)
        (some (.str conversationId)) message]

/-- Sender role, type and conversation id of a message are strings if the validations find
nothing missing. -/
def GivesStrings (isZero : Literal → Bool) (msg : List UInt8) : Prop :=
  ∀ message, validateEssential isZero msg = some message →
    requiredAndMissingData isZero message = some [] →
      ∃ role type conversationId,
        requiredData message = some [some (.str role), some (.str type), some (.str conversationId)]

section

variable {isZero : Literal → Bool} {toUpperCase : String → String} {message : Value}

theorem filterMissing_eq_nil_iff {es : List (Option Value)} :
    filterMissing isZero es = some [] ↔ ∀ e ∈ es, isMissing isZero e = some false := by
  induction es with
  | nil => simp [filterMissing]
  | cons e es ih =>
      simp only [filterMissing, List.forall_mem_cons, ← ih]
      cases isMissing isZero e with
      | none => simp
      | some missing =>
          cases filterMissing isZero es with
          | none => simp
          | some rest => cases missing <;> simp

/-- Without a reply nothing is missing. -/
theorem validateRequired_eq_none_iff :
    validateRequired isZero message = none ↔ requiredAndMissingData isZero message = some [] := by
  unfold validateRequired
  split
  · rename_i h
    simp [h]
  · rename_i h
    simp [h]
  · rename_i hne h
    simpa [h] using hne

theorem validateRequired_cases {reply : SkillCall}
    (h : validateRequired isZero message = some reply) :
    reply = .receivedUnintelligibleMessage message ∨ reply = .preprocessingError message := by
  unfold validateRequired at h
  split at h
  · exact .inr (Option.some.inj h).symm
  · cases h
  · obtain rfl := Option.some.inj h
    unfold handleUnintelligibleMessage
    split
    · exact .inl rfl
    · exact .inr rfl

/-- The event is made of the same three values that were validated. -/
theorem applyEventCall_eq {role type conversationId : Option Value}
    (h : requiredData message = some [role, type, conversationId]) :
    applyEventCall toUpperCase message =
      (callToUpperCase toUpperCase type).bind fun type =>
        (callToUpperCase toUpperCase role).map fun name =>
          .applyEvent (type ++ "_FROM_" ++ name) conversationId message := by
  simp only [requiredData, Option.bind_eq_bind, Option.bind_eq_some_iff, Option.pure_def,
    Option.some.injEq, List.cons.injEq] at h
  obtain ⟨frame, hframe, sender, hsender, senderRole, hrole, name, hname, type', htype,
    conversationId', hconversationId, rfl, rfl, rfl, -⟩ := h
  simp only [applyEventCall, hframe, hsender, hrole, hname, htype, hconversationId,
    Option.bind_eq_bind, Option.bind_some, Option.pure_def, Option.map_eq_bind]
  rfl

theorem exists_requiredData (h : requiredAndMissingData isZero message = some []) :
    ∃ role type conversationId, requiredData message = some [role, type, conversationId] := by
  obtain ⟨es, hes, -⟩ := Option.bind_eq_some_iff.mp h
  rw [hes]
  simp only [requiredData, Option.bind_eq_bind, Option.bind_eq_some_iff, Option.pure_def,
    Option.some.injEq] at hes
  obtain ⟨_, _, _, _, _, _, role, _, type, _, conversationId, _, rfl⟩ := hes
  exact ⟨role, type, conversationId, rfl⟩

theorem str_of_callToUpperCase {v : Option Value} {s : String}
    (h : callToUpperCase toUpperCase v = some s) : ∃ t, v = some (.str t) ∧ s = toUpperCase t := by
  unfold callToUpperCase at h
  split at h
  · exact ⟨_, rfl, (Option.some.inj h).symm⟩
  · cases h

/-- The call is the run of `applyEvent` that belongs to the message. -/
theorem applyEventCall_of_strings {m : Message}
    (h : requiredData message = some [some (.str m.senderRoleName), some (.str m.type),
      some (.str m.conversationId)]) :
    applyEventCall toUpperCase message =
      some (.applyEvent (eventName toUpperCase m) (some (.str m.conversationId)) message) :=
  applyEventCall_eq h

/-- What is called with is made of strings, or a method is missing. -/
theorem ofCall_handled {role type conversationId : Option Value}
    (hdata : requiredData message = some [role, type, conversationId])
    (h : (Received.ofCall (applyEventCall toUpperCase message)).Handled toUpperCase) :
    ∃ roleText typeText conversationText, role = some (.str roleText) ∧
      type = some (.str typeText) ∧ conversationId = some (.str conversationText) := by
  rw [applyEventCall_eq hdata] at h
  cases htype : callToUpperCase toUpperCase type with
  | none =>
      rw [htype] at h
      cases h.returns
  | some upper =>
      cases hrole : callToUpperCase toUpperCase role with
      | none =>
          rw [htype, hrole] at h
          cases h.returns
      | some name =>
          obtain ⟨typeText, rfl, -⟩ := str_of_callToUpperCase htype
          obtain ⟨roleText, rfl, -⟩ := str_of_callToUpperCase hrole
          rw [htype, hrole] at h
          rcases h.calls with hcalls | ⟨_, hcalls⟩ | ⟨_, hcalls⟩ |
            ⟨_, _, conversationText, _, -, -, -, hcalls⟩
          · cases hcalls
          · cases hcalls
          · cases hcalls
          · obtain ⟨hcall, -⟩ := List.cons.inj hcalls
            obtain ⟨-, rfl, -⟩ := SkillCall.applyEvent.inj hcall
            exact ⟨roleText, typeText, conversationText, rfl, rfl, rfl⟩

/-- A text from the broker is handled exactly if the sender role, the type and the
conversation id are strings once the validations let them through. -/
theorem handled_iff (isZero : Literal → Bool) (toUpperCase : String → String) (msg : List UInt8) :
    (receive isZero toUpperCase msg).Handled toUpperCase ↔ GivesStrings isZero msg := by
  unfold receive GivesStrings
  cases hessential : validateEssential isZero msg with
  | none => exact iff_of_true ⟨rfl, .inl rfl⟩ (fun _ h => nomatch h)
  | some message =>
      simp only [Option.some.injEq, forall_eq']
      cases hrequired : validateRequired isZero message with
      | some reply =>
          have hmissing : requiredAndMissingData isZero message ≠ some [] := by
            rw [Ne, ← validateRequired_eq_none_iff, hrequired]
            exact Option.some_ne_none _
          refine iff_of_true ⟨rfl, ?_⟩ fun h => absurd h hmissing
          rcases validateRequired_cases hrequired with rfl | rfl
          · exact .inr (.inl ⟨message, rfl⟩)
          · exact .inr (.inr (.inl ⟨message, rfl⟩))
      | none =>
          have hmissing := validateRequired_eq_none_iff.mp hrequired
          obtain ⟨role, type, conversationId, hdata⟩ := exists_requiredData hmissing
          constructor
          · intro h _
            obtain ⟨roleText, typeText, conversationText, rfl, rfl, rfl⟩ := ofCall_handled hdata h
            exact ⟨roleText, typeText, conversationText, hdata⟩
          · intro h
            obtain ⟨roleText, typeText, conversationText, hstrings⟩ := h hmissing
            have hgiven : ∀ s : String, some (.str s) ∈ [some (.str roleText), some (.str typeText),
                some (Json.str conversationText : Value)] → s ≠ "" := by
              rintro s hs rfl
              rw [requiredAndMissingData, hstrings, Option.bind_some,
                filterMissing_eq_nil_iff] at hmissing
              cases hmissing _ hs
            have hcall : applyEventCall toUpperCase message = _ :=
              applyEventCall_of_strings (m := ⟨typeText, roleText, conversationText, none⟩) hstrings
            rw [hcall]
            refine ⟨rfl, .inr (.inr (.inr ⟨typeText, roleText, conversationText, message, ?_, ?_,
              ?_, rfl⟩))⟩
            · exact hgiven _ (by simp)
            · exact hgiven _ (by simp)
            · exact hgiven _ (by simp)

end

/-! A message whose type is a truth value. -/

def messageOfType (type : Value) : Value :=
  .obj
    [("frame", .obj
      [("type", type), ("sender", .obj [("role", .obj [("name", .str "Operator")])]),
        ("conversationId", .str "conversation")])]

theorem not_handled_typeTrue :
    ¬ ∀ (isZero : Literal → Bool) (toUpperCase : String → String) (msg : List UInt8),
      (receive isZero toUpperCase msg).Handled toUpperCase := by
  intro h
  let msg := Utf8.bytes (messageOfType (.bool true)).text
  have hmessage : jsonParse msg = some (messageOfType (.bool true)) := read_text _
  have hreceive : receive (fun _ => false) id msg = ⟨[], true⟩ := by
    rw [receive, validateEssential, hmessage]
    rfl
  have hreturns := (h (fun _ => false) id msg).returns
  rw [hreceive] at hreturns
  cases hreturns

end I40Aas.OnboardingSkill.MessageInterpreter
