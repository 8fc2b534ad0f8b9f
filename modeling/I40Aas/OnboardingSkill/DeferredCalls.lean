import I40Aas.Lib.Execution
import I40Aas.OnboardingSkill.DeferredWrapper

/-!
The object that `MessageDispatcherDeferredWrapper.wrap` builds by reflection over a
dispatcher, and the runs of calls and commits on it. What a method does is left open: it
takes its arguments and the rest of the program's state, and may throw.
-/

namespace I40Aas.OnboardingSkill.Deferred

open I40Aas.Lib

variable {σ α : Type*}

inductive Property (σ α : Type*)
  | function (apply : List α → σ → σ × Bool)
  | value

/-- An object: its own properties and those of its prototypes, the nearest first. -/
structure MessageDispatcher (σ α : Type*) where
  prototypeChain : List (List (String × Property σ α))
  nodup : ∀ properties ∈ prototypeChain, (properties.map Prod.fst).Nodup

/-- `obj[item]`. -/
def MessageDispatcher.get (obj : MessageDispatcher σ α) (item : String) :
    Option (Property σ α) :=
  obj.prototypeChain.findSome? fun properties => properties.lookup item

/-- `typeof obj[item] === 'function'`. -/
def MessageDispatcher.isFunction (obj : MessageDispatcher σ α) (item : String) : Bool :=
  match obj.get item with
  | some (.function _) => true
  | _ => false

/-- `Utils.getMethods`. -/
def getMethods (obj : MessageDispatcher σ α) : List String :=
  -- a set of names: each counts where it is found first
  let properties := (obj.prototypeChain.flatMap fun own => own.map Prod.fst).eraseDups
  properties.filter obj.isFunction

/-- The members that `wrap` sets on `retVal`. -/
inductive Member
  | commandCollector
  | deferred (methodName : String)
  | interpret
  | commit
  deriving DecidableEq

/-- `retVal[name] = member`. -/
def setMember (retVal : String → Option Member) (name : String) (member : Member) :
    String → Option Member :=
  Function.update retVal name (some member)

def setMethods (retVal : String → Option Member) (x : List String) : String → Option Member :=
  x.foldl (fun retVal methodName => setMember retVal methodName (.deferred methodName)) retVal

/-- `MessageDispatcherDeferredWrapper.wrap`. A later member replaces an earlier one of its
name. -/
def wrap (messageDispatcher : MessageDispatcher σ α) : String → Option Member :=
  let retVal := setMember (fun _ => none) "commandCollector" .commandCollector
  let retVal := setMethods retVal (getMethods messageDispatcher)
  -- set last, so a method with one of these names is not wrapped
  let retVal := setMember retVal "interpret" .interpret
  setMember retVal "commit" .commit

/-- A command: what the function `fn` of it has captured. -/
structure ICommand (α : Type*) where
  methodName : String
  args : List α

/-- The state of a run on the wrapped dispatcher. The log holds the calls that have been
made on the plain dispatcher, each with whether it threw. -/
structure State (σ α : Type*) where
  commandCollector : List (ICommand α)
  world : σ
  log : List (ICommand α × Bool)
  /-- whether the last call on the wrapped dispatcher threw -/
  threw : Bool

def State.performed (s : State σ α) : List (ICommand α) := s.log.map Prod.fst

/-- What the caller of the wrapped dispatcher does. -/
inductive Event (α : Type*)
  | call (methodName : String) (args : List α)
  | commit

section

variable (messageDispatcher : MessageDispatcher σ α) (stringify : List α → Option String)

/-- `messageDispatcher[methodName].apply(messageDispatcher, args)`. -/
def apply (c : ICommand α) (world : σ) : Option (σ × Bool) :=
  match messageDispatcher.get c.methodName with
  | some (.function apply) => some (apply c.args world)
  | _ => none

/-- `command.fn()`, and whether it throws. The arguments are printed before the call, which
throws for what `JSON.stringify` does not take. -/
def fn (s : State σ α) (c : ICommand α) : State σ α × Bool :=
  match stringify c.args with
  | none => (s, true)
  | some _ =>
      match apply messageDispatcher c s.world with
      | none => (s, true)
      | some (world, threw) => ({ s with world, log := s.log ++ [(c, threw)] }, threw)

/-- The loop of `retVal.commit`. A command is taken out of the collector before it is
interpreted. -/
def commitLoop (s : State σ α) : List (ICommand α) → State σ α
  | [] => { s with commandCollector := [], threw := false }
  | c :: cs =>
      let (s, threw) := fn messageDispatcher stringify { s with commandCollector := cs } c
      if threw then { s with threw := true } else commitLoop s cs

/-- One call on the wrapped dispatcher. Calls of what is not a wrapped method are left
out. -/
def step (s : State σ α) : Event α → Option (State σ α)
  | .call methodName args =>
      match wrap messageDispatcher methodName, wrap messageDispatcher "commandCollector" with
      | some (.deferred methodName), some .commandCollector =>
          some { s with
            commandCollector := s.commandCollector ++ [⟨methodName, args⟩]
            threw := false }
      | _, _ => none
  | .commit =>
      match wrap messageDispatcher "commit", wrap messageDispatcher "interpret",
        wrap messageDispatcher "commandCollector" with
      | some .commit, some .interpret, some .commandCollector =>
          some (commitLoop messageDispatcher stringify s s.commandCollector)
      | _, _, _ => none

end

/-- The state when `wrap` has returned. -/
def State.initial (world : σ) : State σ α := ⟨[], world, [], false⟩

section Wrap

/-! Reflection: which member the wrapped dispatcher has under a name. -/

variable {messageDispatcher : MessageDispatcher σ α}

theorem setMethods_apply (retVal : String → Option Member) (x : List String) (name : String) :
    setMethods retVal x name = if name ∈ x then some (.deferred name) else retVal name := by
  induction x generalizing retVal with
  | nil => simp [setMethods]
  | cons methodName x ih =>
      have hcons : setMethods retVal (methodName :: x) =
          setMethods (setMember retVal methodName (.deferred methodName)) x := rfl
      rw [hcons, ih]
      by_cases hx : name ∈ x
      · simp [hx]
      · by_cases hname : name = methodName
        · subst hname
          simp [hx, setMember]
        · simp [hx, hname, setMember]

/-- A name other than those of the two functions that are set last. -/
theorem wrap_of_ne {name : String} (hinterpret : name ≠ "interpret") (hcommit : name ≠ "commit") :
    wrap messageDispatcher name =
      if name ∈ getMethods messageDispatcher then some (.deferred name)
      else setMember (fun _ => none) "commandCollector" .commandCollector name := by
  rw [wrap, setMember, Function.update_of_ne hcommit, setMember,
    Function.update_of_ne hinterpret, setMethods_apply]

theorem wrap_commandCollector (h : "commandCollector" ∉ getMethods messageDispatcher) :
    wrap messageDispatcher "commandCollector" = some .commandCollector := by
  rw [wrap_of_ne (by decide) (by decide), if_neg h, setMember, Function.update_self]

end Wrap

section Commit

variable {messageDispatcher : MessageDispatcher σ α} {stringify : List α → Option String}
  {s s' : State σ α} {c : ICommand α} {cs : List (ICommand α)}

/-- What a commit does to the queue and the log: it makes all the queued calls, or those
up to the first that throws. -/
def Commits (s s' : State σ α) : Prop :=
  (s'.threw = false ∧ s'.log = s.log ++ s.commandCollector.map (·, false) ∧
    s'.commandCollector = []) ∨
  (s'.threw = true ∧ ∃ done c rest, s.commandCollector = done ++ c :: rest ∧
    s'.log = s.log ++ done.map (·, false) ++ [(c, true)] ∧ s'.commandCollector = rest)

/-- The commit of the skill's runs is this one: with the queued calls numbered, which of
them throw decides what is made and what is left. -/
theorem Commits.exists_commit (h : Commits s s') :
    ∃ throws, let result := commit throws s.commandCollector.zipIdx
      s'.performed = s.performed ++ result.performed.map Prod.fst ∧
      s'.commandCollector = result.left.map Prod.fst ∧ s'.threw = result.threw := by
  rcases h with ⟨hthrew, hlog, hleft⟩ | ⟨hthrew, done, c, rest, hqueue, hlog, hleft⟩
  · refine ⟨fun _ => false, ?_⟩
    rw [commit_of_forall_not_throws fun _ _ => rfl]
    refine ⟨?_, hleft, hthrew⟩
    simp [State.performed, hlog, Function.comp_def]
  · -- the call that throws has the number of those made before it
    refine ⟨fun d => d.2 == done.length, ?_⟩
    have hdone : ∀ d ∈ done.zipIdx, (d.2 == done.length) = false := by
      intro d hd
      have hlt : d.2 < done.length := by simpa using List.snd_lt_of_mem_zipIdx hd
      exact beq_false_of_ne (Nat.ne_of_lt hlt)
    have hsplit : s.commandCollector.zipIdx =
        done.zipIdx ++ (c, done.length) :: rest.zipIdx (done.length + 1) := by
      rw [hqueue, List.zipIdx_append, List.zipIdx_cons, Nat.zero_add]
    rw [hsplit, commit_append_cons hdone (beq_self_eq_true _)]
    refine ⟨?_, ?_, hthrew⟩
    · simp [State.performed, hlog, Function.comp_def]
    · simp [hleft]

end Commit

section Runs

variable {messageDispatcher : MessageDispatcher σ α} {stringify : List α → Option String}
  {s s' : State σ α} {world : σ} {events : List (Event α)}

/-- The same calls made directly on the plain dispatcher, each whatever became of those
before it: the program's state after them, and which of them threw. -/
def direct (messageDispatcher : MessageDispatcher σ α) (world : σ) (cs : List (ICommand α)) :
    Option (σ × List (ICommand α × Bool)) :=
  cs.foldlM (fun acc c => (apply messageDispatcher c acc.1).map fun result =>
    (result.1, acc.2 ++ [(c, result.2)])) (world, [])

/-- The calls that have been made are those of a caller of the plain dispatcher. -/
def Replays (messageDispatcher : MessageDispatcher σ α) (world : σ) (s : State σ α) : Prop :=
  direct messageDispatcher world s.performed = some (s.world, s.log)

theorem Replays.call (h : Replays messageDispatcher world s) {c : ICommand α} {world' : σ}
    {threw : Bool} (happly : apply messageDispatcher c s.world = some (world', threw)) :
    Replays messageDispatcher world { s with world := world', log := s.log ++ [(c, threw)] } := by
  have hlast : State.performed { s with world := world', log := s.log ++ [(c, threw)] } =
      s.performed ++ [c] := by simp [State.performed]
  rw [Replays, direct] at h
  rw [Replays, direct, hlast, List.foldlM_append, h]
  simp [happly]

/-- The calls of wrapped methods among the events. -/
def calls : List (Event α) → List (ICommand α)
  | [] => []
  | .call methodName args :: events => ⟨methodName, args⟩ :: calls events
  | .commit :: events => calls events

/-- The dispatcher has no method under one of the names that the wrapper uses itself. -/
def NamesFree (messageDispatcher : MessageDispatcher σ α) : Prop :=
  ∀ name ∈ getMethods messageDispatcher,
    name ≠ "commandCollector" ∧ name ≠ "interpret" ∧ name ≠ "commit"

theorem NamesFree.commandCollector (h : NamesFree messageDispatcher) :
    wrap messageDispatcher "commandCollector" = some .commandCollector :=
  wrap_commandCollector fun hmem => (h _ hmem).1 rfl

end Runs

end I40Aas.OnboardingSkill.Deferred
