import Mathlib.Data.Fintype.Pi
import Mathlib.Data.Fintype.Order
import I40Aas.GrpcIngress.Consumer
import I40Aas.Lib.Fairness

/-!
That every call of the gRPC ingress comes back. `Publish` calls itself without a bound, so the
loop goes on only if the broker takes the message in the end; then the loop comes to every
interaction, and each call finds its status.
-/

namespace I40Aas.GrpcIngress

open I40Aas.Lib I40Aas.Interaction

section

variable {ι : Type} [DecidableEq ι]

/-- The ingress after the first labels of the schedule. -/
abbrev after (pb : Jsonpb) (exchange : String) (msgs : ι → InteractionMessage)
    (sched : ℕ → Label ι) (n : ℕ) : Ingress ι :=
  follow (step pb exchange) (.initial msgs) sched n

omit [DecidableEq ι] in
/-- Every interaction is offered to the loop again and again, and so does every call look at its
status. -/
structure Fair (sched : ℕ → Label ι) : Prop where
  offers : ∀ i n, ∃ m ≥ n, sched m = .take i
  polls : ∀ i n, ∃ m ≥ n, sched m = .poll i

/-- Every `Publish` comes to an attempt at which the broker takes the message. -/
def PublishReturns (pb : Jsonpb) (exchange : String) (msgs : ι → InteractionMessage)
    (sched : ℕ → Label ι) : Prop :=
  ∀ n i routingKey jsonMessage,
    (after pb exchange msgs sched n).consumer = .publishing i routingKey jsonMessage →
      ∃ m ≥ n, sched m = .attempt .taken

/-- What holds of the ingress while all is well. -/
structure Ingress.Fine (pb : Jsonpb) (exchange : String) (msgs : ι → InteractionMessage)
    (s : Ingress ι) : Prop where
  sound : s.Sound pb exchange
  served : Served pb exchange s
  msg : ∀ i, (s.interactions i).msg = msgs i

variable {pb : Jsonpb} {exchange : String} {msgs : ι → InteractionMessage} {s s' : Ingress ι}
  {l : Label ι} {i : ι} {taken : ι → Bool}

theorem Stepped.msg (h : Stepped pb exchange s l s') (j : ι) :
    (s'.interactions j).msg = (s.interactions j).msg := by
  cases h with
  | @publishes i _ _ _ =>
      by_cases hj : j = i
      · subst hj
        simp [Ingress.settle, Interaction.ack]
      · simp [Ingress.settle, Function.update_of_ne hj]
  | _ => rfl

theorem Ingress.Fine.step (hall : ∀ i, Publishable pb (msgs i)) (h : s.Fine pb exchange msgs)
    (hstep : Stepped pb exchange s l s') : s'.Fine pb exchange msgs where
  sound := h.sound.step hstep
  served := by
    refine h.served.step h.sound ?_ hstep
    cases l with
    | take i =>
        rw [TakesPublishable, h.msg]
        exact hall i
    | attempt _ => trivial
    | poll _ => trivial
  msg j := (hstep.msg j).trans (h.msg j)

/-! ### From one stage to the next -/

/-- The loop comes out of `Publish`. -/
theorem descends_of_publishing (hall : ∀ i, Publishable pb (msgs i)) :
    Descends (step pb exchange) (fun _ _ => True) (fun l => l = Label.attempt .taken)
      (fun s : Ingress ι => s.Fine pb exchange msgs ∧ s.taken = taken ∧
        ∃ i routingKey jsonMessage, s.consumer = .publishing i routingKey jsonMessage)
      (fun s => s.Fine pb exchange msgs ∧ s.taken = taken ∧ s.consumer = .ready)
      (fun _ => 0) := by
  rintro s l ⟨hfine, htaken, i, routingKey, jsonMessage, hpublishing⟩ -
  constructor
  · intro s' hstep
    have hfine' := hfine.step hall (stepped_of_step hstep)
    cases stepped_of_step hstep with
    | skips _ hready _ _ => cases hready.symm.trans hpublishing
    | panics _ hready _ _ => cases hready.symm.trans hpublishing
    | takes _ hready _ _ => cases hready.symm.trans hpublishing
    | retries outcome hne =>
        refine .inr ⟨⟨hfine', htaken, i, routingKey, jsonMessage, hpublishing⟩, Nat.le_refl _, ?_⟩
        intro heq
        exact absurd (Label.attempt.inj heq) hne
    | publishes _ => exact .inl ⟨hfine', htaken, rfl⟩
    | returns _ _ _ _ =>
        exact .inr ⟨⟨hfine', htaken, i, routingKey, jsonMessage, hpublishing⟩, Nat.le_refl _, nofun⟩
  · rintro hnone rfl
    simp [GrpcIngress.step, hpublishing, Attempt.returned] at hnone

/-- A loop that is ready takes another interaction while there is one. -/
theorem descends_of_ready (hall : ∀ i, Publishable pb (msgs i)) (hi : taken i = false) :
    Descends (step pb exchange) (fun _ _ => True) (fun l => l = Label.take i)
      (fun s : Ingress ι => s.Fine pb exchange msgs ∧ s.taken = taken ∧ s.consumer = .ready)
      (fun s => s.Fine pb exchange msgs ∧ taken < s.taken) (fun _ => 0) := by
  rintro s l ⟨hfine, rfl, hready⟩ -
  constructor
  · intro s' hstep
    have hfine' := hfine.step hall (stepped_of_step hstep)
    cases stepped_of_step hstep with
    | skips j _ hj _ => exact .inl ⟨hfine', lt_update_self_iff.mpr (by simp [hj])⟩
    | panics j _ hj _ => exact .inl ⟨hfine', lt_update_self_iff.mpr (by simp [hj])⟩
    | takes j _ hj _ => exact .inl ⟨hfine', lt_update_self_iff.mpr (by simp [hj])⟩
    | retries outcome _ => exact .inr ⟨⟨hfine', rfl, hready⟩, Nat.le_refl _, nofun⟩
    | publishes hpublishing => cases hready.symm.trans hpublishing
    | returns _ _ _ _ => exact .inr ⟨⟨hfine', rfl, hready⟩, Nat.le_refl _, nofun⟩
  · rintro hnone rfl
    simp [GrpcIngress.step, hready, hi] at hnone

/-- What the loop has come to an end with stays so. -/
theorem Stepped.not_open (h : Stepped pb exchange s l s') (hi : ¬ s.Open i) : ¬ s'.Open i := by
  have htaken : s.taken i ≠ false := fun hi' => hi (.inl hi')
  have hready : ∀ {taken' : ι → Bool} {consumer : Consumer ι}, taken' i ≠ false →
      (∀ routingKey jsonMessage, consumer ≠ .publishing i routingKey jsonMessage) →
      ¬ Ingress.Open { s with taken := taken', consumer := consumer } i := by
    rintro taken' consumer htaken' hconsumer (hopen | ⟨_, _, hopen⟩)
    · exact htaken' hopen
    · exact hconsumer _ _ hopen
  cases h with
  | skips j _ hj _ =>
      exact hready (by rwa [Function.update_of_ne (by rintro rfl; exact htaken hj)]) nofun
  | panics j _ hj _ =>
      exact hready (by rwa [Function.update_of_ne (by rintro rfl; exact htaken hj)]) nofun
  | takes j _ hj _ =>
      have hne : i ≠ j := by
        rintro rfl
        exact htaken hj
      refine hready (by rwa [Function.update_of_ne hne]) fun _ _ heq => ?_
      exact hne (Consumer.publishing.inj heq).1.symm
  | retries outcome _ => exact hi
  | publishes _ =>
      rintro (hopen | ⟨_, _, hopen⟩)
      · exact htaken hopen
      · cases hopen
  | returns _ _ _ _ => exact hi

/-- A call that waits for a status that is there comes back when it looks. -/
theorem descends_of_settled (hall : ∀ i, Publishable pb (msgs i)) :
    Descends (step pb exchange) (fun _ _ => True) (fun l => l = Label.poll i)
      (fun s : Ingress ι => s.Fine pb exchange msgs ∧ ¬ s.Open i ∧ s.returned i = none)
      (fun s => ∃ code, s.returned i = some code) (fun _ => 0) := by
  rintro s l ⟨hfine, hclosed, hwaits⟩ -
  obtain ⟨code, -, hreturns⟩ := hfine.served.poll_returns hclosed
  rcases hreturns with hreturned | ⟨s'', hpoll, hreturned⟩
  · cases hwaits.symm.trans hreturned
  · constructor
    · intro s' hstep
      by_cases hl : l = .poll i
      · subst hl
        obtain rfl := Option.some.inj (hpoll.symm.trans hstep)
        exact .inl ⟨code, hreturned⟩
      · have hstepped := stepped_of_step hstep
        cases hreturned' : s'.returned i with
        | some code => exact .inl ⟨code, hreturned'⟩
        | none =>
            exact .inr ⟨⟨hfine.step hall hstepped, hstepped.not_open hclosed, hreturned'⟩,
              Nat.le_refl _, fun heq => absurd heq hl⟩
    · rintro hnone rfl
      cases hpoll.symm.trans hnone

/-! ### Whole schedules -/

variable {sched : ℕ → Label ι}

theorem fine_initial (hall : ∀ i, Publishable pb (msgs i)) (n : ℕ) :
    (after pb exchange msgs sched n).Fine pb exchange msgs := by
  have hkept : ∀ s l s', s.Fine pb exchange msgs → True → step pb exchange s l = some s' →
      s'.Fine pb exchange msgs :=
    fun s l s' hfine _ hstep => hfine.step hall (stepped_of_step hstep)
  have hinitial : (Ingress.initial msgs).Fine pb exchange msgs :=
    ⟨sound_of_consumer_ne nofun, served_initial msgs, fun _ => rfl⟩
  exact follow_of_invariant hkept hinitial (fun _ => trivial) n

/-- The loop comes to be ready, and has taken nothing else by then. -/
theorem exists_ready (hall : ∀ i, Publishable pb (msgs i))
    (hreturns : PublishReturns pb exchange msgs sched) (n : ℕ) : ∃ m ≥ n,
      (after pb exchange msgs sched m).taken = (after pb exchange msgs sched n).taken ∧
        (after pb exchange msgs sched m).consumer = .ready := by
  have hfine : (after pb exchange msgs sched n).Fine pb exchange msgs := fine_initial hall n
  cases hconsumer : (after pb exchange msgs sched n).consumer with
  | ready => exact ⟨n, Nat.le_refl n, rfl, hconsumer⟩
  | panicked => exact absurd hconsumer hfine.served.running
  | publishing i routingKey jsonMessage =>
      obtain ⟨m, hm, -, htaken, hready⟩ := (descends_of_publishing hall).eventually
        (fun _ => trivial) (fun k hk => hreturns k _ _ _ hk.2.2.choose_spec.choose_spec.choose_spec)
        ⟨hfine, rfl, i, routingKey, jsonMessage, hconsumer⟩
      exact ⟨m, hm, htaken, hready⟩

/-- Each interaction is taken in the end: those that are not are ever fewer. -/
theorem exists_taken [Finite ι] (hfair : Fair sched) (hall : ∀ i, Publishable pb (msgs i))
    (hreturns : PublishReturns pb exchange msgs sched) (i : ι) (n : ℕ) :
    ∃ m ≥ n, (after pb exchange msgs sched m).taken i = true := by
  induction htaken : (after pb exchange msgs sched n).taken using WellFoundedGT.induction
    generalizing n with
  | ind taken ih =>
      cases hi : taken i with
      | true => exact ⟨n, Nat.le_refl n, by rw [htaken, hi]⟩
      | false =>
          obtain ⟨m, hm, hsame, hready⟩ := exists_ready hall hreturns n
          obtain ⟨m', hm', -, hmore⟩ := (descends_of_ready hall hi).eventually
            (fun _ => trivial) (fun k _ => hfair.offers i k)
            ⟨fine_initial hall m, hsame.trans htaken, hready⟩
          obtain ⟨m'', hm'', htaken'⟩ := ih _ hmore m' rfl
          exact ⟨m'', by omega, htaken'⟩

theorem exists_returned [Finite ι] (hfair : Fair sched) (hall : ∀ i, Publishable pb (msgs i))
    (hreturns : PublishReturns pb exchange msgs sched) (i : ι) :
    ∃ n code, (after pb exchange msgs sched n).returned i = some code := by
  obtain ⟨n, -, htaken⟩ := exists_taken hfair hall hreturns i 0
  obtain ⟨m, -, hsame, hready⟩ := exists_ready hall hreturns n
  have hclosed : ¬ (after pb exchange msgs sched m).Open i := by
    rw [Ingress.open_iff_of_ready hready, hsame, htaken]
    nofun
  cases hreturned : (after pb exchange msgs sched m).returned i with
  | some code => exact ⟨m, code, hreturned⟩
  | none =>
      obtain ⟨k, -, code, hcode⟩ := (descends_of_settled hall).eventually (fun _ => trivial)
        (fun k _ => hfair.polls i k) ⟨fine_initial hall m, hclosed, hreturned⟩
      exact ⟨k, code, hcode⟩

theorem Stepped.taken_cases (h : Stepped pb exchange s l s') (j : ι) :
    s'.taken j = s.taken j ∨ l = .take j := by
  cases h with
  | skips i _ _ _ | panics i _ _ _ | takes i _ _ _ =>
      by_cases hj : j = i
      · exact .inr (by rw [hj])
      · exact .inl (Function.update_of_ne hj _ _)
  | retries _ _ => exact .inl rfl
  | publishes _ => exact .inl rfl
  | returns _ _ _ _ => exact .inl rfl

theorem Stepped.returned (h : Stepped pb exchange s l s') {code : InteractionStatusCode}
    (hi : s.returned i = some code) : s'.returned i = some code := by
  cases h with
  | returns j _ hj _ =>
      have hne : i ≠ j := by
        rintro rfl
        cases hi.symm.trans hj
      exact (Function.update_of_ne hne _ _).trans hi
  | _ => exact hi

/-- What has been taken was one that can be published. -/
theorem publishable_of_taken (hserved : ∀ n, Served pb exchange (after pb exchange msgs sched n))
    (n : ℕ) : (∀ i, ((after pb exchange msgs sched n).interactions i).msg = msgs i) ∧
      ∀ i, (after pb exchange msgs sched n).taken i = true → Publishable pb (msgs i) := by
  refine follow_of_le (P := fun s : Ingress ι => (∀ i, (s.interactions i).msg = msgs i) ∧
    ∀ i, s.taken i = true → Publishable pb (msgs i)) (Nat.zero_le n) ?_ ⟨fun _ => rfl, nofun⟩
  rintro k - s' ⟨hmsg, htaken⟩ hstep
  have hstepped := stepped_of_step hstep
  have hserved' : Served pb exchange s' := by
    have hnext := hserved (k + 1)
    rwa [after, follow, hstep, Option.getD_some] at hnext
  have hok := takesPublishable_of_served (hserved k) hserved' hstepped
  refine ⟨fun j => (hstepped.msg j).trans (hmsg j), fun j hj => ?_⟩
  rcases hstepped.taken_cases j with hsame | hl
  · exact htaken j (hsame ▸ hj)
  · rw [hl, TakesPublishable, hmsg] at hok
    exact hok

/-- While a `Publish` does not return, its own call does not either. -/
theorem publishReturns_of_returned
    (hserved : ∀ n, Served pb exchange (after pb exchange msgs sched n))
    (hreturned : ∀ i, ∃ n code, (after pb exchange msgs sched n).returned i = some code) :
    PublishReturns pb exchange msgs sched := by
  intro n i routingKey jsonMessage hpublishing
  by_contra hnever
  obtain ⟨m, code, hm⟩ := hreturned i
  have hstays : (after pb exchange msgs sched (max n m)).consumer =
      .publishing i routingKey jsonMessage := by
    refine follow_of_le
      (P := fun s : Ingress ι => s.consumer = .publishing i routingKey jsonMessage)
      (Nat.le_max_left n m) (fun k hk s' hk' hstep => ?_) hpublishing
    generalize hl : sched k = l at hstep
    cases stepped_of_step hstep with
    | skips _ hready _ _ => cases hready.symm.trans hk'
    | panics _ hready _ _ => cases hready.symm.trans hk'
    | takes _ hready _ _ => cases hready.symm.trans hk'
    | retries _ _ => exact hk'
    | publishes _ => exact absurd ⟨k, hk, hl⟩ hnever
    | returns _ _ _ _ => exact hk'
  have hcode : (after pb exchange msgs sched (max n m)).returned i = some code :=
    follow_of_le (P := fun s : Ingress ι => s.returned i = some code) (Nat.le_max_right n m)
      (fun k _ s' hk' hstep => (stepped_of_step hstep).returned hk') hm
  exact ((hserved _).returned i code hcode).1 (.inr ⟨_, _, hstays⟩)

/-- In every run, complete or not, what has come of the calls is as promised exactly if every
message that is taken can be published. Every call comes back, and with what it is promised,
exactly if all messages can be published and the broker takes each of them in the end. -/
theorem served_iff [Finite ι] (pb : Jsonpb) (exchange : String) (msgs : ι → InteractionMessage) :
    (∀ ls, Along (step pb exchange) (Served pb exchange) (.initial msgs) ls ↔
      Guarded (step pb exchange) (TakesPublishable pb) (.initial msgs) ls) ∧
    ∀ sched, Fair sched →
      ((∀ n, Served pb exchange (after pb exchange msgs sched n)) ∧
          (∀ i, ∃ n code, (after pb exchange msgs sched n).returned i = some code) ↔
        (∀ i, Publishable pb (msgs i)) ∧ PublishReturns pb exchange msgs sched) := by
  refine ⟨along_served_iff pb exchange msgs, fun sched hfair => ⟨?_, ?_⟩⟩
  · rintro ⟨hserved, hreturned⟩
    refine ⟨fun i => ?_, publishReturns_of_returned hserved hreturned⟩
    obtain ⟨n, code, hn⟩ := hreturned i
    have hclosed := ((hserved n).returned i code hn).1
    refine (publishable_of_taken hserved n).2 i ?_
    by_contra htaken
    exact hclosed (.inl (Bool.eq_false_of_not_eq_true htaken))
  · rintro ⟨hall, hreturns⟩
    exact ⟨fun n => (fine_initial hall n).served, exists_returned hfair hall hreturns⟩

end

/-- A message without elements. -/
def withoutElements : InteractionMessage where
  frame := some {
    semanticProtocol := "i40"
    type := "call"
    messageId := ""
    replyBy := 0
    receiver := some { identification := none, role := some { name := "Operator" } }
    sender := none
    conversationId := "" }
  interactionElements := []

def withElement : InteractionMessage :=
  { withoutElements with interactionElements := goString "\x7b\x7d" }

/-- Two calls, and a broker that takes a message only at the third attempt. -/
def thirdAttempt (n : ℕ) : Label Bool :=
  match n % 7 with
  | 0 => .take false
  | 1 => .attempt (.refused (.errorf "channel/connection is not open"))
  | 2 => .attempt .connectionClosed
  | 3 => .attempt .taken
  | 4 => .take true
  | 5 => .poll false
  | _ => .poll true

theorem served_iff_thirdAttempt :
    (∀ n, Served .standard "i40" (after .standard "i40" (fun _ => withElement) thirdAttempt n)) ∧
      ∀ i, ∃ n code,
        (after .standard "i40" (fun _ => withElement) thirdAttempt n).returned i = some code := by
  have hturn : ∀ k < 7, ∀ n, ∃ m ≥ n, thirdAttempt m = thirdAttempt k := by
    intro k hk n
    refine ⟨7 * n + k, by omega, ?_⟩
    rw [thirdAttempt, thirdAttempt, Nat.mul_add_mod]
  have hfair : Fair thirdAttempt := by
    constructor
    · rintro (_ | _)
      · exact hturn 0 (by decide)
      · exact hturn 4 (by decide)
    · rintro (_ | _)
      · exact hturn 5 (by decide)
      · exact hturn 6 (by decide)
  have hpublishable : Publishable .standard withElement :=
    ⟨⟨_, rfl⟩, by decide, _, _, _, rfl, rfl, rfl⟩
  refine ((served_iff .standard "i40" fun _ => withElement).2 thirdAttempt hfair).mpr
    ⟨fun _ => hpublishable, fun n _ _ _ _ => ?_⟩
  exact hturn 3 (by decide) n

/-- It is taken, and its call waits for a status that nobody sets. -/
theorem not_served_withoutElements :
    ¬ ∀ (exchange : String) (msgs : Unit → InteractionMessage) (ls : List (Label Unit)),
      Along (step Jsonpb.standard exchange) (Served Jsonpb.standard exchange)
        (.initial msgs) ls := by
  intro h
  have hstep : ∃ s, step Jsonpb.standard "i40" (.initial fun _ : Unit => withoutElements)
      (.take ()) = some s ∧ s.consumer = .ready ∧ s.taken () = true ∧
      (s.interactions ()).statusSets = 0 :=
    ⟨_, rfl, rfl, rfl, rfl⟩
  obtain ⟨s, hs, hready, htaken, hsets⟩ := hstep
  have hserved := (h "i40" (fun _ => withoutElements) [.take ()]).2 s hs
  have hclosed : ¬ s.Open () := by
    rw [Ingress.open_iff_of_ready hready, htaken]
    simp
  rw [(hserved.settled () hclosed).1] at hsets
  cases hsets

end I40Aas.GrpcIngress
