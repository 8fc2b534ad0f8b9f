import I40Aas.Lib.Execution

/-!
A client of a server that others use, too. What the client sends and what the server answers
is in flight for any time and arrives in any order. An invariant of the whole has a part for
each place, and what it says of the client, of a request or of an answer stays true while the
server goes on without them.
-/

namespace I40Aas.Lib

/-- The calls of the others, what the server makes of a request under circumstances `θ`, and
what an event and an answer make of the client. -/
structure ClientServer (σ κ θ π ε ρ α : Type*) where
  call : σ → κ → σ
  handle : θ → σ → ρ → σ × α
  event : π → ε → Option (π × List ρ)
  receive : π → α → π × List ρ

namespace ClientServer

structure State (σ π ρ α : Type*) where
  server : σ
  client : π
  requests : List ρ
  answers : List α

inductive Label (κ θ ε : Type*)
  | call (k : κ)
  | handle (t : θ) (i : ℕ)
  | event (e : ε)
  | receive (i : ℕ)

/-- What an invariant says of each place, where the server is as it is now. -/
structure Invariant (σ π ρ α : Type*) where
  server : σ → Prop
  client : σ → π → Prop
  request : σ → ρ → Prop
  answer : σ → α → Prop

variable {σ κ θ π ε ρ α : Type*}

/-- A request that is handled and an answer that is received are any of those in flight. -/
def step (m : ClientServer σ κ θ π ε ρ α) (s : State σ π ρ α) :
    Label κ θ ε → Option (State σ π ρ α)
  | .call k => some { s with server := m.call s.server k }
  | .handle t i => s.requests[i]?.map fun request =>
      let next := m.handle t s.server request
      { s with
        server := next.1
        requests := s.requests.eraseIdx i
        answers := s.answers ++ [next.2] }
  | .event e => (m.event s.client e).map fun next =>
      { s with client := next.1, requests := s.requests ++ next.2 }
  | .receive i => s.answers[i]?.map fun answer =>
      let next := m.receive s.client answer
      { s with
        client := next.1
        requests := s.requests ++ next.2
        answers := s.answers.eraseIdx i }

structure Invariant.Holds (I : Invariant σ π ρ α) (s : State σ π ρ α) : Prop where
  server : I.server s.server
  client : I.client s.server s.client
  requests : ∀ request ∈ s.requests, I.request s.server request
  answers : ∀ answer ∈ s.answers, I.answer s.server answer

/-- The server goes on, and nothing is lost. -/
structure Invariant.Stays (I : Invariant σ π ρ α) (now later : σ) : Prop where
  server : I.server later
  client : ∀ client, I.client now client → I.client later client
  request : ∀ request, I.request now request → I.request later request
  answer : ∀ answer, I.answer now answer → I.answer later answer

/-- Every part keeps the invariant, the others with the calls that meet `okCall` and the
client with the events that meet `okEvent`. -/
structure Keeps (m : ClientServer σ κ θ π ε ρ α) (I : Invariant σ π ρ α) (okCall : κ → Prop)
    (okEvent : π → ε → Prop) : Prop where
  call : ∀ server k, okCall k → I.server server → I.Stays server (m.call server k)
  handle : ∀ t server request, I.server server → I.request server request →
    I.Stays server (m.handle t server request).1 ∧
      I.answer (m.handle t server request).1 (m.handle t server request).2
  event : ∀ server client e next, I.client server client → okEvent client e →
    m.event client e = some next →
      I.client server next.1 ∧ ∀ request ∈ next.2, I.request server request
  receive : ∀ server client answer, I.client server client → I.answer server answer →
    I.client server (m.receive client answer).1 ∧
      ∀ request ∈ (m.receive client answer).2, I.request server request

/-- The condition on the events, as one on the labels. -/
def Meets (okEvent : π → ε → Prop) (s : State σ π ρ α) : Label κ θ ε → Prop
  | .event e => okEvent s.client e
  | _ => True

instance (okEvent : π → ε → Prop) [∀ client e, Decidable (okEvent client e)]
    (s : State σ π ρ α) (l : Label κ θ ε) : Decidable (Meets okEvent s l) :=
  match l with
  | .call _ | .handle _ _ | .receive _ => .isTrue trivial
  | .event e => inferInstanceAs (Decidable (okEvent s.client e))

section

variable {m : ClientServer σ κ θ π ε ρ α} {I : Invariant σ π ρ α} {okCall : κ → Prop}
  {okEvent : π → ε → Prop} {s s' : State σ π ρ α}

theorem Invariant.Holds.stays (h : I.Holds s) {server : σ} (hstays : I.Stays s.server server) :
    I.Holds { s with server := server } where
  server := hstays.server
  client := hstays.client _ h.client
  requests request hrequest := hstays.request request (h.requests request hrequest)
  answers answer hanswer := hstays.answer answer (h.answers answer hanswer)

/-- What is sent joins the requests. -/
theorem Invariant.Holds.sends (h : I.Holds s) {client : π} {sent : List ρ}
    (hclient : I.client s.server client) (hsent : ∀ request ∈ sent, I.request s.server request) :
    I.Holds { s with client := client, requests := s.requests ++ sent } where
  server := h.server
  client := hclient
  requests request hrequest := by
    rcases List.mem_append.mp hrequest with hold | hnew
    · exact h.requests request hold
    · exact hsent request hnew
  answers := h.answers

theorem Invariant.Holds.step (h : I.Holds s) (hkeeps : m.Keeps I okCall okEvent) {l : Label κ θ ε}
    (hcall : ∀ k, l = .call k → okCall k) (hevent : Meets okEvent s l)
    (hstep : m.step s l = some s') : I.Holds s' := by
  cases l with
  | call k =>
      obtain rfl := Option.some.inj hstep
      exact h.stays (hkeeps.call s.server k (hcall k rfl) h.server)
  | handle t i =>
      obtain ⟨request, hrequest, rfl⟩ := Option.map_eq_some_iff.mp hstep
      obtain ⟨hstays, hanswer⟩ := hkeeps.handle t s.server request h.server
        (h.requests request (List.mem_of_getElem? hrequest))
      have hnext := h.stays hstays
      refine ⟨hnext.server, hnext.client, ?_, ?_⟩
      · intro other hother
        exact hnext.requests other (List.mem_of_mem_eraseIdx hother)
      · intro answer hmem
        rcases List.mem_append.mp hmem with hold | hnew
        · exact hnext.answers answer hold
        · rw [List.mem_singleton.mp hnew]
          exact hanswer
  | event e =>
      obtain ⟨next, hnext, rfl⟩ := Option.map_eq_some_iff.mp hstep
      obtain ⟨hclient, hsent⟩ := hkeeps.event s.server s.client e next h.client hevent hnext
      exact h.sends hclient hsent
  | receive i =>
      obtain ⟨answer, hanswer, rfl⟩ := Option.map_eq_some_iff.mp hstep
      obtain ⟨hclient, hsent⟩ := hkeeps.receive s.server s.client answer h.client
        (h.answers answer (List.mem_of_getElem? hanswer))
      have hnext := h.sends hclient hsent
      refine ⟨hnext.server, hnext.client, hnext.requests, ?_⟩
      intro other hother
      exact hnext.answers other (List.mem_of_mem_eraseIdx hother)

/-- The rule for a run: the calls are those of the schedule, and the events are judged in
the states they happen in. -/
theorem Invariant.Holds.exec {ls : List (Label κ θ ε)} (h : I.Holds s)
    (hkeeps : m.Keeps I okCall okEvent) (hcalls : ∀ k, Label.call k ∈ ls → okCall k)
    (hevents : Guarded m.step (Meets okEvent) s ls) (hexec : exec m.step s ls = some s') :
    I.Holds s' := by
  induction ls generalizing s with
  | nil =>
      obtain rfl : s = s' := by simpa [Lib.exec] using hexec
      exact h
  | cons l ls ih =>
      simp only [Lib.exec, Option.bind_eq_some_iff] at hexec
      obtain ⟨t, ht, hexec⟩ := hexec
      obtain ⟨hmeets, htail⟩ := hevents t ht
      have hnext : I.Holds t := by
        refine h.step hkeeps (fun k hk => ?_) hmeets ht
        exact hcalls k (hk ▸ List.mem_cons_self)
      exact ih hnext (fun k hk => hcalls k (List.mem_cons_of_mem l hk)) htail hexec

end

end ClientServer

end I40Aas.Lib
