import I40Aas.Lib.Execution

/-!
What has happened by the end of a schedule. `Once` says that the schedule leads through a
state with a property, `Then` that it does so for two properties in this order. What holds
in the end and did not hold in the beginning was brought about by some step, so a fact about
the steps that can bring it about is a fact about the past of the state. What a part
of a machine goes through by itself, it goes through in the machine.
-/

namespace I40Aas.Lib

variable {σ ℓ : Type*} {step : σ → ℓ → Option σ} {I P P' Q : σ → Prop}

/-- The schedule leads through a state with `P`. -/
def Once (step : σ → ℓ → Option σ) (P : σ → Prop) (s : σ) (ls : List ℓ) : Prop :=
  ∃ before after t, ls = before ++ after ∧ exec step s before = some t ∧ P t

/-- The schedule leads through a state with `P`, and then or later through one with `Q`. -/
def Then (step : σ → ℓ → Option σ) (P Q : σ → Prop) (s : σ) (ls : List ℓ) : Prop :=
  ∃ before after t, ls = before ++ after ∧ exec step s before = some t ∧ Q t ∧
    Once step P s before

theorem Once.mono {s : σ} {ls : List ℓ} (h : Once step P s ls) (hP : ∀ t, P t → P' t) :
    Once step P' s ls := by
  obtain ⟨before, after, t, rfl, hexec, ht⟩ := h
  exact ⟨before, after, t, rfl, hexec, hP t ht⟩

theorem Once.cons {s s' : σ} {l : ℓ} {ls : List ℓ} (hstep : step s l = some s')
    (h : Once step P s' ls) : Once step P s (l :: ls) := by
  obtain ⟨before, after, t, rfl, hexec, ht⟩ := h
  refine ⟨l :: before, after, t, rfl, ?_, ht⟩
  rw [exec, hstep]
  exact hexec

theorem Then.mono {s : σ} {ls : List ℓ} (h : Then step P Q s ls) {Q' : σ → Prop}
    (hP : ∀ t, P t → P' t) (hQ : ∀ t, Q t → Q' t) : Then step P' Q' s ls := by
  obtain ⟨before, after, t, rfl, hexec, ht, honce⟩ := h
  exact ⟨before, after, t, rfl, hexec, hQ t ht, honce.mono hP⟩

/-- What holds in the end and not in the beginning was brought about. -/
theorem once_of_becomes (hI : ∀ s l s', I s → step s l = some s' → I s')
    (hstep : ∀ s l s', I s → step s l = some s' → ¬ Q s → Q s' → P s') {s t : σ}
    {ls : List ℓ} (hs : I s) (hQ : ¬ Q s) (hexec : exec step s ls = some t) (ht : Q t) :
    Once step P s ls := by
  induction ls generalizing s with
  | nil =>
      obtain rfl : s = t := by simpa [exec] using hexec
      exact absurd ht hQ
  | cons l ls ih =>
      simp only [exec, Option.bind_eq_some_iff] at hexec
      obtain ⟨s', hs', hexec⟩ := hexec
      by_cases hQ' : Q s'
      · refine ⟨[l], ls, s', rfl, ?_, hstep s l s' hs hs' hQ hQ'⟩
        rw [exec, hs']
        rfl
      · exact (ih (hI s l s' hs hs') hQ' hexec).cons hs'

/-- Where the second property never holds without the first one before it. -/
theorem Once.then {s : σ} {ls : List ℓ} (h : Once step Q s ls)
    (hbefore : ∀ ls t, exec step s ls = some t → Q t → Once step P s ls) :
    Then step P Q s ls := by
  obtain ⟨before, after, t, rfl, hexec, ht⟩ := h
  exact ⟨before, after, t, rfl, hexec, ht, hbefore before t hexec ht⟩

/-- A step that needs something lost which no step regains is not taken where it still holds in
the end. -/
theorem notMem_of_exec_eq (hI : ∀ s l s', I s → step s l = some s' → I s')
    (hback : ∀ s l s', I s → step s l = some s' → P s' → P s) {l : ℓ}
    (hstep : ∀ s s', I s → step s l = some s' → ¬ P s) {s t : σ} {ls : List ℓ} (hs : I s)
    (hexec : exec step s ls = some t) (ht : P t) : P s ∧ l ∉ ls := by
  induction ls generalizing s with
  | nil =>
      obtain rfl : s = t := by simpa [exec] using hexec
      exact ⟨ht, List.not_mem_nil⟩
  | cons l' ls ih =>
      simp only [exec, Option.bind_eq_some_iff] at hexec
      obtain ⟨s', hs', hexec⟩ := hexec
      obtain ⟨hP, hmem⟩ := ih (hI s l' s' hs hs') hexec
      refine ⟨hback s l' s' hs hs' hP, ?_⟩
      rw [List.mem_cons, not_or]
      refine ⟨?_, hmem⟩
      rintro rfl
      exact hstep s s' hs hs' (hback s l s' hs hs' hP)

/-- A condition on the labels of a schedule. -/
theorem guarded_of_mem {ok : σ → ℓ → Prop} {s : σ} {ls : List ℓ} (h : ∀ l ∈ ls, ∀ s, ok s l) :
    Guarded step ok s ls := by
  induction ls generalizing s with
  | nil => trivial
  | cons l ls ih =>
      exact fun s' _ => ⟨h l List.mem_cons_self s, ih fun l hl => h l (List.mem_cons_of_mem _ hl)⟩

/-- A condition on the steps of a schedule is one on its parts. -/
theorem Guarded.of_append {ok : σ → ℓ → Prop} {s t : σ} {ls₁ ls₂ : List ℓ}
    (h : Guarded step ok s (ls₁ ++ ls₂)) (hexec : exec step s ls₁ = some t) :
    Guarded step ok s ls₁ ∧ Guarded step ok t ls₂ := by
  induction ls₁ generalizing s with
  | nil =>
      obtain rfl : s = t := by simpa [exec] using hexec
      exact ⟨trivial, h⟩
  | cons l ls₁ ih =>
      simp only [exec, Option.bind_eq_some_iff] at hexec
      obtain ⟨s', hs', hexec⟩ := hexec
      obtain ⟨hok, hrest⟩ := h s' hs'
      obtain ⟨hfirst, hsecond⟩ := ih hrest hexec
      refine ⟨fun s'' hs'' => ?_, hsecond⟩
      obtain rfl := Option.some.inj (hs'.symm.trans hs'')
      exact ⟨hok, hfirst⟩

/-- What the steps that meet a condition keep is kept from a part of a schedule to a later
one. -/
theorem exec_keeps {ok : σ → ℓ → Prop}
    (hstep : ∀ s l s', I s → ok s l → step s l = some s' → I s') {s t u : σ}
    {before after : List ℓ} (hbefore : exec step s before = some t)
    (hguarded : Guarded step ok s (before ++ after)) (ht : I t)
    (hafter : exec step t after = some u) : I u :=
  (along_of_guarded hstep ht (hguarded.of_append hbefore).2).exec_eq hafter

/-! ### A part of a machine -/

section Part

variable {τ m : Type*} {stepPart : τ → m → Option τ} {part : σ → τ} {label : ℓ → Option m}
  {R S : τ → Prop}

/-- The machine does to its part what the part does by itself. -/
def HasPart (step : σ → ℓ → Option σ) (stepPart : τ → m → Option τ) (part : σ → τ)
    (label : ℓ → Option m) : Prop :=
  ∀ s l s', step s l = some s' → match label l with
    | none => part s' = part s
    | some a => stepPart (part s) a = some (part s')

theorem HasPart.exec (h : HasPart step stepPart part label) {s t : σ} {ls : List ℓ}
    (hexec : exec step s ls = some t) :
    Lib.exec stepPart (part s) (ls.filterMap label) = some (part t) := by
  induction ls generalizing s with
  | nil =>
      obtain rfl : s = t := by simpa [Lib.exec] using hexec
      rfl
  | cons l ls ih =>
      simp only [Lib.exec, Option.bind_eq_some_iff] at hexec
      obtain ⟨s', hs', hexec⟩ := hexec
      have hpart := h s l s' hs'
      cases hlabel : label l with
      | none =>
          rw [hlabel] at hpart
          rw [List.filterMap_cons_none hlabel, ← hpart]
          exact ih hexec
      | some a =>
          rw [hlabel] at hpart
          rw [List.filterMap_cons_some hlabel, Lib.exec, hpart]
          exact ih hexec

/-- What has happened to the part has happened in the machine. -/
theorem HasPart.once (h : HasPart step stepPart part label) {s t : σ} {ls : List ℓ}
    (hexec : Lib.exec step s ls = some t) (honce : Once stepPart R (part s) (ls.filterMap label)) :
    Once step (fun t => R (part t)) s ls := by
  obtain ⟨before, after, u, hls, hu, hR⟩ := honce
  obtain ⟨ls₁, ls₂, rfl, rfl, -⟩ := List.filterMap_eq_append_iff.mp hls
  rw [exec_append] at hexec
  obtain ⟨s₁, hs₁, -⟩ := Option.bind_eq_some_iff.mp hexec
  obtain rfl := Option.some.inj (hu.symm.trans (h.exec hs₁))
  exact ⟨ls₁, ls₂, s₁, rfl, hs₁, hR⟩

theorem HasPart.then (h : HasPart step stepPart part label) {s t : σ} {ls : List ℓ}
    (hexec : Lib.exec step s ls = some t)
    (hthen : Then stepPart R S (part s) (ls.filterMap label)) :
    Then step (fun t => R (part t)) (fun t => S (part t)) s ls := by
  obtain ⟨before, after, u, hls, hu, hS, honce⟩ := hthen
  obtain ⟨ls₁, ls₂, rfl, rfl, -⟩ := List.filterMap_eq_append_iff.mp hls
  rw [exec_append] at hexec
  obtain ⟨s₁, hs₁, -⟩ := Option.bind_eq_some_iff.mp hexec
  obtain rfl := Option.some.inj (hu.symm.trans (h.exec hs₁))
  exact ⟨ls₁, ls₂, s₁, rfl, hs₁, hS, h.once hs₁ honce⟩

end Part

end I40Aas.Lib
