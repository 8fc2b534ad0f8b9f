import Mathlib.Data.List.Basic
import Mathlib.Logic.Function.Basic

/-!
Executions of a machine that is given by a partial step function on its states
and a list of labels, the schedule. A label that is not enabled ends the
execution, so every statement about a schedule is a statement about the states
it really leads through.
-/

namespace I40Aas.Lib

variable {σ ℓ : Type*}

/-- Where one component of a state changes, a component has the new value or the one it
had before. -/
theorem of_update_eq {ι β : Type*} [DecidableEq ι] {f : ι → β} {i j : ι} {b c : β}
    (h : Function.update f i b j = c) : j = i ∧ b = c ∨ f j = c := by
  by_cases hj : j = i
  · subst hj
    rw [Function.update_self] at h
    exact .inl ⟨rfl, h⟩
  · rw [Function.update_of_ne hj] at h
    exact .inr h

/-- The state after the whole schedule, if every label of it was enabled. -/
def exec (step : σ → ℓ → Option σ) : σ → List ℓ → Option σ
  | s, [] => some s
  | s, l :: ls => (step s l).bind fun s' => exec step s' ls

/-- `P` holds in every state the schedule leads through, the first one included. -/
def Along (step : σ → ℓ → Option σ) (P : σ → Prop) : σ → List ℓ → Prop
  | s, [] => P s
  | s, l :: ls => P s ∧ ∀ s', step s l = some s' → Along step P s' ls

/-- Every step the schedule takes meets the condition `ok` in the state before it. -/
def Guarded (step : σ → ℓ → Option σ) (ok : σ → ℓ → Prop) : σ → List ℓ → Prop
  | _, [] => True
  | s, l :: ls => ∀ s', step s l = some s' → ok s l ∧ Guarded step ok s' ls

/-- `R` relates the states before and after every step the schedule takes. -/
def Steps (step : σ → ℓ → Option σ) (R : σ → σ → Prop) : σ → List ℓ → Prop
  | _, [] => True
  | s, l :: ls => ∀ s', step s l = some s' → R s s' ∧ Steps step R s' ls

variable {step : σ → ℓ → Option σ} {I P Q : σ → Prop} {R : σ → σ → Prop} {ok : σ → ℓ → Prop}

/-- Whether a schedule meets a condition is found out by following it. -/
instance Guarded.decidable [∀ s l, Decidable (ok s l)] : ∀ s ls, Decidable (Guarded step ok s ls)
  | _, [] => .isTrue trivial
  | s, l :: ls =>
      match h : step s l with
      | none => .isTrue fun s' hs' => by rw [h] at hs'; cases hs'
      | some s' =>
          have := Guarded.decidable s' ls
          decidable_of_iff (ok s l ∧ Guarded step ok s' ls)
            ⟨fun hok t ht => by rw [h] at ht; cases ht; exact hok, fun hall => hall s' h⟩

theorem Along.head {s : σ} {ls : List ℓ} (h : Along step P s ls) : P s := by
  cases ls with
  | nil => exact h
  | cons l ls => exact h.1

theorem Along.mono {s : σ} {ls : List ℓ} (hPQ : ∀ s, P s → Q s)
    (h : Along step P s ls) : Along step Q s ls := by
  induction ls generalizing s with
  | nil => exact hPQ s h
  | cons l ls ih => exact ⟨hPQ s h.1, fun s' hs' => ih (h.2 s' hs')⟩

/-- An execution of two schedules one after the other. -/
theorem exec_append (s : σ) (ls₁ ls₂ : List ℓ) :
    exec step s (ls₁ ++ ls₂) = (exec step s ls₁).bind fun s' => exec step s' ls₂ := by
  induction ls₁ generalizing s with
  | nil => rfl
  | cons l ls₁ ih =>
      change (step s l).bind (fun s' => exec step s' (ls₁ ++ ls₂)) =
        ((step s l).bind fun s' => exec step s' ls₁).bind fun s' => exec step s' ls₂
      simp only [ih, Option.bind_assoc]

/-- What holds along a schedule holds in the state it ends in. -/
theorem Along.exec_eq {s s' : σ} {ls : List ℓ} (h : Along step P s ls)
    (hexec : exec step s ls = some s') : P s' := by
  induction ls generalizing s with
  | nil =>
      obtain rfl : s = s' := by simpa [exec] using hexec
      exact h
  | cons l ls ih =>
      simp only [exec, Option.bind_eq_some_iff] at hexec
      obtain ⟨t, ht, hexec⟩ := hexec
      exact ih (h.2 t ht) hexec

/-- What the start has and every step with a label of the schedule keeps holds along
the schedule. -/
theorem along_of_mem {s : σ} {ls : List ℓ}
    (hstep : ∀ s l s', l ∈ ls → I s → step s l = some s' → I s') (hs : I s) :
    Along step I s ls := by
  induction ls generalizing s with
  | nil => exact hs
  | cons l ls ih =>
      refine ⟨hs, fun s' hs' => ih (fun t l' t' hl' => ?_) (hstep s l s' List.mem_cons_self hs hs')⟩
      exact hstep t l' t' (List.mem_cons_of_mem _ hl')

/-- The invariant rule: what the start has and every step keeps holds along
every schedule. -/
theorem along_of_invariant (hstep : ∀ s l s', I s → step s l = some s' → I s')
    {s : σ} (hs : I s) (ls : List ℓ) : Along step I s ls :=
  along_of_mem (fun s l s' _ => hstep s l s') hs

theorem guarded_of_forall (h : ∀ s l, ok s l) (s : σ) (ls : List ℓ) : Guarded step ok s ls := by
  induction ls generalizing s with
  | nil => trivial
  | cons l ls ih => exact fun s' _ => ⟨h s l, ih s'⟩

theorem Guarded.mono {ok' : σ → ℓ → Prop} (himp : ∀ s l, ok s l → ok' s l) {s : σ} {ls : List ℓ}
    (h : Guarded step ok s ls) : Guarded step ok' s ls := by
  induction ls generalizing s with
  | nil => trivial
  | cons l ls ih => exact fun s' hs' => ⟨himp s l (h s' hs').1, ih (h s' hs').2⟩

/-- The invariant rule for a schedule whose steps all meet a condition. -/
theorem along_of_guarded (hstep : ∀ s l s', I s → ok s l → step s l = some s' → I s')
    {s : σ} {ls : List ℓ} (hs : I s) (h : Guarded step ok s ls) : Along step I s ls := by
  induction ls generalizing s with
  | nil => exact hs
  | cons l ls ih =>
      refine ⟨hs, fun s' hs' => ?_⟩
      obtain ⟨hok, htail⟩ := h s' hs'
      exact ih (hstep s l s' hs hok hs') htail

/-- The rule for a property that some steps break. Under an invariant `I` of
all steps, if the steps that meet `ok` keep `P` and the steps that do not meet
it lose `P`, then `P` holds along a schedule exactly when all its steps meet
`ok`. -/
theorem along_iff_guarded (hI : ∀ s l s', I s → step s l = some s' → I s')
    (hok : ∀ s l s', I s → P s → ok s l → step s l = some s' → P s')
    (hbad : ∀ s l s', I s → P s → ¬ ok s l → step s l = some s' → ¬ P s')
    {s : σ} (hs : I s) (hP : P s) (ls : List ℓ) :
    Along step P s ls ↔ Guarded step ok s ls := by
  induction ls generalizing s with
  | nil => simp [Along, Guarded, hP]
  | cons l ls ih =>
      constructor
      · rintro ⟨-, htail⟩ s' hs'
        have hok' : ok s l := by
          by_contra hno
          exact hbad s l s' hs hP hno hs' (htail s' hs').head
        exact ⟨hok', (ih (hI s l s' hs hs') (hok s l s' hs hP hok' hs')).mp (htail s' hs')⟩
      · intro h
        refine ⟨hP, fun s' hs' => ?_⟩
        obtain ⟨hok', htail⟩ := h s' hs'
        exact (ih (hI s l s' hs hs') (hok s l s' hs hP hok' hs')).mpr htail

/-- What no step regains has held all along if it holds in the end. -/
theorem along_of_exec_eq (hback : ∀ s l s', step s l = some s' → P s' → P s) {s t : σ}
    {ls : List ℓ} (hexec : exec step s ls = some t) (h : P t) : Along step P s ls := by
  induction ls generalizing s with
  | nil =>
      obtain rfl : s = t := by simpa [exec] using hexec
      exact h
  | cons l ls ih =>
      simp only [exec, Option.bind_eq_some_iff] at hexec
      obtain ⟨s', hs', hexec⟩ := hexec
      have htail := ih hexec
      refine ⟨hback s l s' hs' htail.head, fun s'' hs'' => ?_⟩
      obtain rfl := Option.some.inj (hs'.symm.trans hs'')
      exact htail

/-- The relation holds of the step that is reached after a part of the schedule. -/
theorem Steps.of_exec {s t u : σ} {l : ℓ} {ls₁ ls₂ : List ℓ}
    (h : Steps step R s (ls₁ ++ l :: ls₂)) (hexec : exec step s ls₁ = some t)
    (hstep : step t l = some u) : R t u := by
  induction ls₁ generalizing s with
  | nil =>
      obtain rfl : s = t := by simpa [exec] using hexec
      exact (h u hstep).1
  | cons l' ls₁ ih =>
      simp only [exec, Option.bind_eq_some_iff] at hexec
      obtain ⟨s', hs', hexec⟩ := hexec
      exact ih (h s' hs').2 hexec

/-- Under an invariant of all steps, a relation that every step meets holds of the
steps of every schedule. -/
theorem steps_of_invariant (hI : ∀ s l s', I s → step s l = some s' → I s')
    (hR : ∀ s l s', I s → step s l = some s' → R s s') {s : σ} (hs : I s) (ls : List ℓ) :
    Steps step R s ls := by
  induction ls generalizing s with
  | nil => trivial
  | cons l ls ih => exact fun s' hs' => ⟨hR s l s' hs hs', ih (hI s l s' hs hs')⟩

theorem guarded_and {ok' : σ → ℓ → Prop} {s : σ} {ls : List ℓ} :
    Guarded step (fun s l => ok s l ∧ ok' s l) s ls ↔
      Guarded step ok s ls ∧ Guarded step ok' s ls := by
  constructor
  · intro h
    exact ⟨h.mono fun _ _ hboth => hboth.1, h.mono fun _ _ hboth => hboth.2⟩
  · rintro ⟨h, h'⟩
    induction ls generalizing s with
    | nil => trivial
    | cons l ls ih =>
        intro s' hs'
        exact ⟨⟨(h s' hs').1, (h' s' hs').1⟩, ih (h s' hs').2 (h' s' hs').2⟩

/-- The rule for a relation that is met or not by steps of which a condition is known. -/
theorem steps_iff_guarded_of_guarded {ok' : σ → ℓ → Prop}
    (hI : ∀ s l s', I s → step s l = some s' → I s')
    (hiff : ∀ s l s', I s → ok s l → step s l = some s' → (R s s' ↔ ok' s l)) {s : σ} {ls : List ℓ}
    (hs : I s) (h : Guarded step ok s ls) : Steps step R s ls ↔ Guarded step ok' s ls := by
  induction ls generalizing s with
  | nil => simp [Steps, Guarded]
  | cons l ls ih =>
      refine forall₂_congr fun s' hs' => ?_
      obtain ⟨hok, htail⟩ := h s' hs'
      exact and_congr (hiff s l s' hs hok hs') (ih (hI s l s' hs hs') htail)

/-- The rule for a relation that some steps break: under an invariant `I` it holds of
the steps of a schedule exactly when these meet the condition. -/
theorem steps_iff_guarded (hI : ∀ s l s', I s → step s l = some s' → I s')
    (hiff : ∀ s l s', I s → step s l = some s' → (R s s' ↔ ok s l))
    {s : σ} (hs : I s) (ls : List ℓ) : Steps step R s ls ↔ Guarded step ok s ls := by
  induction ls generalizing s with
  | nil => simp [Steps, Guarded]
  | cons l ls ih =>
      constructor
      · intro h s' hs'
        obtain ⟨hR, htail⟩ := h s' hs'
        exact ⟨(hiff s l s' hs hs').mp hR, (ih (hI s l s' hs hs')).mp htail⟩
      · intro h s' hs'
        obtain ⟨hok, htail⟩ := h s' hs'
        exact ⟨(hiff s l s' hs hs').mpr hok, (ih (hI s l s' hs hs')).mpr htail⟩

end I40Aas.Lib
