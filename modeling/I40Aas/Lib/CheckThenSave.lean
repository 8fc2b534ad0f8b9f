import I40Aas.Lib.Execution

/-!
Creating something that must not exist yet in two steps: look whether it is there, and
if it is not, save it, where saving replaces what is there. Any number of calls take
their steps in any order. Every call sees correctly what it looks at, and still two of
them can succeed: exactly if one saves after another one has.
-/

namespace I40Aas.Lib

/-- A store with the look and the saves of the calls `ι`; a save can be refused. -/
structure CheckThenSave (σ ι : Type*) where
  present : σ → Bool
  save : ι → σ → Option σ

namespace CheckThenSave

inductive Phase
  | waiting
  /-- It has looked and found nothing. -/
  | free
  | succeeded
  | failed
  deriving DecidableEq, Repr

structure State (σ ι : Type*) where
  store : σ
  phase : ι → Phase

/-- A step of a call, and whether the store answers it. -/
inductive Label (ι : Type*)
  | look (i : ι) (answers : Bool)
  | save (i : ι) (answers : Bool)

variable {σ ι : Type*} [DecidableEq ι] (c : CheckThenSave σ ι)

def step (s : State σ ι) : Label ι → Option (State σ ι)
  | .look i answers =>
      match s.phase i with
      | .waiting =>
          some { s with
            phase := Function.update s.phase i
              (if answers && !c.present s.store then .free else .failed) }
      | _ => none
  | .save i answers =>
      match s.phase i with
      | .free =>
          match (if answers then c.save i s.store else none) with
          | some store => some ⟨store, Function.update s.phase i .succeeded⟩
          | none => some { s with phase := Function.update s.phase i .failed }
      | _ => none

/-- What a step can do. -/
inductive Stepped (s : State σ ι) : Label ι → State σ ι → Prop
  | found (i : ι) (answers : Bool) : s.phase i = .waiting → c.present s.store = false →
      Stepped s (.look i answers) { s with phase := Function.update s.phase i .free }
  | notFound (i : ι) (answers : Bool) : s.phase i = .waiting →
      Stepped s (.look i answers) { s with phase := Function.update s.phase i .failed }
  | saved (i : ι) {store : σ} : s.phase i = .free → c.save i s.store = some store →
      Stepped s (.save i true) ⟨store, Function.update s.phase i .succeeded⟩
  | refused (i : ι) (answers : Bool) : s.phase i = .free →
      (answers = true → c.save i s.store = none) →
      Stepped s (.save i answers) { s with phase := Function.update s.phase i .failed }

/-- At most one call succeeds. -/
def OneSucceeds (s : State σ ι) : Prop :=
  ∀ i j, s.phase i = .succeeded → s.phase j = .succeeded → i = j

/-- The step is no save that goes through while something is there. -/
def Clear (s : State σ ι) : Label ι → Prop
  | .look _ _ => True
  | .save i answers => s.phase i = .free → answers = true → (c.save i s.store).isSome = true →
      c.present s.store = false

instance (s : State σ ι) (l : Label ι) : Decidable (c.Clear s l) :=
  match l with
  | .look _ _ => .isTrue trivial
  | .save _ _ => inferInstanceAs (Decidable (_ → _ → _ → _))

/-- A save that goes through meets the condition. -/
def Spares (spares : ι → σ → Prop) (s : State σ ι) : Label ι → Prop
  | .look _ _ => True
  | .save i answers => s.phase i = .free → answers = true → (c.save i s.store).isSome = true →
      spares i s.store

/-- One call by itself: whether it succeeds, and the store it leaves. -/
def alone (i : ι) (answersLook answersSave : Bool) (store : σ) : Bool × σ :=
  if answersLook && !c.present store then
    match (if answersSave then c.save i store else none) with
    | some store' => (true, store')
    | none => (false, store)
  else (false, store)

variable {c} {s s' : State σ ι} {l : Label ι}

omit [DecidableEq ι] in
theorem alone_of_present {store : σ} (h : c.present store = true) (i : ι)
    (answersLook answersSave : Bool) :
    c.alone i answersLook answersSave store = (false, store) := by
  simp [alone, h]

omit [DecidableEq ι] in
theorem alone_of_absent {store : σ} (h : c.present store = false) (i : ι) (answersSave : Bool) :
    c.alone i true answersSave store =
      (if answersSave then c.save i store else none).elim (false, store) (true, ·) := by
  rw [alone, if_pos (by simp [h])]
  cases (if answersSave then c.save i store else none) <;> rfl

theorem stepped_of_step (h : c.step s l = some s') : c.Stepped s l s' := by
  cases l with
  | look i answers =>
      simp only [step] at h
      split at h
      · rename_i hwaiting
        obtain rfl := Option.some.inj h
        split
        · rename_i hfree
          rw [Bool.and_eq_true, Bool.not_eq_true'] at hfree
          exact .found i answers hwaiting hfree.2
        · exact .notFound i answers hwaiting
      · cases h
  | save i answers =>
      simp only [step] at h
      split at h
      · rename_i hfree
        cases answers with
        | false =>
            obtain rfl := Option.some.inj h
            exact .refused i false hfree nofun
        | true =>
            rw [if_pos rfl] at h
            split at h
            · rename_i store hsave
              obtain rfl := Option.some.inj h
              exact .saved i hfree hsave
            · rename_i hsave
              obtain rfl := Option.some.inj h
              exact .refused i true hfree fun _ => hsave
      · cases h

/-- The steps of one call, with no step of another call between them. -/
theorem exec_alone (i : ι) (answersLook answersSave : Bool) (hwaiting : s.phase i = .waiting) :
    ∃ n s', exec c.step s ([.look i answersLook, .save i answersSave].take n) = some s' ∧
      c.alone i answersLook answersSave s.store = (decide (s'.phase i = .succeeded), s'.store) := by
  have hlook : c.step s (.look i answersLook) = some { s with
      phase := Function.update s.phase i
        (if answersLook && !c.present s.store then .free else .failed) } := by
    rw [step, hwaiting]
  unfold alone
  split
  · rename_i hfree
    rw [if_pos hfree] at hlook
    cases hsave : (if answersSave then c.save i s.store else none) with
    | some store =>
        refine ⟨2, ⟨store, Function.update (Function.update s.phase i .free) i .succeeded⟩, ?_, ?_⟩
        · rw [List.take, exec, hlook]
          simp [exec, step, hsave]
        · simp
    | none =>
        refine ⟨2, ⟨s.store, Function.update (Function.update s.phase i .free) i .failed⟩, ?_, ?_⟩
        · rw [List.take, exec, hlook]
          simp [exec, step, hsave]
        · simp
  · rename_i hfree
    rw [if_neg hfree] at hlook
    refine ⟨1, { s with phase := Function.update s.phase i .failed }, ?_, ?_⟩
    · simp [exec, hlook]
    · simp

/-- Who has found nothing before something was there, and who has put it there. -/
structure Sound (c : CheckThenSave σ ι) (s : State σ ι) : Prop where
  overtaken : ∀ i, s.phase i = .free → c.present s.store = true → ∃ j, s.phase j = .succeeded
  created : ∀ j, s.phase j = .succeeded → c.present s.store = true

omit [DecidableEq ι] in
theorem sound_of_waiting (h : ∀ i, s.phase i = .waiting) : Sound c s where
  overtaken i hfree := by
    rw [h i] at hfree
    cases hfree
  created j hsucceeded := by
    rw [h j] at hsucceeded
    cases hsucceeded

/-- A call that has not succeeded yet gets another phase than that. -/
theorem succeeded_update_iff {i j : ι} {p : Phase} (hi : s.phase i ≠ .succeeded)
    (hp : p ≠ .succeeded) :
    Function.update s.phase i p j = .succeeded ↔ s.phase j = .succeeded := by
  by_cases hj : j = i
  · subst hj
    simp [hi, hp]
  · rw [Function.update_of_ne hj]

theorem Sound.step (hsaved : ∀ i store store', c.save i store = some store' →
    c.present store' = true) (h : Sound c s) (hstep : c.Stepped s l s') : Sound c s' := by
  -- where the store stays, nobody new succeeds
  have hsame : ∀ (i : ι) (p : Phase), s.phase i ≠ .succeeded → p ≠ .succeeded →
      (p = .free → c.present s.store = false) →
      Sound c { s with phase := Function.update s.phase i p } := by
    intro i p hi hp hfree
    refine ⟨fun j hj hpresent => ?_, fun j hj => ?_⟩
    · rcases of_update_eq hj with ⟨-, hpfree⟩ | hj
      · rw [hfree hpfree] at hpresent
        cases hpresent
      · obtain ⟨k, hk⟩ := h.overtaken j hj hpresent
        exact ⟨k, (succeeded_update_iff hi hp).mpr hk⟩
    · exact h.created j ((succeeded_update_iff hi hp).mp hj)
  cases hstep with
  | found i answers hwaiting habsent =>
      exact hsame i .free (by simp [hwaiting]) nofun fun _ => habsent
  | notFound i answers hwaiting => exact hsame i .failed (by simp [hwaiting]) nofun nofun
  | refused i answers hfree _ => exact hsame i .failed (by simp [hfree]) nofun nofun
  | saved i hfree hsave =>
      exact ⟨fun _ _ _ => ⟨i, Function.update_self ..⟩, fun _ _ => hsaved i _ _ hsave⟩

theorem OneSucceeds.step (hsound : Sound c s) (h : OneSucceeds s) (hclear : c.Clear s l)
    (hstep : c.Stepped s l s') : OneSucceeds s' := by
  have hsame : ∀ (i : ι) (p : Phase), s.phase i ≠ .succeeded → p ≠ .succeeded →
      OneSucceeds { s with phase := Function.update s.phase i p } := by
    intro i p hi hp j k hj hk
    exact h j k ((succeeded_update_iff hi hp).mp hj) ((succeeded_update_iff hi hp).mp hk)
  cases hstep with
  | found i answers hwaiting _ => exact hsame i .free (by simp [hwaiting]) nofun
  | notFound i answers hwaiting => exact hsame i .failed (by simp [hwaiting]) nofun
  | refused i answers hfree _ => exact hsame i .failed (by simp [hfree]) nofun
  | saved i hfree hsave =>
      have habsent := hclear hfree rfl (by simp [hsave])
      -- so nobody has succeeded before
      have hnobody : ∀ j, Function.update s.phase i .succeeded j = .succeeded → j = i := by
        intro j hj
        rcases of_update_eq hj with ⟨rfl, -⟩ | hj
        · rfl
        · rw [hsound.created j hj] at habsent
          cases habsent
      exact fun j k hj hk => (hnobody j hj).trans (hnobody k hk).symm

theorem not_oneSucceeds_of_step (hsound : Sound c s) (hbad : ¬ c.Clear s l)
    (hstep : c.Stepped s l s') : ¬ OneSucceeds s' := by
  cases hstep with
  | found i answers _ _ => exact absurd trivial hbad
  | notFound i answers _ => exact absurd trivial hbad
  | refused i answers hfree hrefused =>
      refine absurd (fun _ hanswers hsome => ?_) hbad
      rw [hrefused hanswers] at hsome
      cases hsome
  | saved i hfree hsave =>
      have hpresent : c.present s.store = true := by
        by_contra habsent
        exact hbad fun _ _ _ => by simpa using habsent
      obtain ⟨j, hj⟩ := hsound.overtaken i hfree hpresent
      have hne : j ≠ i := by
        rintro rfl
        rw [hj] at hfree
        cases hfree
      intro hone
      have hj' : Function.update s.phase i .succeeded j = .succeeded := by
        rw [Function.update_of_ne hne]
        exact hj
      exact hne (hone j i hj' (Function.update_self ..))

/-- At most one call ever succeeds exactly if no save goes through while something is
there. -/
theorem oneSucceeds_iff (hsaved : ∀ i store store', c.save i store = some store' →
    c.present store' = true) (hs : ∀ i, s.phase i = .waiting) (ls : List (Label ι)) :
    Along c.step OneSucceeds s ls ↔ Guarded c.step c.Clear s ls := by
  refine along_iff_guarded (I := Sound c) ?_ ?_ ?_ (sound_of_waiting hs) ?_ ls
  · intro s l s' hsound hstep
    exact hsound.step hsaved (stepped_of_step hstep)
  · intro s l s' hsound hone hclear hstep
    exact hone.step hsound hclear (stepped_of_step hstep)
  · intro s l s' hsound _ hbad hstep
    exact not_oneSucceeds_of_step hsound hbad (stepped_of_step hstep)
  · intro i _ hi
    rw [hs i] at hi
    cases hi

omit [DecidableEq ι] in
theorem spares_of_refused {spares : ι → σ → Prop} {i : ι} {answers : Bool}
    (h : answers = true → c.save i s.store = none) : c.Spares spares s (.save i answers) := by
  intro _ hanswers hsome
  rw [h hanswers] at hsome
  cases hsome

/-- Where no save goes through while something is there, every step keeps what is stored
exactly if the saves that go through spare it. -/
theorem steps_iff_of_clear (Inv : σ → Prop) {Keeps : σ → σ → Prop} {spares : ι → σ → Prop}
    (hinv : ∀ i store store', Inv store → c.save i store = some store' → Inv store')
    (hrefl : ∀ store, Keeps store store)
    (hkeeps : ∀ i store store', Inv store → c.present store = false →
      c.save i store = some store' → (Keeps store store' ↔ spares i store))
    (hs : Inv s.store) {ls : List (Label ι)} (h : Guarded c.step c.Clear s ls) :
    Steps c.step (fun s s' => Keeps s.store s'.store) s ls ↔
      Guarded c.step (c.Spares spares) s ls := by
  refine steps_iff_guarded_of_guarded (I := fun s => Inv s.store) ?_ ?_ hs h
  · intro s l s' hinvs hstep
    cases stepped_of_step hstep with
    | found i answers _ _ => exact hinvs
    | notFound i answers _ => exact hinvs
    | refused i answers _ _ => exact hinvs
    | saved i _ hsave => exact hinv i _ _ hinvs hsave
  · intro s l s' hinvs hclear hstep
    cases stepped_of_step hstep with
    | found i answers _ _ => exact iff_of_true (hrefl _) trivial
    | notFound i answers _ => exact iff_of_true (hrefl _) trivial
    | refused i answers _ hrefused => exact iff_of_true (hrefl _) (spares_of_refused hrefused)
    | saved i hfree hsave =>
        have hsome : (c.save i s.store).isSome = true := by simp [hsave]
        rw [hkeeps i _ _ hinvs (hclear hfree rfl hsome) hsave]
        exact ⟨fun hspares _ _ _ => hspares, fun hspares => hspares hfree rfl hsome⟩

end CheckThenSave

end I40Aas.Lib
