import VirtualInfra.Host

namespace VirtualInfra.Act

variable {World World' Other α β γ : Type}

def run (act : Act World α) (w : World) : Except Fault α × World := act w

@[simp] theorem run_pure (a : α) (w : World) : run (pure a) w = (.ok a, w) := rfl

@[simp] theorem run_lift (x : Except Fault α) (w : World) :
    run (liftM x : Act World α) w = (x, w) := rfl

@[simp] theorem run_within (stage : String) (act : Act World α) (w : World) :
    (act.within stage).run w = (Fault.mark stage (act.run w).1, (act.run w).2) := rfl

@[simp] theorem run_outcome (act : Act World α) (w : World) :
    act.outcome.run w = (.ok (act.run w).1, (act.run w).2) := rfl

theorem run_bind (act : Act World α) (next : α → Act World β) (w : World) :
    run (act >>= next) w =
      match act.run w with
      | (.ok a, w) => (next a).run w
      | (.error f, w) => (.error f, w) := by
  change (ExceptT.bind act next : Act World β) w = _
  simp only [ExceptT.bind, ExceptT.mk, run, bind, StateT.bind]
  rcases act w with ⟨a | a, w'⟩ <;> rfl

theorem run_bind_of_ok {act : Act World α} {next : α → Act World β} {w w' : World} {a : α}
    (h : act.run w = (.ok a, w')) : run (act >>= next) w = (next a).run w' := by
  rw [run_bind, h]

theorem run_bind_of_error {act : Act World α} {next : α → Act World β} {w w' : World} {f : Fault}
    (h : act.run w = (.error f, w')) : run (act >>= next) w = (.error f, w') := by
  rw [run_bind, h]

theorem run_bind_eq_ok_iff {act : Act World α} {next : α → Act World β} {w w'' : World} {b : β} :
    run (act >>= next) w = (.ok b, w'') ↔
      ∃ a w', act.run w = (.ok a, w') ∧ (next a).run w' = (.ok b, w'') := by
  rw [run_bind]
  constructor
  · intro h
    rcases hr : act.run w with ⟨f | a, w'⟩
    · rw [hr] at h
      cases h
    · rw [hr] at h
      exact ⟨a, w', rfl, h⟩
  · rintro ⟨a, w', ha, hb⟩
    rw [ha]
    exact hb

def Keeps (view : World → γ) (act : Act World α) : Prop :=
  ∀ w, view (act.run w).2 = view w

namespace Keeps

variable {view : World → γ} {act : Act World α} {next : α → Act World β}

theorem pure (a : α) : Keeps view (Pure.pure a : Act World α) := fun _ => rfl

theorem throw (f : Fault) : Keeps view (throw f : Act World α) := fun _ => rfl

theorem lift (x : Except Fault α) : Keeps view (liftM x : Act World α) := fun _ => rfl

theorem within (stage : String) (h : Keeps view act) : Keeps view (act.within stage) :=
  fun w => h w

theorem bind (h : Keeps view act) (hn : ∀ a, Keeps view (next a)) :
    Keeps view (act >>= next) := by
  intro w
  rw [run_bind]
  have hw := h w
  rcases hr : act.run w with ⟨f | a, w'⟩
  · rw [hr] at hw
    exact hw
  · rw [hr] at hw
    exact (hn a w').trans hw

end Keeps

/-- The step does what another does in the world that is seen through the map. -/
def Maps (π : World' → World) (act' : Act World' α) (act : Act World α) : Prop :=
  ∀ w, act.run (π w) = ((act'.run w).1, π (act'.run w).2)

namespace Maps

variable {π : World' → World} {act' : Act World' α} {act : Act World α}
  {next' : α → Act World' β} {next : α → Act World β}

theorem pure (a : α) : Maps π (Pure.pure a) (Pure.pure a) := fun _ => rfl

theorem throw (f : Fault) : Maps π (throw f : Act World' α) (throw f) := fun _ => rfl

theorem lift (x : Except Fault α) : Maps π (liftM x : Act World' α) (liftM x) := fun _ => rfl

theorem within (stage : String) (h : Maps π act' act) :
    Maps π (act'.within stage) (act.within stage) := by
  intro w
  rw [run_within, run_within, h w]

theorem bind (h : Maps π act' act) (hn : ∀ a, Maps π (next' a) (next a)) :
    Maps π (act' >>= next') (act >>= next) := by
  intro w
  rw [run_bind, run_bind, h w]
  rcases act'.run w with ⟨f | a, w'⟩
  · rfl
  · exact hn a w'

end Maps

/-- Whenever the step succeeds, another that changes nothing succeeds with the same result. -/
def Follows (act' : Act World α) (act : Act Other α) : Prop :=
  ∀ w v a, (act'.run w).1 = .ok a → act.run v = (.ok a, v)

namespace Follows

variable {act' : Act World α} {act : Act Other α} {next' : α → Act World β}
  {next : α → Act Other β}

theorem pure (a : α) : Follows (Pure.pure a : Act World α) (Pure.pure a : Act Other α) := by
  intro w v b h
  cases h
  rfl

theorem throw (f : Fault) : Follows (throw f : Act World α) (throw f : Act Other α) := by
  intro w v a h
  cases h

theorem lift (x : Except Fault α) :
    Follows (liftM x : Act World α) (liftM x : Act Other α) := by
  intro w v a h
  rw [run_lift] at h ⊢
  rw [← h]

theorem within (stage : String) (h : Follows act' act) :
    Follows (act'.within stage) (act.within stage) := by
  intro w v a ha
  rw [run_within] at ha ⊢
  rcases hr : (act'.run w).1 with f | b
  · rw [hr] at ha
    cases ha
  · rw [hr] at ha
    cases ha
    rw [h w v _ hr]
    rfl

theorem bind (h : Follows act' act) (hn : ∀ a, Follows (next' a) (next a)) :
    Follows (act' >>= next') (act >>= next) := by
  intro w v b hb
  rcases hr : run (act' >>= next') w with ⟨_, w'⟩
  rw [hr] at hb
  subst hb
  obtain ⟨a, w'', ha, hb⟩ := run_bind_eq_ok_iff.1 hr
  rw [run_bind_of_ok (h w v a (by rw [ha]))]
  exact hn a w'' v b (by rw [hb])

end Follows

end VirtualInfra.Act
