import VirtualInfra.Platform
import VirtualInfra.Proofs.Act

namespace VirtualInfra

variable {World World' Other α γ : Type}

def Call.changes : Call α → Bool
  | .create _ | .setRunStrategy .. | .delete _ => true
  | _ => false

def Call.isLookUp : Call α → Bool
  | .flavour _ | .image _ | .network _ | .subnet _ => true
  | _ => false

namespace Host

variable {host : Host World} {host' : Host World'}

@[simp] theorem run_isCancelled (w : World) :
    host.isCancelled.run w = (.ok (host.cancelled w), w) := rfl

@[simp] theorem run_call (c : Call α) (w : World) :
    (host.call c).run w = host.answer c (host.issue c w) := rfl

theorem run_race (stage : String) (c : Call α) (w : World) :
    (host.race stage c).run w =
      if host.cancelled w then (.error (Fault.Cause.cancelled stage), w)
      else if host.cancelled (host.issue c w) then
        (.error (Fault.Cause.cancelled stage), host.issue c w)
      else host.answer c (host.issue c w) := by
  unfold race
  simp only [Act.run]
  split
  · rfl
  · split <;> rfl

structure Spares (host : Host World) (view : World → γ) (c : Call α) : Prop where
  issue (w : World) : view (host.issue c w) = view w
  answer (w : World) : view (host.answer c w).2 = view w

namespace Spares

variable {view : World → γ} {c : Call α}

theorem call (h : host.Spares view c) : Act.Keeps view (host.call c) := by
  intro w
  rw [run_call, h.answer, h.issue]

theorem race (h : host.Spares view c) (stage : String) : Act.Keeps view (host.race stage c) := by
  intro w
  rw [run_race]
  split
  · rfl
  · split
    · exact h.issue w
    · rw [h.answer, h.issue]

end Spares

/-- The second host is the first one seen through a map of the worlds. -/
structure Covers (π : World' → World) (host' : Host World') (host : Host World) : Prop where
  cancelled (w : World') : host.cancelled (π w) = host'.cancelled w
  issue {α : Type} (c : Call α) (w : World') : host.issue c (π w) = π (host'.issue c w)
  answer {α : Type} (c : Call α) (w : World') :
    host.answer c (π w) = ((host'.answer c w).1, π (host'.answer c w).2)

namespace Covers

variable {π : World' → World}

theorem isCancelled (h : Covers π host' host) : Act.Maps π host'.isCancelled host.isCancelled := by
  intro w
  rw [run_isCancelled, run_isCancelled, h.cancelled]

theorem call (h : Covers π host' host) (c : Call α) :
    Act.Maps π (host'.call c) (host.call c) := by
  intro w
  rw [run_call, run_call, h.issue, h.answer]

theorem race (h : Covers π host' host) (stage : String) (c : Call α) :
    Act.Maps π (host'.race stage c) (host.race stage c) := by
  intro w
  rw [run_race, run_race, h.cancelled, h.issue, h.cancelled, h.answer]
  split
  · rfl
  · split <;> rfl

end Covers

/-- Look-ups are answered as on the host of any platform with the catalogue. -/
def Consults (host : Host World) (c : Catalogue) : Prop :=
  ∀ {α V : Type} (call : Call α) (p : Platform V) (w : World) (v : V), call.isLookUp = true →
    p.answer c call v = ((host.answer call w).1, v)

end Host

namespace Platform

variable {host : Host World} (p : Platform World) (c : Catalogue)

@[simp] theorem run_race_host (stage : String) (call : Call α) (w : World) :
    ((p.host c).race stage call).run w = p.answer c call w := rfl

theorem answer_of_isLookUp {V : Type} (q : Platform V) {call : Call α} (h : call.isLookUp = true)
    (w : World) (v : V) : p.answer c call w = ((q.answer c call v).1, w) := by
  cases call <;> first | rfl | exact absurd h (by simp [Call.isLookUp])

theorem maps_race_host {call : Call α} (h : call.isLookUp = true) (stage : String) (v : World) :
    Act.Maps (fun _ => v) ((p.host c).race stage call) ((p.host c).race stage call) := by
  intro w
  rw [run_race_host, run_race_host]
  exact p.answer_of_isLookUp c p h v w

end Platform

theorem Platform.consults_host (p : Platform World) (c : Catalogue) : (p.host c).Consults c := by
  intro α V call q w v h
  rw [q.answer_of_isLookUp c p h v w]
  rfl

namespace Host

variable {host : Host World} {c : Catalogue}

def FindsIn (host : Host World) (c : Catalogue) : Prop :=
  ∀ {α V : Type} (call : Call α) (p : Platform V) (w : World) (v : V) (a : α),
    call.isLookUp = true → (host.answer call w).1 = .ok a → p.answer c call v = (.ok a, v)

theorem Consults.findsIn (h : host.Consults c) : host.FindsIn c := by
  intro α V call p w v a hc ha
  rw [h call p w v hc, ha]

theorem FindsIn.race (h : host.FindsIn c) {call : Call α} (hc : call.isLookUp = true)
    (stage : String) (p : Platform Other) :
    Act.Follows (host.race stage call) ((p.host c).race stage call) := by
  intro w v a ha
  rw [run_race] at ha
  rw [Platform.run_race_host]
  split at ha
  · cases ha
  · split at ha
    · cases ha
    · exact h call p _ v a hc ha

end Host

end VirtualInfra
