import VirtualInfra.Proofs.Fault
import VirtualInfra.Proofs.Rollback
import VirtualInfra.Rehearsal

namespace VirtualInfra

variable {World α β : Type} {host : Host World} {w : World} {k : Fault.Kind}

namespace Act

def GivesUp (act : Act World α) (w : World) (k : Fault.Kind) : Prop :=
  ∃ f, act.run w = (.error f, w) ∧ f.kind = k

theorem GivesUp.within {act : Act World α} (h : act.GivesUp w k) (stage : String) :
    (act.within stage).GivesUp w k := by
  obtain ⟨f, hrun, hk⟩ := h
  refine ⟨f.within stage, ?_, hk⟩
  rw [run_within, hrun]
  rfl

theorem GivesUp.bind {act : Act World α} (h : act.GivesUp w k) (next : α → Act World β) :
    GivesUp (act >>= next) w k := by
  obtain ⟨f, hrun, hk⟩ := h
  exact ⟨f, run_bind_of_error hrun, hk⟩

end Act

namespace Host

theorem givesUp_race (h : host.cancelled w = true) (stage : String) (c : Call α) :
    (host.race stage c).GivesUp w .cancelled := by
  refine ⟨Fault.Cause.cancelled stage, ?_, rfl⟩
  rw [run_race, if_pos h]

/-- The same surroundings, where every call that is made is written down. -/
def overheard (host : Host World) : Host (World × List (Call.Kind × String)) where
  cancelled v := host.cancelled v.1
  issue c v := (host.issue c v.1, v.2 ++ [(c.kind, c.subject)])
  answer c v := ((host.answer c v.1).1, (host.answer c v.1).2, v.2)

end Host

namespace Request

variable {r : Request}

theorem kind_of_checkInterfaces {index : Nat} {is : List Interface} {f : Fault}
    (h : checkInterfaces index is = .error f) : f.kind = .invalidRequest := by
  induction is generalizing index with
  | nil => cases h
  | cons i is ih =>
      rw [checkInterfaces] at h
      unfold Interface.check at h
      split at h
      · cases h
        rfl
      · exact ih h

theorem kind_of_check {f : Fault} (h : r.check = .error f) : f.kind = .invalidRequest := by
  unfold check at h
  split at h
  · cases h
    rfl
  · split at h
    · cases h
      rfl
    · split at h
      · cases h
        rfl
      · exact kind_of_checkInterfaces h

/-- What a request fails with before anything is looked up. -/
def earlyKind (r : Request) : Fault.Kind :=
  if r.check = .ok () then .cancelled else .invalidRequest

theorem givesUp_compile (h : host.cancelled w = true) (d : Defaults) (r : Request) :
    (r.compile host d).GivesUp w r.earlyKind := by
  unfold compile earlyKind
  cases hr : r.check with
  | error f => exact ⟨f, rfl, kind_of_check hr⟩
  | ok =>
      rw [if_pos rfl]
      exact ((host.givesUp_race h _ _).within _).bind _

end Request

namespace Service

structure GivesUp (host : Host World) (d : Defaults) (w : World) : Prop where
  render : ∀ r : Request, (render host d r).GivesUp w r.earlyKind
  allocate : ∀ r : Request, (allocate host d r).GivesUp w r.earlyKind
  query : ∀ name, (query host name).GivesUp w .cancelled
  list : (list host d).GivesUp w .cancelled
  operate : ∀ name op, (operate host name op).GivesUp w .cancelled
  terminate : ∀ name, (terminate host name).GivesUp w .cancelled

theorem givesUp_of_cancelled (host : Host World) (w : World) (h : host.cancelled w = true)
    (d : Defaults) : GivesUp host d w where
  render r := r.givesUp_compile h d
  allocate r := (r.givesUp_compile h d).bind _
  query _ := ((host.givesUp_race h _ _).within _).bind _
  list := ((host.givesUp_race h _ _).within _).bind _
  operate _ _ := ((host.givesUp_race h _ _).within _).bind _
  terminate _ := (host.givesUp_race h _ _).within _

/-- For a caller who has cancelled already nothing is done: no call is made, and the world stays as
it is. -/
theorem untouched_of_cancelled (h : host.cancelled w = true) (d : Defaults) :
    GivesUp host d w ∧ ∀ calls, GivesUp host.overheard d (w, calls) :=
  ⟨givesUp_of_cancelled host w h d, fun calls => givesUp_of_cancelled host.overheard (w, calls) h d⟩

open Tenancy Platform.OneNode

/-- A node with a machine on it stays as it is, whether the request could be met or names no
flavour. -/
theorem untouched_inhabited : (impatient sample).cancelled (inhabited, true) = true ∧
    order.earlyKind = .cancelled ∧ { order with flavour := "" }.earlyKind = .invalidRequest ∧
    GivesUp (impatient sample) {} (inhabited, true) ∧
    ∀ calls, GivesUp (impatient sample).overheard {} ((inhabited, true), calls) :=
  ⟨rfl, by decide, by decide, untouched_of_cancelled rfl {}⟩

end Service

end VirtualInfra
