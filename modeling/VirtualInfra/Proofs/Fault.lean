import VirtualInfra.Fault
import VirtualInfra.Proofs.Except

namespace VirtualInfra

variable {α : Type}

@[simp] theorem Fault.mark_eq_ok_iff {stage : String} {x : Except Fault α} {a : α} :
    Fault.mark stage x = .ok a ↔ x = .ok a := by
  cases x with
  | error f => exact ⟨nofun, nofun⟩
  | ok b => exact Iff.rfl

namespace Metadata

theorem require_eq_ok_iff {m : Metadata} {owner : String} {key : Key} {v : String} :
    m.require owner key = .ok v ↔ m.value? key = some v := by
  rw [require]
  cases m.value? key <;> simp

theorem requireAll_eq_ok_iff {m : Metadata} {owner : String} {keys : List Key} {u : Unit} :
    m.requireAll owner keys = .ok u ↔ ∀ k ∈ keys, (m.value? k).isSome := by
  rw [requireAll]
  have hm : m.missing keys = [] ↔ ∀ k ∈ keys, (m.value? k).isSome := by
    simp [missing, Option.isSome_iff_ne_none]
  by_cases h : m.missing keys = []
  · rw [if_pos h]
    exact ⟨fun _ => hm.1 h, fun _ => rfl⟩
  · rw [if_neg h]
    constructor
    · intro he
      cases he
    · intro hk
      exact absurd (hm.2 hk) h

end Metadata

end VirtualInfra
