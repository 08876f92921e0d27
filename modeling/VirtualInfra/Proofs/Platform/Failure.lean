import VirtualInfra.Proofs.Platform.Exclusion
import VirtualInfra.Proofs.Store.Failure

namespace VirtualInfra.Platform.OneNode

open Store Disk

variable {w w' w₀ : OneNode} {f : Fault} {p : Problem}

structure Unharmed (w : OneNode) (f : Fault) (w' : OneNode) : Prop where
  spares : w.disk.Spares w'.disk
  state : w'.disk.bytes? w.store.stateFile.path = w.disk.bytes? w.store.stateFile.path
  refused : ∀ p d, w.store.acquire w.holder w.disk = (.error p, d) →
    ∀ q, w'.disk.bytes? q = w.disk.bytes? q
  obtained : ∀ d, w.store.acquire w.holder w.disk = (.ok (), d) →
    w'.disk.get? w.store.lockFile.path = none ∧
      ∀ me, ∃ d', w.store.acquire me w'.disk = (.ok (), d')
  rejected : f.kind = .alreadyExists ∨ f.kind = .notFound →
    ∀ q, q ≠ w.store.lockFile.path → w'.disk.bytes? q = w.disk.bytes? q

section Update

variable {α : Type} {g : State → Except Problem (α × State)}

theorem store_update (g : State → Except Problem (α × State)) (w : OneNode) :
    (update g w).2.store = w.store := rfl

theorem disk_update (g : State → Except Problem (α × State)) (w : OneNode) :
    (update g w).2.disk = (w.store.update w.holder g w.disk).2 := rfl

theorem not_internal_of_kind (h : p.fault.kind = .alreadyExists ∨ p.fault.kind = .notFound) :
    ¬ p.Internal := by
  intro hp
  unfold Problem.Internal at hp
  rw [hp] at h
  simp at h

theorem unharmed_of_update (h : update g w = (.error f, w')) : Unharmed w f w' := by
  rw [update] at h
  rcases hrun : w.store.update w.holder g w.disk with ⟨p | a, d⟩
  · rw [hrun] at h
    cases h
    have hfails := fails_of_update hrun
    constructor
    · exact hfails.confined.spares
    · apply hfails.confined.bytes
      simp [w.store.state_ne_lock, w.store.state_ne_staging, w.store.state_ne_backup]
    · intro q d₁ hq path
      exact (hfails.confined_of_refused hq).bytes path List.not_mem_nil
    · intro d₁ hq
      exact hfails.free_of_obtained hq
    · intro hkind path hpath
      apply (hfails.confined_of_rejected (not_internal_of_kind hkind)).bytes
      rwa [List.mem_singleton]
  · rw [hrun] at h
    cases h

end Update

theorem unharmed_of_answer {α : Type} {call : Call α} (c : Catalogue) (hc : call.changes = true)
    (h : platform.answer c call w = (.error f, w')) : Unharmed w f w' := by
  obtain ⟨g, drawn, hanswer, -⟩ := exists_update_of_changes c hc w
  rcases hrun : update g w with ⟨r, w₁⟩
  rw [hanswer, hrun] at h
  cases h
  have hu := unharmed_of_update hrun
  exact ⟨hu.spares, hu.state, hu.refused, hu.obtained, hu.rejected⟩

theorem bytes?_of_reaches {bytes : List UInt8}
    (hb : w₀.disk.bytes? w₀.store.stateFile.path = some bytes) (hs : Unsupported bytes)
    (h : Reaches w₀ w) :
    w.store = w₀.store ∧ w.disk.bytes? w₀.store.stateFile.path = some bytes := by
  have hupdate {α : Type} (g : State → Except Problem (α × State)) {w : OneNode}
      (ih : w.store = w₀.store ∧ w.disk.bytes? w₀.store.stateFile.path = some bytes) :
      (update g w).2.store = w₀.store ∧
        (update g w).2.disk.bytes? w₀.store.stateFile.path = some bytes := by
    obtain ⟨hstore, hbytes⟩ := ih
    rw [store_update, disk_update, ← hstore]
    rw [← hstore] at hbytes
    exact ⟨rfl, bytes?_update_of_unsupported hbytes hs⟩
  induction h with
  | refl => exact ⟨rfl, hb⟩
  | later _ hl ih =>
      obtain ⟨now, host, process, rfl⟩ := hl
      exact ih
  | @create w _ spec ih => exact hupdate (createIn w.now (w.fresh w.drawn) spec) ih
  | @setRunStrategy w _ name r ih => exact hupdate (setRunStrategyIn w.now name r) ih
  | @delete w _ name ih => exact hupdate (deleteIn w.now name) ih

/-- A call that fails harms nothing, and a state file that is damaged or of a newer version is not
overwritten by any calls. -/
structure SparesState (w : OneNode) : Prop where
  failed : ∀ {α : Type} (c : Catalogue) (call : Call α) f w', call.changes = true →
    platform.answer c call w = (.error f, w') → Unharmed w f w'
  unsupported : ∀ bytes, w.disk.bytes? w.store.stateFile.path = some bytes → Unsupported bytes →
    ∀ w', Reaches w w' → w'.disk.bytes? w.store.stateFile.path = some bytes

theorem failed_calls_spare_state (w : OneNode) : SparesState w where
  failed c _ _ _ hc h := unharmed_of_answer c hc h
  unsupported _ hb hs _ h := (bytes?_of_reaches hb hs h).2

end VirtualInfra.Platform.OneNode
