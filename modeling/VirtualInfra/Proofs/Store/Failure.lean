import VirtualInfra.Proofs.Store.Lock
import VirtualInfra.Proofs.Store.Save

namespace VirtualInfra.Store

open Disk Way

variable {s : Store} {d d' d₁ : Disk} {me : Holder} {p : Problem} {st : State} {now : Timestamp}
  {bytes : List UInt8}

section Internal

def Problem.Internal (p : Problem) : Prop := p.fault.kind = .platform

variable {α : Type}

theorem internal_of_ofDisk {x : Except Failure α} (h : ofDisk x = .error p) : p.Internal := by
  cases x with
  | error f =>
      cases h
      rfl
  | ok a => cases h

theorem internal_of_createLock (h : s.createLock me d = .error p) : p.Internal := by
  unfold createLock at h
  split at h
  · cases h
  · cases h
  · cases h
    rfl

theorem internal_of_readHolder (h : s.readHolder d = .error p) : p.Internal := by
  unfold readHolder at h
  cases hread : ofDisk (d.readText s.lockFile) with
  | error q =>
      rw [hread] at h
      cases h
      exact internal_of_ofDisk hread
  | ok text =>
      rw [hread, Except.ok_bind] at h
      split at h
      · cases h
      · cases h
        rfl

theorem internal_of_replaceLock (h : s.replaceLock me d = (.error p, d')) : p.Internal := by
  unfold replaceLock removeLock at h
  split at h
  · next hremove =>
      cases h
      split at hremove
      · cases hremove
      · cases hremove
      · cases hremove
        rfl
  · split at h
    · next hcreate =>
        cases h
        exact internal_of_createLock hcreate
    · cases h
    · cases h
      rfl

theorem internal_of_acquire (h : s.acquire me d = (.error p, d')) : p.Internal := by
  obtain ⟨d₁, -, ⟨f, hf⟩ | heq⟩ := acquire_eq s me d
  · rw [h] at hf
    cases hf
    rfl
  · rw [h] at heq
    split at heq
    · next hcreate =>
        cases heq
        exact internal_of_createLock hcreate
    · cases heq
    · split at heq
      · next hread =>
          cases heq
          exact internal_of_readHolder hread
      · split at heq
        · cases heq
          rfl
        · exact internal_of_replaceLock heq.symm

theorem internal_of_load (h : s.load now d = .error p) : p.Internal := by
  rw [load] at h
  split at h
  · next w _ =>
      cases hread : ofDisk (d.readText w) with
      | error q =>
          rw [hread] at h
          cases h
          exact internal_of_ofDisk hread
      | ok text =>
          rw [hread, Except.ok_bind] at h
          unfold decode at h
          split at h
          · split at h
            · cases h
              rfl
            · cases h
          · cases h
            rfl
  · cases h

theorem internal_of_save (h : s.save st d = (.error p, d')) : p.Internal := by
  rw [save] at h
  split at h
  exact internal_of_ofDisk (Prod.mk.inj h).1

end Internal

section Held

structure Held (s : Store) (d : Disk) : Prop where
  reach : d.reach s.lockFile = .ok s.lockFile.path
  file : ∃ bytes, d.get? s.lockFile.path = some (.file bytes)

theorem held_of_acquire (h : s.acquire me d = (.ok (), d')) :
    s.Held d' ∧ Confined [s.lockFile.path] d d' := by
  obtain ⟨d₁, hgrows, hreach, hne, -, hs⟩ := sets_of_acquire h
  exact ⟨⟨reach_of_spares hreach (hs.spares hne), _, hs.self⟩,
    ((Confined.of_grows hgrows).mono (List.nil_subset _)).trans (.of_sets hs hne)⟩

namespace Held

theorem confined {ps : List Path} (h : s.Held d) (hc : Confined ps d d')
    (hps : s.lockFile.path ∉ ps) : s.Held d' := by
  obtain ⟨hreach, bytes, hb⟩ := h
  refine ⟨reach_of_spares hreach hc.spares, bytes, get?_of_bytes? ?_⟩
  rw [hc.bytes _ hps, bytes?_of_get? hb]

theorem isOpen (h : s.Held d) : s.IsOpen d := isOpen_of_reach isName_lock h.reach

theorem release (h : s.Held d) :
    ∃ d', s.release d = (.ok (), d') ∧ Confined [s.lockFile.path] d d' ∧
      d'.get? s.lockFile.path = none ∧ ∀ me, ∃ d'', s.acquire me d' = (.ok (), d'') := by
  obtain ⟨hreach, bytes, hb⟩ := h
  obtain ⟨d', hrelease, hs⟩ := release_of_file hreach hb
  have hne : d.get? s.lockFile.path ≠ some .directory := by
    rw [hb]
    nofun
  exact ⟨d', hrelease, .of_sets hs hne, hs.self,
    acquire_of_free (reach_of_spares hreach (hs.spares hne)) hs.self⟩

end Held

theorem lock_not_mem (s : Store) : s.lockFile.path ∉ [s.stagingFile.path, s.backupFile.path] := by
  rw [List.mem_cons, List.mem_singleton, not_or]
  exact ⟨s.staging_ne_lock.symm, s.backup_ne_lock.symm⟩

end Held

section Failing

variable {α : Type} {f : State → Except Problem (α × State)} {r : Except Problem α} {a : α}

theorem of_revise_ok (h : s.revise now f d = (.ok a, d')) :
    ∃ st st', s.load now d = .ok st ∧ f st = .ok (a, st') ∧ s.save st' d = (.ok (), d') := by
  unfold revise at h
  split at h
  · cases h
  · next st hload =>
      split at h
      · cases h
      · next hchange =>
          split at h
          · next hsave =>
              cases h
              exact ⟨st, _, hload, hchange, hsave⟩
          · cases h

theorem of_revise_error (h : s.revise now f d = (.error p, d')) :
    d' = d ∧ (s.load now d = .error p ∨ ∃ st, f st = .error p) ∨
      ∃ st, s.save st d = (.error p, d') := by
  unfold revise at h
  split at h
  · next hload =>
      cases h
      exact .inl ⟨rfl, .inl hload⟩
  · next st _ =>
      split at h
      · next hchange =>
          cases h
          exact .inl ⟨rfl, .inr ⟨st, hchange⟩⟩
      · split at h
        · cases h
        · next hsave =>
            cases h
            exact .inr ⟨_, hsave⟩

theorem Held.revised (hd : s.Held d) (h : s.revise now f d = (r, d')) : s.Held d' := by
  rcases r with p | a
  · rcases of_revise_error h with ⟨rfl, -⟩ | ⟨st, hsave⟩
    · exact hd
    · exact hd.confined (confined_of_save_error hsave) s.lock_not_mem
  · obtain ⟨-, st, -, -, hsave⟩ := of_revise_ok h
    have hc := confined_save s st d
    rw [hsave] at hc
    exact hd.confined hc (by
      simp [s.staging_ne_lock.symm, s.backup_ne_lock.symm, s.state_ne_lock.symm])

/-- Either the lock is refused, or it is given back whatever came of the change. -/
theorem of_update (h : s.update me f d = (r, d')) :
    (∃ p, r = .error p ∧ s.acquire me d = (.error p, d')) ∨
      ∃ d₁ d₂, s.acquire me d = (.ok (), d₁) ∧ s.revise me.since f d₁ = (r, d₂) ∧
        s.release d₂ = (.ok (), d') := by
  unfold update at h
  split at h
  · next p _ hacquire =>
      cases h
      exact .inl ⟨p, rfl, hacquire⟩
  · next d₁ hacquire =>
      rcases hrevise : s.revise me.since f d₁ with ⟨r', d₂⟩
      obtain ⟨d₃, hrelease, -⟩ := ((held_of_acquire hacquire).1.revised hrevise).release
      simp only [hrevise, hrelease] at h
      cases h
      exact .inr ⟨d₁, d₂, hacquire, hrevise, hrelease⟩

/-- The ways in which a change of the state fails: the lock is refused, or it is obtained and then
the state cannot be loaded, is not to be changed, or cannot be saved. -/
inductive Fails (s : Store) (me : Holder) (f : State → Except Problem (α × State)) (d : Disk)
    (p : Problem) (d' : Disk) : Prop
  | refused (acquire : s.acquire me d = (.error p, d'))
  | unread {d₁ : Disk} (acquire : s.acquire me d = (.ok (), d₁))
      (load : s.load me.since d₁ = .error p) (release : s.release d₁ = (.ok (), d'))
  | rejected {d₁ : Disk} {st : State} (acquire : s.acquire me d = (.ok (), d₁))
      (change : f st = .error p) (release : s.release d₁ = (.ok (), d'))
  | unsaved {d₁ d₂ : Disk} {st : State} (acquire : s.acquire me d = (.ok (), d₁))
      (save : s.save st d₁ = (.error p, d₂)) (release : s.release d₂ = (.ok (), d'))

theorem fails_of_update (h : s.update me f d = (.error p, d')) : Fails s me f d p d' := by
  rcases of_update h with ⟨q, hq, hacquire⟩ | ⟨d₁, d₂, hacquire, hrevise, hrelease⟩
  · cases hq
    exact .refused hacquire
  rcases of_revise_error hrevise with ⟨rfl, hload | ⟨st, hchange⟩⟩ | ⟨st, hsave⟩
  · exact .unread hacquire hload hrelease
  · exact .rejected hacquire hchange hrelease
  · exact .unsaved hacquire hsave hrelease

theorem confined_of_release (hd : s.Held d) (h : s.release d = (.ok (), d')) :
    Confined [s.lockFile.path] d d' := by
  obtain ⟨d₁, hrelease, hc, -⟩ := hd.release
  rw [h] at hrelease
  cases hrelease
  exact hc

namespace Fails

theorem confined (h : Fails s me f d p d') :
    Confined [s.lockFile.path, s.stagingFile.path, s.backupFile.path] d d' := by
  have hlock : [s.lockFile.path] ⊆ [s.lockFile.path, s.stagingFile.path, s.backupFile.path] :=
    List.cons_subset_cons _ (List.nil_subset _)
  cases h with
  | refused hacquire =>
      exact (Confined.of_grows (grows_of_acquire_error hacquire)).mono (List.nil_subset _)
  | unread hacquire _ hrelease | rejected hacquire _ hrelease =>
      obtain ⟨hheld, hc⟩ := held_of_acquire hacquire
      exact (hc.trans (confined_of_release hheld hrelease)).mono hlock
  | unsaved hacquire hsave hrelease =>
      obtain ⟨hheld, hc⟩ := held_of_acquire hacquire
      have hs := confined_of_save_error hsave
      have hback := confined_of_release (hheld.confined hs s.lock_not_mem) hrelease
      exact ((hc.mono hlock).trans (hs.mono (List.subset_cons_self _ _))).trans (hback.mono hlock)

/-- When the change was not to be made, no file was touched but the lock. -/
theorem confined_of_rejected (h : Fails s me f d p d') (hp : ¬ p.Internal) :
    Confined [s.lockFile.path] d d' := by
  cases h with
  | refused hacquire => exact absurd (internal_of_acquire hacquire) hp
  | unread _ hload => exact absurd (internal_of_load hload) hp
  | rejected hacquire _ hrelease =>
      obtain ⟨hheld, hc⟩ := held_of_acquire hacquire
      exact hc.trans (confined_of_release hheld hrelease)
  | unsaved _ hsave => exact absurd (internal_of_save hsave) hp

theorem confined_of_refused (h : Fails s me f d p d') {q : Problem}
    (hq : s.acquire me d = (.error q, d₁)) : Confined [] d d' := by
  cases h with
  | refused hacquire => exact .of_grows (grows_of_acquire_error hacquire)
  | unread hacquire | rejected hacquire | unsaved hacquire =>
      rw [hq] at hacquire
      cases hacquire

theorem free_of_obtained (h : Fails s me f d p d') (hq : s.acquire me d = (.ok (), d₁)) :
    d'.get? s.lockFile.path = none ∧ ∀ me, ∃ d'', s.acquire me d' = (.ok (), d'') := by
  have hback {d₂ : Disk} (hheld : s.Held d₂) (hrelease : s.release d₂ = (.ok (), d')) :
      d'.get? s.lockFile.path = none ∧ ∀ me, ∃ d'', s.acquire me d' = (.ok (), d'') := by
    obtain ⟨d₃, hrelease₃, -, hfree⟩ := hheld.release
    rw [hrelease] at hrelease₃
    cases hrelease₃
    exact hfree
  cases h with
  | refused hacquire =>
      rw [hq] at hacquire
      cases hacquire
  | unread hacquire _ hrelease | rejected hacquire _ hrelease =>
      exact hback (held_of_acquire hacquire).1 hrelease
  | unsaved hacquire hsave hrelease =>
      have hheld := (held_of_acquire hacquire).1
      exact hback (hheld.confined (confined_of_save_error hsave) s.lock_not_mem) hrelease

end Fails

end Failing

section Unsupported

inductive Unsupported (bytes : List UInt8) : Prop
  | damaged (none : ∀ text, Text.ofUtf8? bytes = some text →
      (Json.ofText? text >>= State.ofJson?) = none)
  | newer {text : String} {st : State} (utf8 : Text.ofUtf8? bytes = some text)
      (state : (Json.ofText? text >>= State.ofJson?) = some st) (newer : currentVersion < st.version)

theorem decode_of_unsupported (h : Unsupported bytes) {text : String}
    (ht : Text.ofUtf8? bytes = some text) : decode text ≠ .ok st := by
  intro hst
  unfold decode at hst
  cases h with
  | damaged hnone =>
      rw [hnone text ht] at hst
      cases hst
  | newer htext hstate hnewer =>
      rw [htext] at ht
      cases ht
      rw [hstate] at hst
      simp only [hnewer, if_true] at hst
      cases hst

/-- A state file that is not supported keeps the state from being changed. -/
theorem load_ne_ok_of_unsupported (hopen : s.IsOpen d) (hs : s.stateFile.size ≤ maxWaySize)
    (hb : d.bytes? s.stateFile.path = some bytes) (h : Unsupported bytes) :
    s.load now d ≠ .ok st := by
  intro hload
  have hfound : d.found? s.stateFile = some (.file bytes) :=
    (found?_of_reach (hopen.reach isName_state hs)).trans (get?_of_bytes? hb)
  have hfile : s.loadedFile? d = some s.stateFile := by
    unfold loadedFile?
    rw [has_eq_isSome, hfound]
    rfl
  have hread : d.read s.stateFile = .ok bytes := by
    unfold Disk.read
    rw [find_of_found? hfound]
    rfl
  rw [load] at hload
  rw [hfile] at hload
  obtain ⟨text, htext, hdecode⟩ := Except.bind_eq_ok_iff.1 hload
  unfold Disk.readText at htext
  rw [hread, Except.ok_bind] at htext
  split at htext
  · next hutf8 =>
      cases htext
      exact decode_of_unsupported h hutf8 hdecode
  · cases htext

variable {α : Type} {f : State → Except Problem (α × State)}

theorem update_ne_ok_of_unsupported (hb : d.bytes? s.stateFile.path = some bytes)
    (h : Unsupported bytes) {a : α} : s.update me f d ≠ (.ok a, d') := by
  intro hupdate
  rcases of_update hupdate with ⟨p, hp, -⟩ | ⟨d₁, d₂, hacquire, hrevise, -⟩
  · cases hp
  obtain ⟨st, st', hload, -, hsave⟩ := of_revise_ok hrevise
  obtain ⟨hheld, hc⟩ := held_of_acquire hacquire
  refine load_ne_ok_of_unsupported hheld.isOpen (size_le_of_save_ok hsave) ?_ h hload
  rw [hc.bytes _ (by simpa using s.state_ne_lock), hb]

theorem bytes?_update_of_unsupported (hb : d.bytes? s.stateFile.path = some bytes)
    (h : Unsupported bytes) : (s.update me f d).2.bytes? s.stateFile.path = some bytes := by
  rcases hupdate : s.update me f d with ⟨p | a, d'⟩
  · rw [(fails_of_update hupdate).confined.bytes, hb]
    simp [s.state_ne_lock, s.state_ne_staging, s.state_ne_backup]
  · exact absurd hupdate (update_ne_ok_of_unsupported hb h)

end Unsupported

end VirtualInfra.Store
