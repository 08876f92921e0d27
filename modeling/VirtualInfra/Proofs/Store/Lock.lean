import VirtualInfra.Proofs.Store.Paths
import VirtualInfra.Proofs.Store.Record

namespace VirtualInfra.Store

open Disk Way Json

namespace Holder

theorem ofJson?_toJson (h : Holder) : ofJson? h.toJson = some h := by
  rw [toJson, obj_eq_ofMembers]
  refine record?_ofMembers (by simp) ?_
  exact .bind (.required rfl (str?_str h.host))
    (.bind (.defaulted rfl (word32?_ofNat h.process))
    (.bind (.required rfl (timeOfJson?_timeJson h.since)) (.pure _)))

@[simp] theorem plain_toJson (h : Holder) : h.toJson.Plain := by
  simp [toJson]

end Holder

variable {s : Store} {d d' : Disk} {me h : Holder} {p : Problem} {bytes : List UInt8}

theorem readHolder_of_encode (hf : d.found? s.lockFile = some (.file h.encode)) :
    s.readHolder d = .ok h := by
  have hdecode : (Json.ofText? h.toJson.pretty >>= Holder.ofJson?) = some h := by
    rw [ofText?_pretty h.plain_toJson, Option.bind_eq_bind, Option.bind_some, h.ofJson?_toJson]
  refine Except.bind_eq_ok_iff.2 ⟨h.toJson.pretty, ?_, ?_⟩
  · rw [readText_of_found? hf]
    rfl
  · rw [hdecode]
    rfl

section Create

theorem sets_of_createLock (hc : s.createLock me d = .ok (true, d')) :
    d.reach s.lockFile = .ok s.lockFile.path ∧ d.get? s.lockFile.path = none ∧
      Sets s.lockFile.path (some (.file me.encode)) d d' := by
  unfold createLock at hc
  split at hc
  · next hcreate =>
      cases hc
      exact sets_of_create hcreate
  · cases hc
  · cases hc

theorem eq_of_createLock (hc : s.createLock me d = .ok (false, d')) : d' = d := by
  unfold createLock at hc
  split at hc
  · cases hc
  · cases hc
    rfl
  · cases hc

theorem createLock_of_free (hr : d.reach s.lockFile = .ok s.lockFile.path)
    (hfree : d.get? s.lockFile.path = none) (me : Holder) :
    ∃ d', s.createLock me d = .ok (true, d') := by
  unfold createLock
  rw [create_of_none hr hfree]
  exact ⟨_, rfl⟩

theorem createLock_of_taken (hr : d.reach s.lockFile = .ok s.lockFile.path)
    (hb : d.get? s.lockFile.path = some (.file bytes)) (me : Holder) :
    s.createLock me d = .ok (false, d) := by
  unfold createLock
  rw [create_of_some hr hb]

end Create

section Remove

theorem of_removeLock (hr : s.removeLock d = .ok d') :
    d' = d ∨ d.reach s.lockFile = .ok s.lockFile.path ∧
      (∃ bytes, d.get? s.lockFile.path = some (.file bytes)) ∧ Sets s.lockFile.path none d d' := by
  unfold removeLock at hr
  split at hr
  · next hremove =>
      cases hr
      exact .inr (sets_of_remove hremove)
  · cases hr
    exact .inl rfl
  · cases hr

theorem release_of_file (hr : d.reach s.lockFile = .ok s.lockFile.path)
    (hb : d.get? s.lockFile.path = some (.file bytes)) :
    ∃ d', s.release d = (.ok (), d') ∧ Sets s.lockFile.path none d d' := by
  refine ⟨_, ?_, .of_drop (ne_root_of_get? (by rw [hb]; nofun))⟩
  unfold release removeLock
  rw [remove_of_file hr hb]

end Remove

section Replace

theorem sets_of_replaceLock (hr : s.replaceLock me d = (.ok (), d')) :
    d.reach s.lockFile = .ok s.lockFile.path ∧ d.get? s.lockFile.path ≠ some .directory ∧
      Sets s.lockFile.path (some (.file me.encode)) d d' := by
  unfold replaceLock at hr
  split at hr
  · cases hr
  · next d₁ hremove =>
      split at hr
      · cases hr
      · next hcreate =>
          cases hr
          obtain ⟨hreach, hnone, hs⟩ := sets_of_createLock hcreate
          rcases of_removeLock hremove with rfl | ⟨hreach, ⟨bytes, hb⟩, hs'⟩
          · exact ⟨hreach, by rw [hnone]; nofun, hs⟩
          · exact ⟨hreach, by rw [hb]; nofun, hs'.trans hs⟩
      · cases hr

theorem eq_of_replaceLock (hr : s.replaceLock me d = (.error p, d')) : d' = d := by
  unfold replaceLock at hr
  split at hr
  · cases hr
    rfl
  · next d₁ hremove =>
      rcases of_removeLock hremove with rfl | ⟨hreach, ⟨bytes, hb⟩, hs⟩
      · split at hr
        · cases hr
          rfl
        · cases hr
        · next hcreate =>
            cases hr
            exact eq_of_createLock hcreate
      · have hspared := hs.spares (by rw [hb]; nofun)
        obtain ⟨d₂, hcreate⟩ := createLock_of_free (reach_of_spares hreach hspared) hs.self me
        rw [hcreate] at hr
        cases hr

theorem replaceLock_of_file (hr : d.reach s.lockFile = .ok s.lockFile.path)
    (hb : d.get? s.lockFile.path = some (.file bytes)) (me : Holder) :
    ∃ d', s.replaceLock me d = (.ok (), d') := by
  have hs := Sets.of_drop (d := d) (ne_root_of_get? (by rw [hb]; nofun))
  have hreach := reach_of_spares hr (hs.spares (by rw [hb]; nofun))
  obtain ⟨d', hcreate⟩ := createLock_of_free hreach hs.self me
  refine ⟨d', ?_⟩
  unfold replaceLock removeLock
  rw [remove_of_file hr hb]
  simp only [hcreate]

end Replace

theorem acquire_eq (s : Store) (me : Holder) (d : Disk) :
    ∃ d₁, Grows s.onTheWay d d₁ ∧ ((∃ f, s.acquire me d = (.error (.disk f), d₁)) ∨
      s.acquire me d = match s.createLock me d₁ with
        | .error p => (.error p, d₁)
        | .ok (true, d₂) => (.ok (), d₂)
        | .ok (false, d₂) =>
          match s.readHolder d₂ with
          | .error p => (.error p, d₂)
          | .ok holder =>
            if holder.isFresh me.since then (.error (.lock holder.text), d₂)
            else s.replaceLock me d₂) := by
  have hgrows := s.grows_makeDirectory d
  rw [acquire]
  split
  · next f d₁ hmake =>
      rw [hmake] at hgrows
      exact ⟨d₁, hgrows, .inl ⟨f, rfl⟩⟩
  · next d₁ hmake =>
      rw [hmake] at hgrows
      exact ⟨d₁, hgrows, .inr rfl⟩

theorem sets_of_acquire (ha : s.acquire me d = (.ok (), d')) :
    ∃ d₁, Grows s.onTheWay d d₁ ∧ d₁.reach s.lockFile = .ok s.lockFile.path ∧
      d₁.get? s.lockFile.path ≠ some .directory ∧
      (d₁.get? s.lockFile.path = none ∨
        ∃ holder, s.readHolder d₁ = .ok holder ∧ holder.isFresh me.since = false) ∧
      Sets s.lockFile.path (some (.file me.encode)) d₁ d' := by
  obtain ⟨d₁, hgrows, ⟨f, hf⟩ | heq⟩ := acquire_eq s me d
  · rw [ha] at hf
    cases hf
  · refine ⟨d₁, hgrows, ?_⟩
    rw [ha] at heq
    split at heq
    · cases heq
    · next hcreate =>
        cases heq
        obtain ⟨hreach, hnone, hs⟩ := sets_of_createLock hcreate
        exact ⟨hreach, by rw [hnone]; nofun, .inl hnone, hs⟩
    · next hcreate =>
        cases eq_of_createLock hcreate
        split at heq
        · cases heq
        · next holder hholder =>
            split at heq
            · cases heq
            · next hold =>
                obtain ⟨hreach, hne, hs⟩ := sets_of_replaceLock heq.symm
                exact ⟨hreach, hne, .inr ⟨holder, hholder, Bool.eq_false_iff.2 hold⟩, hs⟩

theorem grows_of_acquire_error (ha : s.acquire me d = (.error p, d')) : Grows s.onTheWay d d' := by
  obtain ⟨d₁, hgrows, ⟨f, hf⟩ | heq⟩ := acquire_eq s me d
  · rw [ha] at hf
    cases hf
    exact hgrows
  · rw [ha] at heq
    split at heq
    · cases heq
      exact hgrows
    · cases heq
    · next hcreate =>
        cases eq_of_createLock hcreate
        split at heq
        · cases heq
          exact hgrows
        · split at heq
          · cases heq
            exact hgrows
          · cases eq_of_replaceLock heq.symm
            exact hgrows

theorem makeDirectory_of_reach (hr : d.reach s.lockFile = .ok s.lockFile.path) :
    s.makeDirectory d = (.ok (), d) := by
  have hsize := Nat.le_trans (s.size_directory_le "lock.json") (size_le_of_reach hr)
  have hthere := (isOpen_of_reach isName_lock hr).has_directory hsize
  rw [makeDirectory, if_pos hthere]

theorem acquire_of_free (hr : d.reach s.lockFile = .ok s.lockFile.path)
    (hfree : d.get? s.lockFile.path = none) (me : Holder) :
    ∃ d', s.acquire me d = (.ok (), d') := by
  obtain ⟨d', hcreate⟩ := createLock_of_free hr hfree me
  refine ⟨d', ?_⟩
  rw [acquire, makeDirectory_of_reach hr]
  simp only [hcreate]

theorem acquire_of_file (hr : d.reach s.lockFile = .ok s.lockFile.path)
    (hb : d.get? s.lockFile.path = some (.file bytes)) (me : Holder) :
    s.acquire me d = match s.readHolder d with
      | .error p => (.error p, d)
      | .ok holder =>
        if holder.isFresh me.since then (.error (.lock holder.text), d) else s.replaceLock me d := by
  rw [acquire, makeDirectory_of_reach hr]
  cases hread : s.readHolder d with
  | error p => simp only [createLock_of_taken hr hb me, hread]
  | ok holder => simp only [createLock_of_taken hr hb me, hread]

end VirtualInfra.Store
