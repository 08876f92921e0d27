import VirtualInfra.Proofs.Store.Paths
import VirtualInfra.Proofs.Store.Record

namespace VirtualInfra.Store

open Disk

variable {s : Store} {d d' : Disk} {bytes : List UInt8} {f : Failure} {p : Problem} {st : State}
  {step : SaveStep} {front back steps : List SaveStep} {ps : List Path} {now : Timestamp}

section Attempt

variable {x : Except Failure Disk}

theorem of_attempt_ok (h : d.attempt x = (.ok (), d')) : x = .ok d' := by
  cases x with
  | error f => cases h
  | ok d₁ =>
      cases h
      rfl

theorem of_attempt_error (h : d.attempt x = (.error f, d')) : d' = d := by
  cases x with
  | error g =>
      cases h
      rfl
  | ok d₁ => cases h

theorem confined_attempt (h : ∀ d', x = .ok d' → Confined ps d d') :
    Confined ps d (d.attempt x).2 := by
  cases x with
  | error f => exact .refl _ _
  | ok d' => exact h d' rfl

end Attempt

def SaveStep.paths (s : Store) : SaveStep → List Path
  | .makeDirectory => []
  | .stage => [s.stagingFile.path]
  | .backUp => [s.backupFile.path]
  | .replace => [s.stagingFile.path, s.stateFile.path]

theorem confined_run (s : Store) (bytes : List UInt8) (step : SaveStep) (d : Disk) :
    Confined (step.paths s) d (step.run s bytes d).2 := by
  cases step with
  | makeDirectory => exact .of_grows (s.grows_makeDirectory d)
  | stage =>
      refine confined_attempt fun d' h => ?_
      obtain ⟨-, hp, hs⟩ := sets_of_write h
      exact .of_sets hs hp
  | backUp =>
      rw [SaveStep.run, Store.backUp]
      split
      · refine confined_attempt fun d' h => ?_
        obtain ⟨bytes, -, hw⟩ := write_of_copy h
        obtain ⟨-, hp, hs⟩ := sets_of_write hw
        exact .of_sets hs hp
      · exact .refl _ _
  | replace =>
      refine confined_attempt fun d' h => ?_
      obtain ⟨bytes, d₁, hb, -, hs, hp, hs'⟩ := sets_of_rename h
      have hgone := Confined.of_sets hs (by rw [hb]; nofun)
      exact (hgone.mono (List.subset_append_left _ _)).trans
        ((Confined.of_sets hs' hp).mono (List.subset_append_right [s.stagingFile.path] _))

theorem confined_runAll (hps : ∀ step ∈ steps, step.paths s ⊆ ps) (d : Disk) :
    Confined ps d (SaveStep.runAll s bytes steps d).2 := by
  induction steps generalizing d with
  | nil => exact .refl _ _
  | cons step steps ih =>
      have hfirst := (confined_run s bytes step d).mono (hps step List.mem_cons_self)
      rw [SaveStep.runAll]
      split
      · next d₁ hrun =>
          rw [hrun] at hfirst
          exact hfirst.trans (ih (fun step hm => hps step (List.mem_cons_of_mem _ hm)) d₁)
      · exact hfirst

theorem of_runAll_append (h : SaveStep.runAll s bytes (front ++ back) d = (.ok (), d')) :
    ∃ d₁, SaveStep.runAll s bytes front d = (.ok (), d₁) ∧
      SaveStep.runAll s bytes back d₁ = (.ok (), d') := by
  induction front generalizing d with
  | nil => exact ⟨d, rfl, h⟩
  | cons step front ih =>
      rw [List.cons_append, SaveStep.runAll] at h
      split at h
      · next d₁ hrun =>
          obtain ⟨d₂, hfront, hback⟩ := ih h
          refine ⟨d₂, ?_, hback⟩
          rw [SaveStep.runAll, hrun]
          exact hfront
      · next hne => exact absurd h (hne d')

theorem of_runAll_singleton (h : SaveStep.runAll s bytes [step] d = (.ok (), d')) :
    step.run s bytes d = (.ok (), d') := by
  rw [SaveStep.runAll] at h
  split at h
  · next d₁ hrun =>
      cases h
      exact hrun
  · exact h

/-- A failure before the last step or in it leaves the files of that step alone. -/
theorem confined_of_runAll_error (hps : ∀ step ∈ front, step.paths s ⊆ ps)
    (h : SaveStep.runAll s bytes (front ++ [.replace]) d = (.error f, d')) : Confined ps d d' := by
  induction front generalizing d with
  | nil =>
      rw [List.nil_append, SaveStep.runAll] at h
      split at h
      · cases h
      · cases of_attempt_error h
        exact .refl _ _
  | cons step front ih =>
      have hfirst := (confined_run s bytes step d).mono (hps step List.mem_cons_self)
      rw [List.cons_append, SaveStep.runAll] at h
      split at h
      · next d₁ hrun =>
          rw [hrun] at hfirst
          exact hfirst.trans (ih (fun step hm => hps step (List.mem_cons_of_mem _ hm)) h)
      · rw [h] at hfirst
        exact hfirst

def preparation : List SaveStep := [.makeDirectory, .stage, .backUp]

theorem paths_subset_of_preparation (hm : step ∈ preparation) :
    step.paths s ⊆ [s.stagingFile.path, s.backupFile.path] := by
  cases step with
  | makeDirectory => exact List.nil_subset _
  | stage => exact List.subset_append_left [s.stagingFile.path] _
  | backUp => exact List.subset_append_right [s.stagingFile.path] _
  | replace => exact absurd hm (by decide)

theorem confined_save (s : Store) (st : State) (d : Disk) :
    Confined [s.stagingFile.path, s.backupFile.path, s.stateFile.path] d (s.save st d).2 := by
  change Confined _ d (SaveStep.runAll s (encode st) (preparation ++ [.replace]) d).2
  apply confined_runAll
  intro step hm
  rcases List.mem_append.1 hm with hm | hm
  · exact List.Subset.trans (paths_subset_of_preparation hm)
      (List.subset_append_left [_, _] [s.stateFile.path])
  · rw [List.mem_singleton.1 hm]
    exact List.cons_subset_cons _ (List.subset_cons_self _ _)

theorem run_of_save_ok (h : s.save st d = (.ok (), d')) :
    SaveStep.runAll s (encode st) (preparation ++ [.replace]) d = (.ok (), d') := by
  rw [save] at h
  split at h
  next r d₁ hrun =>
    cases r with
    | error f => cases h
    | ok =>
        cases h
        exact hrun

theorem run_of_save_error (h : s.save st d = (.error p, d')) :
    ∃ f, SaveStep.runAll s (encode st) (preparation ++ [.replace]) d = (.error f, d') := by
  rw [save] at h
  split at h
  next r d₁ hrun =>
    cases r with
    | error f =>
        cases h
        exact ⟨f, hrun⟩
    | ok => cases h

theorem confined_of_save_error (h : s.save st d = (.error p, d')) :
    Confined [s.stagingFile.path, s.backupFile.path] d d' := by
  obtain ⟨f, hrun⟩ := run_of_save_error h
  exact confined_of_runAll_error (fun _ hm => paths_subset_of_preparation hm) hrun

theorem write_of_run_stage (h : SaveStep.run s bytes d .stage = (.ok (), d')) :
    d.write s.stagingFile bytes = .ok d' := of_attempt_ok h

theorem staging_of_run_backUp (h : SaveStep.run s bytes d .backUp = (.ok (), d')) :
    d'.get? s.stagingFile.path = d.get? s.stagingFile.path := by
  rw [SaveStep.run, backUp] at h
  split at h
  · obtain ⟨bytes, -, hw⟩ := write_of_copy (of_attempt_ok h)
    obtain ⟨-, -, hs⟩ := sets_of_write hw
    exact hs.other s.backup_ne_staging.symm
  · cases h
    rfl

theorem staged_of_preparation (h : SaveStep.runAll s bytes preparation d = (.ok (), d')) :
    s.stagingFile.size ≤ maxWaySize ∧ d'.get? s.stagingFile.path = some (.file bytes) := by
  obtain ⟨d₂, hfront, hcopy⟩ := of_runAll_append
    (show SaveStep.runAll s bytes ([.makeDirectory, .stage] ++ [.backUp]) d = _ from h)
  obtain ⟨d₁, -, hstage⟩ := of_runAll_append
    (show SaveStep.runAll s bytes ([.makeDirectory] ++ [.stage]) d = _ from hfront)
  obtain ⟨hreach, -, hs⟩ := sets_of_write (write_of_run_stage (of_runAll_singleton hstage))
  refine ⟨size_le_of_reach hreach, ?_⟩
  rw [staging_of_run_backUp (of_runAll_singleton hcopy), hs.self]

theorem found?_of_run_replace (hstaged : d.get? s.stagingFile.path = some (.file bytes))
    (h : SaveStep.run s bytes d .replace = (.ok (), d')) :
    d'.found? s.stateFile = some (.file bytes) ∧ d'.get? s.stagingFile.path = none := by
  obtain ⟨moved, d₁, hb, hreach, hs, hp, hs'⟩ := sets_of_rename (of_attempt_ok h)
  rw [hstaged] at hb
  cases hb
  have hspares := hs.spares (by rw [hstaged]; nofun)
  refine ⟨?_, ?_⟩
  · rw [found?_of_reach (reach_of_spares (reach_of_spares hreach hspares) (hs'.spares hp)), hs'.self]
  · rw [hs'.other s.state_ne_staging.symm, hs.self]

/-- When all steps are done the state is saved, and nothing is left of the staging. -/
theorem found?_of_save_ok (h : s.save st d = (.ok (), d')) :
    d'.found? s.stateFile = some (.file (encode st)) ∧ d'.get? s.stagingFile.path = none := by
  obtain ⟨d₁, hfront, hreplace⟩ := of_runAll_append (run_of_save_ok h)
  exact found?_of_run_replace (staged_of_preparation hfront).2 (of_runAll_singleton hreplace)

theorem size_le_of_save_ok (h : s.save st d = (.ok (), d')) : s.stateFile.size ≤ maxWaySize := by
  obtain ⟨d₁, hfront, -⟩ := of_runAll_append (run_of_save_ok h)
  -- the staging was written, and its name is the longer one
  have hle : s.stateFile.size ≤ s.stagingFile.size := Way.size_child_le (by decide)
  exact Nat.le_trans hle (staged_of_preparation hfront).1

theorem load_eq_decode (h : d.found? s.stateFile = some (.file (encode st))) (now : Timestamp) :
    s.load now d = decode st.toJson.pretty := by
  have hthere : d.has s.stateFile = true := by
    rw [has_eq_isSome, h]
    rfl
  exact load_of_state hthere (readText_of_found? h) now

theorem load_of_found? (h : d.found? s.stateFile = some (.file (encode st)))
    (hv : st.version ≤ currentVersion) (now : Timestamp) : s.load now d = .ok st :=
  (load_eq_decode h now).trans (decode_pretty hv)

end VirtualInfra.Store
