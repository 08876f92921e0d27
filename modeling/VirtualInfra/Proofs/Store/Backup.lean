import VirtualInfra.Proofs.Store.Update

namespace VirtualInfra.Store

open Disk

variable {s : Store} {base : Path} {d : Disk} {files : Files} {now : Timestamp} {st : State}
  {saved : List State}

structure Shelved (files : Files) (saved : List State) : Prop where
  state : files "state.json" = saved[0]?.map encode
  backup : files "state.json.backup" = saved[1]?.map encode
  staging : files "state.json.tmp" = none
  lock : files "lock.json" = none

def latest (now : Timestamp) (saved : List State) : State :=
  saved.head?.getD (.initial now)

theorem version_latest (hv : ∀ st ∈ saved, st.version ≤ currentVersion) (now : Timestamp) :
    (latest now saved).version ≤ currentVersion := by
  cases saved with
  | nil => exact UInt32.le_refl _
  | cons st rest => exact hv st List.mem_cons_self

theorem machines_latest (saved : List State) (now later : Timestamp) :
    (latest now saved).machines = (latest later saved).machines := by
  cases saved <;> rfl

namespace Shelved

theorem empty : Shelved (fun _ => none) [] := ⟨rfl, rfl, rfl, rfl⟩

theorem loads (h : Shelved files saved) (hv : ∀ st ∈ saved, st.version ≤ currentVersion) :
    Loads now files (latest now saved) := by
  cases saved with
  | nil => exact .initial h.state h.backup
  | cons st rest => exact .saved h.state (hv st List.mem_cons_self)

/-- What was the state is the backup now, and what was the backup is gone. -/
theorem save {files' : Files} (h : Shelved files saved) (hs : Saved files st files') :
    Shelved files' (st :: saved) where
  state := hs.state
  backup := by
    rw [hs.backup, h.state, h.backup]
    cases saved <;> rfl
  staging := hs.staging
  lock := hs.lock.trans h.lock

end Shelved

theorem Shows.load_backup (h : s.Shows base d files) (hf : s.Fits)
    (hstate : files "state.json" = none) (hbackup : files "state.json.backup" = some (encode st))
    (hv : st.version ≤ currentVersion) : s.load now d = .ok st := by
  have hmissing : d.has s.stateFile = false := by
    rw [stateFile, h.has hf.stateFile, hstate]
    rfl
  have hthere : d.has s.backupFile = true := by
    rw [Store.backupFile, h.has hf.backupFile, hbackup]
    rfl
  rw [load_of_backup hmissing hthere (h.readText hf.backupFile hbackup), decode_pretty hv]

/-- The store is free, and these states were saved in it, the last one first. -/
inductive Records (s : Store) (d : Disk) : List State → Prop
  | vacant {base : Path} (h : s.Vacant base d) : Records s d []
  | shown {base : Path} {files : Files} {saved : List State} (h : s.Shows base d files)
      (shelved : Shelved files saved) (versions : ∀ st ∈ saved, st.version ≤ currentVersion) :
      Records s d saved

namespace Records

theorem versions (h : s.Records d saved) : ∀ st ∈ saved, st.version ≤ currentVersion := by
  cases h with
  | vacant => exact List.forall_mem_nil _
  | shown _ _ versions => exact versions

theorem load (h : s.Records d saved) (hf : s.Fits) (now : Timestamp) :
    s.load now d = .ok (latest now saved) := by
  cases h with
  | vacant h => exact h.load hf
  | shown h shelved versions => exact h.load hf (shelved.loads versions)

section Update

variable {α : Type} {f : State → Except Problem (α × State)}

theorem exists_shows (h : s.Records d saved) (hf : s.Fits) (me : Holder)
    (f : State → Except Problem (α × State)) :
    ∃ base d₁ files, s.Shows base d₁ files ∧ Shelved files saved ∧
      s.update me f d = s.update me f d₁ := by
  cases h with
  | vacant h =>
      obtain ⟨d₁, h₁, heq⟩ := h.update_eq hf me f
      exact ⟨_, d₁, _, h₁, .empty, heq⟩
  | shown h shelved => exact ⟨_, d, _, h, shelved, rfl⟩

theorem update_of_error (h : s.Records d saved) (hf : s.Fits) (me : Holder) {p : Problem}
    (hp : f (latest me.since saved) = .error p) :
    ∃ d', s.update me f d = (.error p, d') ∧ s.Records d' saved := by
  obtain ⟨base, d₁, files, h₁, hshelved, heq⟩ := h.exists_shows hf me f
  obtain ⟨d', hd', h'⟩ := h₁.update_of_error hf hshelved.lock (hshelved.loads h.versions) hp
  exact ⟨d', heq.trans hd', .shown h' hshelved h.versions⟩

theorem update_of_ok (h : s.Records d saved) (hf : s.Fits) (me : Holder) {a : α}
    (ha : f (latest me.since saved) = .ok (a, st)) (hv : st.version ≤ currentVersion) :
    ∃ d', s.update me f d = (.ok a, d') ∧ s.Records d' (st :: saved) := by
  obtain ⟨base, d₁, files, h₁, hshelved, heq⟩ := h.exists_shows hf me f
  obtain ⟨d', files', hd', h', hsaved⟩ :=
    h₁.update_of_ok hf hshelved.lock (hshelved.loads h.versions) ha
  have hversions : ∀ st₁ ∈ st :: saved, st₁.version ≤ currentVersion :=
    List.forall_mem_cons.2 ⟨hv, h.versions⟩
  exact ⟨d', heq.trans hd', .shown h' (hshelved.save hsaved) hversions⟩

end Update

/-- When the state file is taken away, the state before the last one is loaded. -/
theorem load_of_remove (h : s.Records d (st :: saved)) (hf : s.Fits) :
    ∃ d', d.remove s.stateFile = .ok d' ∧ ∀ now, s.load now d' = .ok (latest now saved) := by
  cases h with
  | shown h shelved versions =>
      obtain ⟨d', hd', h'⟩ := h.remove hf.stateFile shelved.state
      refine ⟨d', hd', fun now => ?_⟩
      have hbackup : Function.update _ "state.json" none "state.json.backup" = _ :=
        (Function.update_of_ne (by decide) ..).trans shelved.backup
      cases saved with
      | nil => exact h'.load hf (.initial (Function.update_self ..) hbackup)
      | cons st' rest =>
          exact h'.load_backup hf (Function.update_self ..) hbackup
            (versions st' (List.mem_cons_of_mem _ List.mem_cons_self))

theorem readText_stateFile (h : s.Records d (st :: saved)) (hf : s.Fits) :
    d.readText s.stateFile = .ok st.toJson.pretty := by
  cases h with
  | shown h shelved => exact h.readText hf.stateFile shelved.state

theorem has_stagingFile (h : s.Records d (st :: saved)) (hf : s.Fits) :
    d.has s.stagingFile = false := by
  cases h with
  | shown h shelved => rw [stagingFile, h.has hf.stagingFile, shelved.staging]; rfl

theorem has_lockFile (h : s.Records d (st :: saved)) (hf : s.Fits) :
    d.has s.lockFile = false := by
  cases h with
  | shown h shelved => rw [lockFile, h.has hf.lockFile, shelved.lock]; rfl

end Records

end VirtualInfra.Store
