import VirtualInfra.Proofs.Disk.Effect
import VirtualInfra.Proofs.Store.Files

namespace VirtualInfra.Store

open Disk Way

variable {s : Store} {d d' : Disk} {name other : String} {p : Path} {now : Timestamp}

theorem path_child_ne (hn : IsName name) (ho : IsName other) (h : name ≠ other) (w : Way) :
    (w.child name).path ≠ (w.child other).path := by
  rw [path_child hn, path_child ho]
  simpa using h

theorem state_ne_backup (s : Store) : s.stateFile.path ≠ s.backupFile.path :=
  path_child_ne isName_state isName_backup (by decide) _

theorem state_ne_staging (s : Store) : s.stateFile.path ≠ s.stagingFile.path :=
  path_child_ne isName_state isName_staging (by decide) _

theorem state_ne_lock (s : Store) : s.stateFile.path ≠ s.lockFile.path :=
  path_child_ne isName_state isName_lock (by decide) _

theorem backup_ne_staging (s : Store) : s.backupFile.path ≠ s.stagingFile.path :=
  path_child_ne isName_backup isName_staging (by decide) _

theorem backup_ne_lock (s : Store) : s.backupFile.path ≠ s.lockFile.path :=
  path_child_ne isName_backup isName_lock (by decide) _

theorem staging_ne_lock (s : Store) : s.stagingFile.path ≠ s.lockFile.path :=
  path_child_ne isName_staging isName_lock (by decide) _

def onTheWay (s : Store) : List Path := passed s.directory.start s.directory.names

theorem grows_makeDirectory (s : Store) (d : Disk) : Grows s.onTheWay d (s.makeDirectory d).2 := by
  rw [makeDirectory]
  split
  · exact .refl _ _
  · exact grows_makeDirectories d s.directory

structure IsOpen (s : Store) (d : Disk) : Prop where
  leads : d.Leads s.directory s.directory.path
  made : d.get? s.directory.path = some .directory

theorem isOpen_of_reach (hn : IsName name) (h : d.reach (s.directory.child name) = .ok p) :
    s.IsOpen d := by
  obtain ⟨-, -, hleads, -⟩ := reach_eq_ok_iff.1 h
  unfold Leads at hleads
  rw [names_child hn, List.foldlM_append] at hleads
  obtain ⟨q, hq, hstep⟩ := Except.bind_eq_ok_iff.1 hleads
  have hpath : q = s.directory.path := Leads.eq_path hq
  subst hpath
  rw [List.foldlM_cons] at hstep
  obtain ⟨r, hr, -⟩ := Except.bind_eq_ok_iff.1 hstep
  exact ⟨hq, (step_eq_ok_iff.1 hr).1⟩

theorem size_le_of_reach (h : d.reach (s.directory.child name) = .ok p) :
    (s.directory.child name).size ≤ maxWaySize :=
  (reach_eq_ok_iff.1 h).2.1

namespace IsOpen

theorem spared (h : s.IsOpen d) (hs : d.Spares d') : s.IsOpen d' :=
  ⟨h.leads.spared hs, hs _ h.made⟩

theorem reach (h : s.IsOpen d) (hn : IsName name)
    (hs : (s.directory.child name).size ≤ maxWaySize) :
    d.reach (s.directory.child name) = .ok (s.directory.child name).path := by
  rw [path_child hn]
  exact h.leads.reach_child h.made hn hs

/-- Two disks on which the directory is there differ in a file only if they differ at its path. -/
theorem found?_eq (h : s.IsOpen d) (h' : s.IsOpen d') (hn : IsName name)
    (he : d'.get? (s.directory.child name).path = d.get? (s.directory.child name).path) :
    d'.found? (s.directory.child name) = d.found? (s.directory.child name) := by
  by_cases hs : (s.directory.child name).size ≤ maxWaySize
  · rw [found?_of_reach (h.reach hn hs), found?_of_reach (h'.reach hn hs), he]
  · have hlong (d : Disk) : d.reach (s.directory.child name) = .error .nameTooLong := by
      rw [Disk.reach]
      rw [if_neg (size_child_pos hn), if_pos (Nat.not_le.1 hs)]
      rfl
    rw [found?_of_error (hlong d), found?_of_error (hlong d')]

theorem has_directory (h : s.IsOpen d) (hs : s.directory.size ≤ maxWaySize) :
    d.has s.directory = true := by
  have hpos : s.directory.size ≠ 0 := size_child_pos isName_directory
  have hreach : d.reach s.directory = .ok s.directory.path :=
    h.leads.reach hpos hs (meansDirectory_child isName_directory)
  have hfind : d.find s.directory = .ok (some .directory) := by
    unfold Disk.find
    rw [hreach]
    exact congrArg Except.ok h.made
  unfold has
  rw [hfind]

end IsOpen

/-- What is loaded from the two disks is alike: the state, and the backup if there is no state. -/
structure Alike (s : Store) (d d' : Disk) : Prop where
  state : d'.found? s.stateFile = d.found? s.stateFile
  backup : d.found? s.stateFile = none → d'.found? s.backupFile = d.found? s.backupFile

namespace Alike

theorem refl (s : Store) (d : Disk) : s.Alike d d := ⟨rfl, fun _ => rfl⟩

theorem trans {d'' : Disk} (h : s.Alike d d') (h' : s.Alike d' d'') : s.Alike d d'' :=
  ⟨h'.state.trans h.state, fun hnone => (h'.backup (h.state.trans hnone)).trans (h.backup hnone)⟩

theorem readText_eq {w : Way} (h : d'.found? w = d.found? w) (hw : d.has w = true) :
    d'.readText w = d.readText w := by
  rw [has_eq_isSome, Option.isSome_iff_exists] at hw
  obtain ⟨e, he⟩ := hw
  unfold Disk.readText Disk.read
  rw [find_of_found? he, find_of_found? (h.trans he)]

theorem load (h : s.Alike d d') (now : Timestamp) : s.load now d' = s.load now d := by
  have hhas : d'.has s.stateFile = d.has s.stateFile := by
    rw [has_eq_isSome, has_eq_isSome, h.state]
  unfold Store.load loadedFile?
  rw [hhas]
  cases hs : d.has s.stateFile with
  | true =>
      simp only [if_true]
      rw [readText_eq h.state hs]
  | false =>
      rw [has_eq_isSome, Option.isSome_eq_false_iff, Option.isNone_iff_eq_none] at hs
      have hb := h.backup hs
      have hhasb : d'.has s.backupFile = d.has s.backupFile := by
        rw [has_eq_isSome, has_eq_isSome, hb]
      simp only [Bool.false_eq_true, if_false]
      rw [hhasb]
      cases hbs : d.has s.backupFile with
      | true =>
          simp only [if_true]
          rw [readText_eq hb hbs]
      | false => rfl

end Alike

end VirtualInfra.Store
