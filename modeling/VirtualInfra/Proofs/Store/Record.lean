import VirtualInfra.Proofs.Machine.Record
import VirtualInfra.Proofs.Timestamp
import VirtualInfra.Store

namespace VirtualInfra.Store

open Json

theorem timeOfJson?_timeJson (t : Timestamp) : timeOfJson? (timeJson t) = some t :=
  t.ofText?_text

@[simp] theorem plain_timeJson (t : Timestamp) : (timeJson t).Plain := .str _

theorem Stored.ofJson?_toJson (s : Stored) : ofJson? s.toJson = some s := by
  refine record?_ofMembers (by simp) ?_
  exact .bind (.required rfl s.machine.ofJson?_toJson)
    (.bind (.omittable rfl Instance.ofJson?_toJson nofun)
    (.bind (.required rfl (timeOfJson?_timeJson s.created))
    (.bind (.required rfl (timeOfJson?_timeJson s.updated)) (.pure _))))

@[simp] theorem Stored.plain_toJson (s : Stored) : s.toJson.Plain := by
  simp [toJson]

theorem State.ofJson?_toJson (s : State) : ofJson? s.toJson = some s := by
  rw [toJson, obj_eq_ofMembers]
  refine record?_ofMembers (by simp) ?_
  exact .bind (.required rfl (word32?_ofNat s.version))
    (.bind (.required rfl (timeOfJson?_timeJson s.updated))
    (.bind (.required rfl (table?_ofTable Stored.ofJson?_toJson s.machines)) (.pure _)))

@[simp] theorem State.plain_toJson (s : State) : s.toJson.Plain := by
  simp [toJson]

theorem ofText?_pretty_toJson (s : State) :
    Json.ofText? s.toJson.pretty >>= State.ofJson? = some s := by
  rw [ofText?_pretty s.plain_toJson, Option.bind_eq_bind, Option.bind_some, State.ofJson?_toJson]

theorem decode_pretty {s : State} (h : s.version ≤ currentVersion) :
    decode s.toJson.pretty = .ok s := by
  rw [decode]
  rw [ofText?_pretty_toJson]
  simp only []
  rw [if_neg (UInt32.not_lt.2 h)]
  rfl

def newerText (version : UInt32) : String :=
  s!"state file version {version.toNat} is newer than supported version {currentVersion.toNat}"

theorem decode_pretty_of_newer {s : State} (h : currentVersion < s.version) :
    decode s.toJson.pretty = .error (.stateFile (newerText s.version)) := by
  rw [decode]
  rw [ofText?_pretty_toJson]
  simp only []
  rw [if_pos h]
  rfl

section Loading

variable {s : Store} {d : Disk} {text : String}

theorem load_of_state (hstate : d.has s.stateFile = true)
    (htext : d.readText s.stateFile = .ok text) (now : Timestamp) :
    s.load now d = decode text := by
  unfold load loadedFile?
  rw [hstate]
  simp only [if_true]
  rw [htext]
  rfl

theorem load_of_backup (hstate : d.has s.stateFile = false) (hbackup : d.has s.backupFile = true)
    (htext : d.readText s.backupFile = .ok text) (now : Timestamp) :
    s.load now d = decode text := by
  unfold load loadedFile?
  rw [hstate, hbackup]
  simp only [if_true, Bool.false_eq_true, if_false]
  rw [htext]
  rfl

theorem load_of_neither (hstate : d.has s.stateFile = false) (hbackup : d.has s.backupFile = false)
    (now : Timestamp) : s.load now d = .ok (.initial now) := by
  unfold load loadedFile?
  rw [hstate, hbackup]
  rfl

end Loading

end VirtualInfra.Store
