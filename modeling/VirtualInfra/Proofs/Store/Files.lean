import Mathlib.Logic.Function.Basic
import VirtualInfra.Proofs.Disk
import VirtualInfra.Store

namespace VirtualInfra.Store

open Disk Way

abbrev Files := String → Option (List UInt8)

structure Allows (s : Store) (name : String) : Prop where
  isName : IsName name
  size_le : (s.directory.child name).size ≤ maxWaySize

def place (base : Path) : Path := base ++ [".kubevim"]

/-- The disk shows these files of the store, the root of which is at a path. -/
structure Shows (s : Store) (base : Path) (d : Disk) (files : Files) : Prop where
  leads : d.Leads s.root base
  based : d.get? base = some .directory
  made : d.get? (place base) = some .directory
  holds : ∀ name, s.Allows name → d.get? (place base ++ [name]) = (files name).map .file

section Names

theorem isName_directory : IsName ".kubevim" := ⟨by decide, by decide, by decide, by decide⟩

theorem isName_state : IsName "state.json" := ⟨by decide, by decide, by decide, by decide⟩

theorem isName_backup : IsName "state.json.backup" := ⟨by decide, by decide, by decide, by decide⟩

theorem isName_staging : IsName "state.json.tmp" := ⟨by decide, by decide, by decide, by decide⟩

theorem isName_lock : IsName "lock.json" := ⟨by decide, by decide, by decide, by decide⟩

theorem size_directory_le (s : Store) (name : String) :
    s.directory.size ≤ (s.directory.child name).size := by
  have hbefore : s.directory.before = s.directory.segments := by
    rw [before]
    rw [if_neg]
    change (s.root.before ++ [".kubevim"]).getLast? ≠ some ""
    rw [List.getLast?_concat]
    decide
  have hsize := size_eq s.directory
  rw [size_child, hbefore]
  omega

/-- The longest of the ways to the files is not too long. -/
def Fits (s : Store) : Prop := s.backupFile.size ≤ maxWaySize

variable {s : Store}

theorem Fits.allows (h : s.Fits) {name : String} (hn : IsName name)
    (hs : name.utf8ByteSize ≤ "state.json.backup".utf8ByteSize) : s.Allows name :=
  ⟨hn, Nat.le_trans (size_child_le hs) h⟩

theorem Fits.stateFile (h : s.Fits) : s.Allows "state.json" :=
  h.allows isName_state (by decide)

theorem Fits.backupFile (h : s.Fits) : s.Allows "state.json.backup" :=
  h.allows isName_backup (by decide)

theorem Fits.stagingFile (h : s.Fits) : s.Allows "state.json.tmp" :=
  h.allows isName_staging (by decide)

theorem Fits.lockFile (h : s.Fits) : s.Allows "lock.json" :=
  h.allows isName_lock (by decide)

theorem Fits.directory (h : s.Fits) : s.directory.size ≤ maxWaySize :=
  Nat.le_trans (s.size_directory_le "state.json.backup") h

end Names

namespace Shows

variable {s : Store} {base : Path} {d : Disk} {files : Files} {name : String}

theorem reach (h : s.Shows base d files) (hn : s.Allows name) :
    d.reach (s.directory.child name) = .ok (place base ++ [name]) :=
  (h.leads.child h.based isName_directory).reach_child h.made hn.isName hn.size_le

theorem ne_directory (h : s.Shows base d files) (hn : s.Allows name) :
    d.get? (place base ++ [name]) ≠ some .directory := by
  rw [h.holds name hn]
  cases files name <;> nofun

theorem find (h : s.Shows base d files) (hn : s.Allows name) :
    d.find (s.directory.child name) = .ok ((files name).map .file) := by
  rw [Disk.find]
  rw [h.reach hn, ← h.holds name hn]
  rfl

theorem has (h : s.Shows base d files) (hn : s.Allows name) :
    d.has (s.directory.child name) = (files name).isSome := by
  rw [Disk.has]
  rw [h.find hn]
  cases files name <;> rfl

theorem has_directory (h : s.Shows base d files) (hf : s.Fits) :
    d.has s.directory = true := by
  have hfind : d.find s.directory = .ok (some .directory) := by
    rw [Disk.find]
    rw [show d.reach s.directory = .ok (place base) from
      h.leads.reach_child h.based isName_directory hf.directory]
    exact congrArg Except.ok h.made
  rw [Disk.has]
  rw [hfind]

theorem changed {d' : Disk} (h : s.Shows base d files) (hs : d.Spares d') (content : Option (List UInt8))
    (hget : ∀ q, q ≠ [] → d'.get? q =
      if q = place base ++ [name] then content.map .file else d.get? q) :
    s.Shows base d' (Function.update files name content) := by
  refine ⟨h.leads.spared hs, hs _ h.based, hs _ h.made, fun other ho => ?_⟩
  rw [hget _ (by simp)]
  by_cases he : other = name
  · rw [he, if_pos rfl, Function.update_self]
  · rw [if_neg (by simpa using he), Function.update_of_ne he, h.holds other ho]

theorem put (h : s.Shows base d files) (hn : s.Allows name) (bytes : List UInt8) :
    s.Shows base (d.put (place base ++ [name]) (.file bytes))
      (Function.update files name (some bytes)) :=
  h.changed (spares_put_file (h.ne_directory hn)) _ fun _ => get?_put

theorem drop (h : s.Shows base d files) (hn : s.Allows name) :
    s.Shows base (d.drop (place base ++ [name])) (Function.update files name none) :=
  h.changed (spares_drop (h.ne_directory hn)) _ fun _ => get?_drop

theorem overwrite (h : s.Shows base d files) (hn : s.Allows name) (bytes : List UInt8) :
    d.overwrite (place base ++ [name]) bytes = .ok (d.put (place base ++ [name]) (.file bytes)) := by
  rw [Disk.overwrite]
  rw [h.holds name hn]
  cases files name <;> rfl

theorem write (h : s.Shows base d files) (hn : s.Allows name) (bytes : List UInt8) :
    ∃ d', d.write (s.directory.child name) bytes = .ok d' ∧
      s.Shows base d' (Function.update files name (some bytes)) := by
  refine ⟨_, ?_, h.put hn bytes⟩
  rw [Disk.write]
  rw [h.reach hn]
  exact h.overwrite hn bytes

theorem create (h : s.Shows base d files) (hn : s.Allows name) (hfree : files name = none)
    (bytes : List UInt8) :
    ∃ d', d.create (s.directory.child name) (.file bytes) = .ok d' ∧
      s.Shows base d' (Function.update files name (some bytes)) := by
  have hnone := h.holds name hn
  rw [hfree] at hnone
  refine ⟨_, ?_, h.put hn bytes⟩
  rw [Disk.create]
  rw [h.reach hn, Except.ok_bind, hnone]
  rfl

theorem copy (h : s.Shows base d files) {source target : String} (hsource : s.Allows source)
    (htarget : s.Allows target) {bytes : List UInt8} (hb : files source = some bytes) :
    ∃ d', d.copy (s.directory.child source) (s.directory.child target) = .ok d' ∧
      s.Shows base d' (Function.update files target (some bytes)) := by
  obtain ⟨d', hw, hd'⟩ := h.write htarget bytes
  refine ⟨d', ?_, hd'⟩
  rw [Disk.copy]
  rw [h.find hsource, hb]
  exact hw

theorem remove (h : s.Shows base d files) (hn : s.Allows name) {bytes : List UInt8}
    (hb : files name = some bytes) :
    ∃ d', d.remove (s.directory.child name) = .ok d' ∧
      s.Shows base d' (Function.update files name none) := by
  have hsome := h.holds name hn
  rw [hb] at hsome
  refine ⟨_, ?_, h.drop hn⟩
  rw [Disk.remove]
  rw [h.reach hn, Except.ok_bind, hsome]
  rfl

theorem rename (h : s.Shows base d files) {source target : String} (hsource : s.Allows source)
    (htarget : s.Allows target) {bytes : List UInt8} (hb : files source = some bytes) :
    ∃ d', d.rename (s.directory.child source) (s.directory.child target) = .ok d' ∧
      s.Shows base d'
        (Function.update (Function.update files source none) target (some bytes)) := by
  have hsome := h.holds source hsource
  rw [hb] at hsome
  have hdrop := h.drop hsource
  refine ⟨_, ?_, hdrop.put htarget bytes⟩
  rw [Disk.rename]
  rw [h.reach hsource, h.reach htarget, Except.ok_bind, Except.ok_bind, hsome]
  exact hdrop.overwrite htarget bytes

theorem readText (h : s.Shows base d files) (hn : s.Allows name) {text : String}
    (hb : files name = some (Text.utf8 text)) :
    d.readText (s.directory.child name) = .ok text := by
  have hread : d.read (s.directory.child name) = .ok (Text.utf8 text) := by
    rw [Disk.read]
    rw [h.find hn, hb]
    rfl
  rw [Disk.readText]
  rw [hread, Except.ok_bind, Text.ofUtf8?_utf8]
  rfl

end Shows

end VirtualInfra.Store
