import VirtualInfra.Proofs.Store.Files
import VirtualInfra.Proofs.Store.Record

namespace VirtualInfra.Store

open Disk

variable {s : Store} {base : Path} {d : Disk} {files : Files} {now : Timestamp} {st : State}

/-- What is loaded from the files at a time. Before the first save it is the initial state. -/
inductive Loads (now : Timestamp) (files : Files) : State → Prop
  | saved {st : State} (state : files "state.json" = some (encode st))
      (version : st.version ≤ currentVersion) : Loads now files st
  | initial (state : files "state.json" = none) (backup : files "state.json.backup" = none) :
      Loads now files (.initial now)

theorem Loads.version (h : Loads now files st) : st.version ≤ currentVersion := by
  cases h with
  | saved _ version => exact version
  | initial => exact UInt32.le_refl _

theorem Loads.lock (h : Loads now files st) (content : Option (List UInt8)) :
    Loads now (Function.update files "lock.json" content) st := by
  cases h with
  | saved state version => exact .saved ((Function.update_of_ne (by decide) ..).trans state) version
  | initial state backup =>
      exact .initial ((Function.update_of_ne (by decide) ..).trans state)
        ((Function.update_of_ne (by decide) ..).trans backup)

structure Saved (files : Files) (st : State) (files' : Files) : Prop where
  state : files' "state.json" = some (encode st)
  backup : files' "state.json.backup" = (files "state.json").or (files "state.json.backup")
  staging : files' "state.json.tmp" = none
  lock : files' "lock.json" = files "lock.json"

namespace Shows

theorem load (h : s.Shows base d files) (hf : s.Fits) (hl : Loads now files st) :
    s.load now d = .ok st := by
  cases hl with
  | saved state version =>
      have hthere : d.has s.stateFile = true := by
        rw [stateFile, h.has hf.stateFile, state]
        rfl
      rw [load_of_state hthere (h.readText hf.stateFile state), decode_pretty version]
  | initial state backup =>
      have hstate : d.has s.stateFile = false := by
        rw [stateFile, h.has hf.stateFile, state]
        rfl
      have hbackup : d.has s.backupFile = false := by
        rw [Store.backupFile, h.has hf.backupFile, backup]
        rfl
      exact load_of_neither hstate hbackup now

theorem runAll_cons {bytes : List UInt8} {step : SaveStep} {d d' : Disk}
    (h : step.run s bytes d = (.ok (), d')) (steps : List SaveStep) :
    SaveStep.runAll s bytes (step :: steps) d = SaveStep.runAll s bytes steps d' := by
  rw [SaveStep.runAll, h]

theorem attempt_ok {d d' : Disk} {x : Except Failure Disk} (h : x = .ok d') :
    d.attempt x = (.ok (), d') := by
  rw [h]
  rfl

theorem replace (h : s.Shows base d files) (hf : s.Fits)
    (hstaged : files "state.json.tmp" = some (encode st)) :
    ∃ d' files', SaveStep.runAll s (encode st) [.replace] d = (.ok (), d') ∧
      s.Shows base d' files' ∧ files' "state.json" = some (encode st) ∧
      files' "state.json.tmp" = none ∧
      ∀ name, name ≠ "state.json" → name ≠ "state.json.tmp" → files' name = files name := by
  obtain ⟨d', hd, h'⟩ := h.rename hf.stagingFile hf.stateFile hstaged
  have hrun : SaveStep.run s (encode st) d .replace = (.ok (), d') := attempt_ok hd
  refine ⟨d', _, runAll_cons hrun [], h', Function.update_self .., ?_, fun name hne hne' => ?_⟩
  · rw [Function.update_of_ne (by decide), Function.update_self]
  · rw [Function.update_of_ne hne, Function.update_of_ne hne']

theorem makeDirectory (h : s.Shows base d files) (hf : s.Fits) :
    s.makeDirectory d = (.ok (), d) := by
  rw [Store.makeDirectory]
  rw [h.has_directory hf, if_pos rfl]

theorem backUp (h : s.Shows base d files) (hf : s.Fits) :
    ∃ d' files', s.backUp d = (.ok (), d') ∧ s.Shows base d' files' ∧
      files' "state.json.backup" = (files "state.json").or (files "state.json.backup") ∧
      ∀ name, name ≠ "state.json.backup" → files' name = files name := by
  rw [Store.backUp]
  rw [stateFile, h.has hf.stateFile]
  cases hold : files "state.json" with
  | none => exact ⟨d, files, rfl, h, rfl, fun _ _ => rfl⟩
  | some bytes =>
      obtain ⟨d', hd, h'⟩ := h.copy hf.stateFile hf.backupFile hold
      exact ⟨d', _, attempt_ok hd, h', Function.update_self ..,
        fun _ hne => Function.update_of_ne hne ..⟩

/-- Once the directory is there, the other steps of saving succeed. -/
theorem runAll_made (h : s.Shows base d files) (hf : s.Fits) (st : State) :
    ∃ d' files', SaveStep.runAll s (encode st) [.stage, .backUp, .replace] d = (.ok (), d') ∧
      s.Shows base d' files' ∧ Saved files st files' := by
  obtain ⟨d₁, hd₁, h₁⟩ := h.write hf.stagingFile (encode st)
  have hstage : SaveStep.run s (encode st) d .stage = (.ok (), d₁) := attempt_ok hd₁
  obtain ⟨d₂, files₂, hd₂, h₂, hbackup, hothers⟩ := h₁.backUp hf
  have hcopy : SaveStep.run s (encode st) d₁ .backUp = (.ok (), d₂) := hd₂
  obtain ⟨d', files', hd', h', hstate, hstaging, hrest⟩ := h₂.replace hf
    ((hothers _ (by decide)).trans (Function.update_self ..))
  refine ⟨d', files', ?_, h', hstate, ?_, hstaging, ?_⟩
  · rw [runAll_cons hstage, runAll_cons hcopy, hd']
  · rw [hrest _ (by decide) (by decide), hbackup, Function.update_of_ne (by decide),
      Function.update_of_ne (by decide)]
  · rw [hrest _ (by decide) (by decide), hothers _ (by decide), Function.update_of_ne (by decide)]

theorem save_of_runAll {d₁ : Disk} (hmake : s.makeDirectory d = (.ok (), d₁)) {d' : Disk}
    (h : SaveStep.runAll s (encode st) [.stage, .backUp, .replace] d₁ = (.ok (), d')) :
    s.save st d = (.ok (), d') := by
  have hrun : SaveStep.run s (encode st) d .makeDirectory = (.ok (), d₁) := hmake
  rw [Store.save]
  rw [saveSteps, runAll_cons hrun, h]
  rfl

theorem save (h : s.Shows base d files) (hf : s.Fits) (st : State) :
    ∃ d' files', s.save st d = (.ok (), d') ∧ s.Shows base d' files' ∧ Saved files st files' := by
  obtain ⟨d', files', hrun, h'⟩ := h.runAll_made hf st
  exact ⟨d', files', save_of_runAll (h.makeDirectory hf) hrun, h'⟩

theorem acquire (h : s.Shows base d files) (hf : s.Fits) (hfree : files "lock.json" = none)
    (me : Holder) :
    ∃ d', s.acquire me d = (.ok (), d') ∧
      s.Shows base d' (Function.update files "lock.json" (some me.encode)) := by
  obtain ⟨d', hd, h'⟩ := h.create hf.lockFile hfree me.encode
  refine ⟨d', ?_, h'⟩
  have hcreate : s.createLock me d = .ok (true, d') := by
    rw [createLock]
    rw [lockFile, hd]
  rw [Store.acquire]
  rw [h.makeDirectory hf]
  simp only [hcreate]

theorem release (h : s.Shows base d files) (hf : s.Fits) {bytes : List UInt8}
    (hheld : files "lock.json" = some bytes) :
    ∃ d', s.release d = (.ok (), d') ∧
      s.Shows base d' (Function.update files "lock.json" none) := by
  obtain ⟨d', hd, h'⟩ := h.remove hf.lockFile hheld
  refine ⟨d', ?_, h'⟩
  unfold Store.release removeLock
  rw [lockFile, hd]

section Update

variable {α : Type} {f : State → Except Problem (α × State)} {me : Holder}

theorem update_of_error (h : s.Shows base d files) (hf : s.Fits) (hfree : files "lock.json" = none)
    (hl : Loads me.since files st) {p : Problem} (hp : f st = .error p) :
    ∃ d', s.update me f d = (.error p, d') ∧ s.Shows base d' files := by
  obtain ⟨d₁, hd₁, h₁⟩ := h.acquire hf hfree me
  obtain ⟨d', hd', h'⟩ := h₁.release hf (Function.update_self ..)
  rw [Function.update_idem, Function.update_eq_self_iff.2 hfree.symm] at h'
  refine ⟨d', ?_, h'⟩
  have hrevise : s.revise me.since f d₁ = (.error p, d₁) := by
    rw [revise]
    simp only [h₁.load hf (hl.lock _), hp]
  rw [Store.update]
  simp only [hd₁, hrevise, hd']

theorem update_of_ok (h : s.Shows base d files) (hf : s.Fits) (hfree : files "lock.json" = none)
    (hl : Loads me.since files st) {st' : State} {a : α} (ha : f st = .ok (a, st')) :
    ∃ d' files', s.update me f d = (.ok a, d') ∧ s.Shows base d' files' ∧
      Saved files st' files' := by
  obtain ⟨d₁, hd₁, h₁⟩ := h.acquire hf hfree me
  obtain ⟨d₂, files₂, hd₂, h₂, hsaved⟩ := h₁.save hf st'
  obtain ⟨d', hd', h'⟩ := h₂.release hf (hsaved.lock.trans (Function.update_self ..))
  refine ⟨d', _, ?_, h', ?_⟩
  · have hrevise : s.revise me.since f d₁ = (.ok a, d₂) := by
      rw [revise]
      simp only [h₁.load hf (hl.lock _), ha, hd₂]
    rw [Store.update]
    simp only [hd₁, hrevise, hd']
  · constructor
    · rw [Function.update_of_ne (by decide), hsaved.state]
    · rw [Function.update_of_ne (by decide), hsaved.backup, Function.update_of_ne (by decide),
        Function.update_of_ne (by decide)]
    · rw [Function.update_of_ne (by decide), hsaved.staging]
    · rw [Function.update_self, hfree]

end Update

end Shows

structure Vacant (s : Store) (base : Path) (d : Disk) : Prop where
  leads : d.Leads s.root base
  based : d.get? base = some .directory
  absent : ∀ names, d.get? (place base ++ names) = none

namespace Vacant

theorem has_directory (h : s.Vacant base d) (hf : s.Fits) : d.has s.directory = false := by
  have hfind : d.find s.directory = .ok none := by
    rw [Disk.find]
    rw [show d.reach s.directory = .ok (place base) from
      h.leads.reach_child h.based isName_directory hf.directory]
    exact congrArg Except.ok ((List.append_nil (place base)) ▸ h.absent [])
  rw [Disk.has]
  rw [hfind]

theorem makeDirectory (h : s.Vacant base d) (hf : s.Fits) :
    ∃ d', s.makeDirectory d = (.ok (), d') ∧ s.Shows base d' fun _ => none := by
  have habsent := h.absent []
  rw [List.append_nil] at habsent
  rw [Store.makeDirectory]
  rw [h.has_directory hf, if_neg Bool.false_ne_true]
  refine ⟨_, makeDirectories_child h.leads h.based isName_directory hf.directory habsent, ?_⟩
  refine ⟨h.leads.spared spares_put_directory, spares_put_directory _ h.based, ?_, fun name _ => ?_⟩
  · rw [get?_put (by simp [place])]
    exact if_pos rfl
  · rw [get?_put (by simp), if_neg (by simp [place]), h.absent]
    rfl

theorem save (h : s.Vacant base d) (hf : s.Fits) (st : State) :
    ∃ d' files', s.save st d = (.ok (), d') ∧ s.Shows base d' files' ∧
      Saved (fun _ => none) st files' := by
  obtain ⟨d₁, hd₁, h₁⟩ := h.makeDirectory hf
  obtain ⟨d', files', hrun, h'⟩ := h₁.runAll_made hf st
  exact ⟨d', files', Shows.save_of_runAll hd₁ hrun, h'⟩

theorem update_eq {α : Type} (h : s.Vacant base d) (hf : s.Fits) (me : Holder)
    (f : State → Except Problem (α × State)) :
    ∃ d₁, s.Shows base d₁ (fun _ => none) ∧ s.update me f d = s.update me f d₁ := by
  obtain ⟨d₁, hd₁, h₁⟩ := h.makeDirectory hf
  have hacquire : s.acquire me d = s.acquire me d₁ := by
    rw [acquire, acquire, hd₁, h₁.makeDirectory hf]
  refine ⟨d₁, h₁, ?_⟩
  rw [update, update, hacquire]

theorem load (h : s.Vacant base d) (hf : s.Fits) : s.load now d = .ok (.initial now) := by
  have hleads : d.Leads s.directory (place base) := h.leads.child h.based isName_directory
  have hmissing : d.get? (place base) = none := List.append_nil (place base) ▸ h.absent []
  have hhas : ∀ name, s.Allows name → d.has (s.directory.child name) = false := by
    intro name hn
    have hfind : d.find (s.directory.child name) = .error .notFound := by
      rw [Disk.find]
      rw [hleads.reach_child_of_missing hmissing hn.isName hn.size_le]
      rfl
    rw [Disk.has]
    rw [hfind]
  exact load_of_neither (hhas _ hf.stateFile) (hhas _ hf.backupFile) now

end Vacant

theorem Loads.later (h : Loads now files st) (later : Timestamp) :
    ∃ st', Loads later files st' ∧ st'.machines = st.machines := by
  cases h with
  | saved state version => exact ⟨st, .saved state version, rfl⟩
  | initial state backup => exact ⟨_, .initial state backup, rfl⟩

inductive Keeps (s : Store) (d : Disk) : Table Stored → Prop
  | vacant {base : Path} (h : s.Vacant base d) : Keeps s d ∅
  | shown {base : Path} {files : Files} {now : Timestamp} {st : State}
      (h : s.Shows base d files) (free : files "lock.json" = none) (loads : Loads now files st) :
      Keeps s d st.machines

namespace Keeps

variable {t : Table Stored}

theorem load (h : s.Keeps d t) (hf : s.Fits) (now : Timestamp) :
    ∃ st, s.load now d = .ok st ∧ st.version ≤ currentVersion ∧ st.machines = t := by
  cases h with
  | vacant h => exact ⟨_, h.load hf, UInt32.le_refl _, rfl⟩
  | shown h _ loads =>
      obtain ⟨st', hloads, hst⟩ := loads.later now
      exact ⟨st', h.load hf hloads, hloads.version, hst⟩

variable {α : Type} {f : State → Except Problem (α × State)}

theorem update_of_error (h : s.Keeps d t) (hf : s.Fits) (me : Holder) {p : Problem}
    (hst : s.load me.since d = .ok st) (hp : f st = .error p) :
    ∃ d', s.update me f d = (.error p, d') ∧ s.Keeps d' t := by
  cases h with
  | vacant h =>
      rw [h.load hf] at hst
      cases hst
      have hloads : Loads me.since (fun _ => none) (.initial me.since) := .initial rfl rfl
      obtain ⟨d₁, h₁, heq⟩ := h.update_eq hf me f
      obtain ⟨d', hd', h'⟩ := h₁.update_of_error hf rfl hloads hp
      exact ⟨d', heq.trans hd', .shown h' rfl hloads⟩
  | shown h free loads =>
      obtain ⟨st', hloads, -⟩ := loads.later me.since
      rw [h.load hf hloads] at hst
      cases hst
      obtain ⟨d', hd', h'⟩ := h.update_of_error hf free hloads hp
      exact ⟨d', hd', .shown h' free loads⟩

theorem update_of_ok (h : s.Keeps d t) (hf : s.Fits) (me : Holder) {st' : State} {a : α}
    (hst : s.load me.since d = .ok st) (ha : f st = .ok (a, st'))
    (hv : st'.version ≤ currentVersion) :
    ∃ d', s.update me f d = (.ok a, d') ∧ s.Keeps d' st'.machines := by
  cases h with
  | vacant h =>
      rw [h.load hf] at hst
      cases hst
      obtain ⟨d₁, h₁, heq⟩ := h.update_eq hf me f
      obtain ⟨d', files', hd', h', hsaved⟩ := h₁.update_of_ok hf rfl (.initial rfl rfl) ha
      have hloads : Loads me.since files' st' := .saved hsaved.state hv
      exact ⟨d', heq.trans hd', .shown h' hsaved.lock hloads⟩
  | shown h free loads =>
      obtain ⟨st₁, hloads, -⟩ := loads.later me.since
      rw [h.load hf hloads] at hst
      cases hst
      obtain ⟨d', files', hd', h', hsaved⟩ := h.update_of_ok hf free hloads ha
      have hloads' : Loads me.since files' st' := .saved hsaved.state hv
      exact ⟨d', hd', .shown h' (hsaved.lock.trans free) hloads'⟩

end Keeps

end VirtualInfra.Store
