import VirtualInfra.Proofs.Disk.Tree
import VirtualInfra.Proofs.Store.Save

namespace VirtualInfra

namespace Disk

/-- What the making of directories leaves when it is cut off before one of them or after the last. -/
inductive Making (start : Path) : List String → Disk → Disk → Prop
  | whole (names : List String) (d : Disk) :
      Making start names d (ensureDirectories start names d).2
  | parents {name : String} {names : List String} {d d₁ d' : Disk}
      (missing : d.ensureDirectory ⟨start, (name :: names).reverse⟩ = (.error .notFound, d₁))
      (made : Making start names d₁ d') : Making start (name :: names) d d'

theorem Making.grows {start : Path} {names : List String} {d d' : Disk}
    (h : Making start names d d') :
    Grows (Way.passed start (⟨start, names.reverse⟩ : Way).names) d d' := by
  induction h with
  | whole names d => exact grows_ensureDirectories start names d
  | @parents name names d d₁ d' missing made ih =>
      have hown := grows_ensureDirectory_passed start (name :: names) d
      rw [missing] at hown
      exact hown.trans (ih.mono (passed_parent_subset name))

end Disk

namespace Store

open Disk Way

/-- What a step leaves when it is cut off on the way. The last one is done or it is not. -/
inductive SaveStep.Leaves (s : Store) (bytes : List UInt8) (d : Disk) : SaveStep → Disk → Prop
  | makeDirectory {d' : Disk} (missing : d.has s.directory = false)
      (short : s.directory.size ≤ maxWaySize)
      (making : Making s.directory.start s.directory.names.reverse d d') :
      Leaves s bytes d .makeDirectory d'
  | stage {d' : Disk} {front : List UInt8} (part : front <+: bytes)
      (write : d.write s.stagingFile front = .ok d') : Leaves s bytes d .stage d'
  | backUp {d' : Disk} {old front : List UInt8} (read : d.read s.stateFile = .ok old)
      (part : front <+: old) (write : d.write s.backupFile front = .ok d') :
      Leaves s bytes d .backUp d'

/-- What is left when steps are cut off: before one of them, on the way, or after the last. -/
inductive CutOff (s : Store) (bytes : List UInt8) : List SaveStep → Disk → Disk → Prop
  | before (steps : List SaveStep) (d : Disk) : CutOff s bytes steps d d
  | within {step : SaveStep} {d d' : Disk} (steps : List SaveStep)
      (h : step.Leaves s bytes d d') : CutOff s bytes (step :: steps) d d'
  | after {step : SaveStep} {steps : List SaveStep} {d d₁ d' : Disk}
      (h : step.run s bytes d = (.ok (), d₁)) (h' : CutOff s bytes steps d₁ d') :
      CutOff s bytes (step :: steps) d d'

/-- The directory is there, or it is missing from a tree, in which the way to it leads back only from
directories that are there. -/
def Grounded (s : Store) (d : Disk) : Prop :=
  d.has s.directory = true ∨ d.IsTree ∧ d.Retraces s.directory.start s.directory.names

/-- Whenever saving a state is cut off, what is loaded is what was loaded before or it is that
state. Saving that comes to an end leaves one of the disks on which it can be cut off, and after it
succeeded the state is loaded and nothing is left of the staging. -/
structure CrashAtomic (s : Store) (d : Disk) (st : State) : Prop where
  cut : ∀ d', s.CutOff (encode st) saveSteps d d' →
    (∀ now, s.load now d' = s.load now d) ∨ ∀ now, s.load now d' = .ok st
  ended : s.CutOff (encode st) saveSteps d (s.save st d).2
  saved : ∀ d', s.save st d = (.ok (), d') →
    (∀ now, s.load now d' = .ok st) ∧ d'.get? s.stagingFile.path = none

variable {s : Store} {d d' : Disk} {bytes : List UInt8} {f : Failure} {st : State}
  {name : String} {step : SaveStep} {front back steps : List SaveStep}

section Cuts

/-- A step before the last one, whether it is done or fails, ends with what it can be cut off at. -/
theorem leaves_or_eq_of_run {u : Except Failure Unit} (hne : step ≠ .replace)
    (h : step.run s bytes d = (u, d')) : step.Leaves s bytes d d' ∨ d' = d := by
  cases step with
  | makeDirectory =>
      rw [SaveStep.run, makeDirectory] at h
      split at h
      · cases h
        exact .inr rfl
      · next hmissing =>
          by_cases hs : s.directory.size ≤ maxWaySize
          · have hwhole := @Making.whole s.directory.start s.directory.names.reverse d
            rw [makeDirectories, if_neg (Nat.not_lt.2 hs)] at h
            rw [h] at hwhole
            exact .inl (.makeDirectory (Bool.eq_false_iff.2 hmissing) hs hwhole)
          · rw [makeDirectories, if_pos (Nat.not_le.1 hs)] at h
            cases h
            exact .inr rfl
  | stage =>
      rcases u with f | ⟨⟩
      · exact .inr (of_attempt_error h)
      · exact .inl (.stage List.prefix_rfl (of_attempt_ok h))
  | backUp =>
      rw [SaveStep.run, Store.backUp] at h
      split at h
      · rcases u with f | ⟨⟩
        · exact .inr (of_attempt_error h)
        · obtain ⟨old, hread, hwrite⟩ := write_of_copy (of_attempt_ok h)
          exact .inl (.backUp hread List.prefix_rfl hwrite)
      · cases h
        exact .inr rfl
  | replace => exact absurd rfl hne

theorem cutOff_runAll (s : Store) (bytes : List UInt8) (steps : List SaveStep) (d : Disk) :
    s.CutOff bytes steps d (SaveStep.runAll s bytes steps d).2 := by
  induction steps generalizing d with
  | nil => exact .before [] d
  | cons step steps ih =>
      rw [SaveStep.runAll]
      rcases hrun : step.run s bytes d with ⟨f | ⟨⟩, d₁⟩
      · by_cases hstep : step = .replace
        · subst hstep
          rw [of_attempt_error hrun]
          exact .before _ d
        · rcases leaves_or_eq_of_run hstep hrun with hl | rfl
          · exact .within steps hl
          · exact .before _ _
      · exact .after hrun (ih d₁)

theorem of_cutOff_append (h : s.CutOff bytes (front ++ back) d d') :
    s.CutOff bytes front d d' ∨
      ∃ d₁, SaveStep.runAll s bytes front d = (.ok (), d₁) ∧ s.CutOff bytes back d₁ d' := by
  induction front generalizing d with
  | nil => exact .inr ⟨d, rfl, h⟩
  | cons step front ih =>
      cases h with
      | before => exact .inl (.before _ _)
      | within _ hl => exact .inl (.within front hl)
      | after hrun h' =>
          rcases ih h' with hcut | ⟨d₁, hfront, hback⟩
          · exact .inl (.after hrun hcut)
          · refine .inr ⟨d₁, ?_, hback⟩
            rw [SaveStep.runAll, hrun]
            exact hfront

theorem eq_of_cutOff_nil (h : s.CutOff bytes [] d d') : d' = d := by
  cases h
  rfl

end Cuts

section Loading

theorem found?_of_write {other : String} (hn : IsName name) (ho : IsName other) (hne : other ≠ name)
    (h : d.write (s.directory.child name) bytes = .ok d') :
    d'.found? (s.directory.child other) = d.found? (s.directory.child other) := by
  obtain ⟨hreach, hp, hs⟩ := sets_of_write h
  have hopen := isOpen_of_reach hn hreach
  exact hopen.found?_eq (hopen.spared (hs.spares hp)) ho (hs.other (path_child_ne ho hn hne _))

theorem alike_of_stage (h : d.write s.stagingFile bytes = .ok d') : s.Alike d d' :=
  ⟨found?_of_write isName_staging isName_state (by decide) h,
    fun _ => found?_of_write isName_staging isName_backup (by decide) h⟩

/-- The backup is not looked at while there is a state. -/
theorem alike_of_backUp {old : List UInt8} (hread : d.read s.stateFile = .ok old)
    (h : d.write s.backupFile bytes = .ok d') : s.Alike d d' := by
  refine ⟨found?_of_write isName_backup isName_state (by decide) h, fun hnone => ?_⟩
  obtain ⟨e, he, hread⟩ := Except.bind_eq_ok_iff.1 hread
  unfold found? at hnone
  rw [he] at hnone
  cases hnone
  cases hread

section Missing

variable (ht : d.IsTree) (hr : d.Retraces s.directory.start s.directory.names)

include ht hr

theorem get?_eq_none_of_missing (hmissing : d.has s.directory = false)
    (hs : s.directory.size ≤ maxWaySize) (name : String) :
    d.get? (s.directory.path ++ [name]) = none := by
  by_contra hthere
  have hopen : s.IsOpen d := ⟨foldlM_step_of_tree ht hr hthere, (ht _ _ hthere).1⟩
  rw [hopen.has_directory hs] at hmissing
  cases hmissing

/-- Nothing of a store is found that has no directory, also while the directory is being made. -/
theorem found?_eq_none_of_grows (hmissing : d.has s.directory = false)
    (hs : s.directory.size ≤ maxWaySize) (hg : Grows s.onTheWay d d') (hn : IsName name) :
    d'.found? (s.directory.child name) = none := by
  have habsent := get?_eq_none_of_missing ht hr hmissing hs name
  rw [Option.eq_none_iff_forall_ne_some]
  intro e he
  obtain ⟨-, he⟩ := reach_of_found? he
  rw [path_child hn] at he
  rcases hg (s.directory.path ++ [name]) with heq | ⟨hpassed, -, -⟩
  · rw [heq, habsent] at he
    cases he
  -- the file would be on the way to the directory that it is in
  · rcases prefix_or_directory_of_passed hr hpassed with hp | hd
    · have hle := hp.length_le
      rw [List.length_append] at hle
      exact Nat.not_succ_le_self _ hle
    · rw [habsent] at hd
      cases hd

end Missing

theorem alike_of_leaves_makeDirectory (hg : s.Grounded d)
    (h : SaveStep.makeDirectory.Leaves s bytes d d') : s.Alike d d' := by
  cases h with
  | makeDirectory missing short making =>
      have ⟨ht, hr⟩ := hg.resolve_left (Bool.eq_false_iff.1 missing)
      have hgrows := making.grows
      rw [names_reverse_reverse] at hgrows
      have hnone {d' : Disk} (hg : Grows s.onTheWay d d') {name : String} (hn : IsName name) :=
        found?_eq_none_of_grows ht hr missing short hg hn
      have hrefl := Grows.refl s.onTheWay d
      exact ⟨(hnone hgrows isName_state).trans (hnone hrefl isName_state).symm,
        fun _ => (hnone hgrows isName_backup).trans (hnone hrefl isName_backup).symm⟩

theorem alike_of_cutOff_makeDirectory (hg : s.Grounded d)
    (h : s.CutOff bytes [.makeDirectory] d d') : s.Alike d d' := by
  cases h with
  | before => exact .refl s d
  | within _ hl => exact alike_of_leaves_makeDirectory hg hl
  | after hrun h' =>
      rw [eq_of_cutOff_nil h']
      rcases leaves_or_eq_of_run (show SaveStep.makeDirectory ≠ .replace by decide) hrun with hl | rfl
      · exact alike_of_leaves_makeDirectory hg hl
      · exact .refl s _

theorem alike_of_cutOff (hsteps : ∀ step ∈ steps, step = .stage ∨ step = .backUp)
    (h : s.CutOff bytes steps d d') : s.Alike d d' := by
  have hleft {step : SaveStep} {d d₁ : Disk} (hstep : step = .stage ∨ step = .backUp)
      (hl : step.Leaves s bytes d d₁) : s.Alike d d₁ := by
    cases hl with
    | makeDirectory => simp at hstep
    | stage _ hwrite => exact alike_of_stage hwrite
    | backUp hread _ hwrite => exact alike_of_backUp hread hwrite
  induction h with
  | before steps d => exact .refl s d
  | within steps hl => exact hleft (hsteps _ List.mem_cons_self) hl
  | @after step _ _ _ _ hrun _ ih =>
      have hstep := hsteps step List.mem_cons_self
      have hne : step ≠ .replace := by
        rintro rfl
        simp at hstep
      have hrest := ih fun step hm => hsteps step (List.mem_cons_of_mem _ hm)
      rcases leaves_or_eq_of_run hne hrun with hl | rfl
      · exact (hleft hstep hl).trans hrest
      · exact hrest

theorem alike_of_cutOff_preparation (hg : s.Grounded d) (h : s.CutOff bytes preparation d d') :
    s.Alike d d' := by
  rcases of_cutOff_append (show s.CutOff bytes ([.makeDirectory] ++ [.stage, .backUp]) d d' from h)
    with hmake | ⟨d₁, hrun, hrest⟩
  · exact alike_of_cutOff_makeDirectory hg hmake
  · have hmake := cutOff_runAll s bytes [.makeDirectory] d
    rw [hrun] at hmake
    exact (alike_of_cutOff_makeDirectory hg hmake).trans (alike_of_cutOff (by simp) hrest)

end Loading

/-- Whatever is in the directory, saving a state that can be loaded is atomic whenever it is cut
off. -/
theorem save_crash_atomic (hg : s.Grounded d) (hv : st.version ≤ currentVersion) :
    s.CrashAtomic d st where
  cut d' h := by
    rcases of_cutOff_append (show s.CutOff _ (preparation ++ [.replace]) d d' from h)
      with hprep | ⟨d₁, hrun, hlast⟩
    · exact .inl (alike_of_cutOff_preparation hg hprep).load
    cases hlast with
    | before =>
        have hprep := cutOff_runAll s (encode st) preparation d
        rw [hrun] at hprep
        exact .inl (alike_of_cutOff_preparation hg hprep).load
    | within _ hl => cases hl
    | after hreplace h' =>
        rw [eq_of_cutOff_nil h']
        exact .inr (load_of_found? (found?_of_run_replace (staged_of_preparation hrun).2 hreplace).1 hv)
  ended := cutOff_runAll s (encode st) saveSteps d
  saved d' h := by
    obtain ⟨hstate, hstaging⟩ := found?_of_save_ok h
    exact ⟨load_of_found? hstate hv, hstaging⟩

section Littered

/-- The state is damaged, there is a backup, and an earlier save was cut off. -/
def littered : Disk := ⟨[
  ([".kubevim", "state.json"], .file (Text.utf8 "[")),
  ([".kubevim", "state.json.backup"],
    .file (encode (.initial ⟨2024, 7, 1, 0, 0, 0, 0, by decide⟩))),
  ([".kubevim", "state.json.tmp"], .file []),
  ([".kubevim"], .directory)]⟩

/-- The store whose files these are, and one that has not been used yet. -/
def used : Store := ⟨⟨[], []⟩⟩

def unused : Store := ⟨⟨[], ["new"]⟩⟩

theorem isTree_littered : littered.IsTree := isTree_of_entries (by decide)

def restored : State := .initial ⟨2024, 7, 2, 0, 0, 0, 0, by decide⟩

/-- What is left when saving it is cut off while the first bytes are staged. -/
def torn : Disk :=
  littered.put [".kubevim", "state.json.tmp"] (.file ((encode restored).take 12))

theorem cutOff_torn : used.CutOff (encode restored) saveSteps littered torn := by
  have hmake : SaveStep.makeDirectory.run used (encode restored) littered =
      (.ok (), littered) := by
    decide +kernel
  have hwrite : littered.write used.stagingFile ((encode restored).take 12) =
      .ok torn := by
    decide +kernel
  exact .after hmake (.within _ (.stage (List.take_prefix _ _) hwrite))

theorem save_littered_eq_ok :
    (used.save restored littered).1 = .ok () := by
  decide +kernel

/-- In the store that is used saving comes to its end, or it is cut off and the damaged state is
still there. -/
theorem save_crash_atomic_littered :
    used.Grounded littered ∧ unused.Grounded littered ∧
    restored.version ≤ currentVersion ∧
    used.CrashAtomic littered restored ∧
    unused.CrashAtomic littered restored ∧
    (∃ d', used.save restored littered = (.ok (), d') ∧
      ∀ now, used.load now d' = .ok restored) ∧
    torn ≠ littered ∧
    used.CutOff (encode restored) saveSteps littered torn ∧
    ∀ now, used.load now torn = .error .malformed := by
  have hold : used.Grounded littered := .inl (by decide)
  have hnew : unused.Grounded littered :=
    .inr ⟨isTree_littered, retraces_of_forward (by decide)⟩
  have hatomic := save_crash_atomic hold (show restored.version ≤ currentVersion by decide)
  have hsaved := save_littered_eq_ok
  rcases hrun : used.save restored littered with ⟨x, d'⟩
  rw [hrun] at hsaved
  subst hsaved
  exact ⟨hold, hnew, by decide, hatomic, save_crash_atomic hnew (by decide),
    ⟨d', rfl, (hatomic.saved d' hrun).1⟩, by decide +kernel, cutOff_torn, fun _ => rfl⟩

end Littered

end Store

end VirtualInfra
