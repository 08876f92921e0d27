import VirtualInfra.Proofs.Store.Lock

namespace VirtualInfra.Store

open Disk

/-- A disk at a time, and the locks that have been taken and not yet given back. -/
structure Custody where
  disk : Disk
  now : Timestamp
  held : List Holder := []

namespace Custody

def fresh (c : Custody) : List Holder := c.held.filter (·.isFresh c.now)

def wait (later : Timestamp) (c : Custody) : Custody := { c with now := later }

def acquire (s : Store) (host : String) (process : UInt32) (c : Custody) : Custody :=
  match s.acquire ⟨host, process, c.now⟩ c.disk with
  | (.ok (), d) => { c with disk := d, held := ⟨host, process, c.now⟩ :: c.held }
  | (.error _, d) => { c with disk := d }

/-- A lock is released or dropped, whatever comes of it. -/
def giveBack (s : Store) (h : Holder) (c : Custody) : Custody :=
  { c with disk := (s.release c.disk).2, held := c.held.erase h }

/-- What becomes of a custody by one call after the other, each at any time and by any holder, when
locks are given back only as it is allowed. -/
inductive Runs (s : Store) (allowed : Custody → Holder → Prop) (c₀ : Custody) : Custody → Prop
  | refl : Runs s allowed c₀ c₀
  | wait {c : Custody} (h : Runs s allowed c₀ c) {later : Timestamp}
      (hl : c.now.nanoseconds ≤ later.nanoseconds) : Runs s allowed c₀ (c.wait later)
  | acquire {c : Custody} (h : Runs s allowed c₀ c) (host : String) (process : UInt32) :
      Runs s allowed c₀ (c.acquire s host process)
  | giveBack {c : Custody} (h : Runs s allowed c₀ c) (holder : Holder) (hh : holder ∈ c.held)
      (ha : allowed c holder) : Runs s allowed c₀ (c.giveBack s holder)

/-- The lock is given back within its lifetime, or when nobody holds a fresh one. -/
def Timely (c : Custody) (h : Holder) : Prop := h.isFresh c.now = true ∨ c.fresh = []

structure Guarded (s : Store) (c : Custody) : Prop where
  sole : c.fresh.length ≤ 1
  named : ∀ h ∈ c.fresh, c.disk.reach s.lockFile = .ok s.lockFile.path ∧
    c.disk.get? s.lockFile.path = some (.file h.encode)

variable {s : Store} {c c₀ : Custody} {g h : Holder}

theorem mem_fresh_iff : h ∈ c.fresh ↔ h ∈ c.held ∧ h.isFresh c.now = true := List.mem_filter

theorem fresh_taken (c : Custody) (host : String) (process : UInt32) (d : Disk) :
    fresh { c with disk := d, held := ⟨host, process, c.now⟩ :: c.held } =
      ⟨host, process, c.now⟩ :: c.fresh := by
  have hself : (⟨host, process, c.now⟩ : Holder).isFresh c.now = true := by
    rw [Holder.isFresh, Int.sub_self]
    rfl
  exact List.filter_cons_of_pos hself

theorem fresh_wait_sublist {later : Timestamp} (hl : c.now.nanoseconds ≤ later.nanoseconds) :
    (c.wait later).fresh.Sublist c.fresh := by
  apply List.monotone_filter_right
  intro h hh
  unfold Holder.isFresh at hh ⊢
  have hlater : later.nanoseconds - h.since.nanoseconds < Holder.lifetime := of_decide_eq_true hh
  apply decide_eq_true
  omega

theorem fresh_giveBack (s : Store) (c : Custody) (h : Holder) :
    (c.giveBack s h).fresh = c.fresh.erase h := List.erase_filter.symm

namespace Guarded

theorem of_fresh_eq_nil (h : c.fresh = []) : c.Guarded s := by
  constructor
  · rw [h]
    exact Nat.zero_le 1
  · intro g hg
    rw [h] at hg
    cases hg

theorem wait (hc : c.Guarded s) {later : Timestamp}
    (hl : c.now.nanoseconds ≤ later.nanoseconds) : (c.wait later).Guarded s where
  sole := Nat.le_trans (fresh_wait_sublist hl).length_le hc.sole
  named h hh := hc.named h ((fresh_wait_sublist hl).subset hh)

theorem fresh_eq_nil (hc : c.Guarded s) {me : Holder} (hme : me.since = c.now) {d : Disk}
    (ha : s.acquire me c.disk = (.ok (), d)) : c.fresh = [] := by
  apply List.eq_nil_iff_forall_not_mem.2
  intro h hh
  obtain ⟨hreach, hfile⟩ := hc.named h hh
  obtain ⟨d₁, hgrows, hreach₁, -, hfree, -⟩ := sets_of_acquire ha
  have hfile₁ := hgrows.file hfile
  rcases hfree with hnone | ⟨holder, hholder, hold⟩
  · rw [hfile₁] at hnone
    cases hnone
  · rw [readHolder_of_encode ((found?_of_reach hreach₁).trans hfile₁)] at hholder
    cases hholder
    rw [hme, (mem_fresh_iff.1 hh).2] at hold
    cases hold

theorem acquire (hc : c.Guarded s) (host : String) (process : UInt32) :
    (c.acquire s host process).Guarded s := by
  unfold Custody.acquire
  split
  · next d ha =>
      have hnil := hc.fresh_eq_nil rfl ha
      obtain ⟨d₁, -, hreach, hne, -, hs⟩ := sets_of_acquire ha
      have hfresh := fresh_taken c host process d
      rw [hnil] at hfresh
      constructor
      · rw [hfresh]
        exact Nat.le_refl 1
      · intro h hh
        rw [hfresh, List.mem_singleton] at hh
        subst hh
        exact ⟨reach_of_spares hreach (hs.spares hne), hs.self⟩
  · next d ha =>
      have hgrows := grows_of_acquire_error ha
      refine ⟨hc.sole, fun h hh => ?_⟩
      obtain ⟨hreach, hfile⟩ := hc.named h hh
      exact ⟨reach_of_spares hreach hgrows.spares, hgrows.file hfile⟩

theorem giveBack (hc : c.Guarded s) (ht : c.Timely h) (hh : h ∈ c.held) :
    (c.giveBack s h).Guarded s := by
  apply of_fresh_eq_nil
  rw [fresh_giveBack]
  rcases ht with hf | hnil
  · have hlen := List.length_erase_of_mem (mem_fresh_iff.2 ⟨hh, hf⟩)
    have hsole := hc.sole
    apply List.eq_nil_of_length_eq_zero
    omega
  · rw [hnil]
    rfl

/-- Whoever gives back late a lock that was taken over opens the store to one more holder. -/
theorem opened (hc : c.Guarded s) (hh : h ∈ c.fresh) (hlate : g.isFresh c.now = false)
    (host : String) (process : UInt32) :
    1 < ((c.giveBack s g).acquire s host process).fresh.length := by
  obtain ⟨hreach, hfile⟩ := hc.named h hh
  obtain ⟨d₁, hrelease, hs⟩ := release_of_file hreach hfile
  have hreach₁ := reach_of_spares hreach (hs.spares (by rw [hfile]; nofun))
  obtain ⟨d₂, hacquire⟩ := acquire_of_free hreach₁ hs.self ⟨host, process, c.now⟩
  have hne : h ≠ g := by
    rintro rfl
    rw [(mem_fresh_iff.1 hh).2] at hlate
    cases hlate
  have hrest : h ∈ (c.giveBack s g).fresh := by
    rw [fresh_giveBack]
    exact (List.mem_erase_of_ne hne).2 hh
  have hrun : (c.giveBack s g).acquire s host process =
      { c.giveBack s g with
        disk := d₂, held := ⟨host, process, (c.giveBack s g).now⟩ :: (c.giveBack s g).held } := by
    unfold Custody.acquire Custody.giveBack
    rw [hrelease]
    simp only [hacquire]
  rw [hrun, fresh_taken, List.length_cons]
  exact Nat.succ_lt_succ (List.length_pos_of_mem hrest)

end Guarded

theorem guarded_of_runs (h₀ : c₀.held = []) (h : Runs s Timely c₀ c) : c.Guarded s := by
  induction h with
  | refl =>
      apply Guarded.of_fresh_eq_nil
      rw [fresh, h₀]
      rfl
  | wait _ hl ih => exact ih.wait hl
  | acquire _ host process ih => exact ih.acquire host process
  | giveBack _ _ hh ht ih => exact ih.giveBack ht hh

/-- When locks are given back in time, at most one fresh lock is out at every moment. When one is
given back late that was taken over meanwhile, the next one to ask gets a second fresh lock. -/
theorem one_fresh_of_runs_timely (h₀ : c₀.held = []) (h : Runs s Timely c₀ c) :
    c.fresh.length ≤ 1 ∧ ∀ g ∈ c.held, ¬ c.Timely g → ∀ host process,
      1 < ((c.giveBack s g).acquire s host process).fresh.length := by
  have hc := guarded_of_runs h₀ h
  refine ⟨hc.sole, fun g _ hlate host process => ?_⟩
  obtain ⟨hold, hfresh⟩ := not_or.1 hlate
  obtain ⟨h, hh⟩ := List.exists_mem_of_ne_nil _ hfresh
  exact hc.opened hh (Bool.eq_false_iff.2 hold) host process

section Histories

def midnight : Timestamp := ⟨2024, 6, 1, 0, 0, 0, 0, by decide⟩

def anHourLater : Timestamp := ⟨2024, 6, 1, 1, 0, 0, 0, by decide⟩

def bare : Store := ⟨⟨[], []⟩⟩

/-- The first holder is an hour late, and a second one has taken the lock over. -/
def takenOver : Custody :=
  ((Custody.acquire bare "a" 1 ⟨{}, midnight, []⟩).wait anHourLater).acquire bare "b" 2

theorem runs_takenOver (allowed : Custody → Holder → Prop) :
    Runs bare allowed ⟨{}, midnight, []⟩ takenOver :=
  .acquire (.wait (.acquire .refl "a" 1) (by decide)) "b" 2

theorem held_takenOver : takenOver.held = [⟨"b", 2, anHourLater⟩, ⟨"a", 1, midnight⟩] := by
  decide +kernel

theorem one_fresh_when_takenOver :
    Custody.held ⟨{}, midnight, []⟩ = [] ∧ Runs bare Timely ⟨{}, midnight, []⟩ takenOver ∧
      takenOver.fresh.length ≤ 1 ∧ ∀ g ∈ takenOver.held, ¬ takenOver.Timely g → ∀ host process,
        1 < ((takenOver.giveBack bare g).acquire bare host process).fresh.length :=
  ⟨rfl, runs_takenOver Timely, one_fresh_of_runs_timely rfl (runs_takenOver Timely)⟩

/-- Were locks given back at any time, two of them could be fresh: the first holder comes back for
its lock, and a third one is let in beside the second. -/
theorem not_one_fresh_of_runs : ¬ ∀ (s : Store) (c₀ c : Custody), c₀.held = [] →
    Runs s (fun _ _ => True) c₀ c → c.fresh.length ≤ 1 := by
  intro hall
  have hback := (runs_takenOver fun _ _ => True).giveBack ⟨"a", 1, midnight⟩
    (by rw [held_takenOver]; decide) trivial
  have hle := hall _ _ _ rfl (hback.acquire "c" 3)
  have htwo : ((takenOver.giveBack bare ⟨"a", 1, midnight⟩).acquire bare "c" 3).fresh.length = 2 := by
    decide +kernel
  omega

end Histories

end Custody

end VirtualInfra.Store
