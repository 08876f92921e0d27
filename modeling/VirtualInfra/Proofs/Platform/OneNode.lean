import VirtualInfra.Platform.OneNode
import VirtualInfra.Proofs.Host
import VirtualInfra.Proofs.Store.Update

namespace VirtualInfra.Platform

open Store

theorem clash?_eq_none_iff {kept : List (String × Machine.Spec)} {spec : Machine.Spec} :
    clash? kept spec = none ↔
      (∀ e ∈ kept, e.1 ≠ spec.name) ∧
        ∀ v ∈ spec.volumes, ∀ e ∈ kept, e.2.hasVolume v.name = false := by
  rw [clash?]
  split
  · next h =>
      rw [List.any_eq_true] at h
      obtain ⟨e, he, hname⟩ := h
      exact ⟨nofun, fun h => absurd (of_decide_eq_true hname) (h.1 e he)⟩
  · next h =>
      rw [Bool.not_eq_true, List.any_eq_false] at h
      simp only [List.findSome?_eq_none_iff, Option.map_eq_none_iff, List.find?_eq_none,
        Bool.not_eq_true]
      exact ⟨fun hv => ⟨fun e he hname => h e he (decide_eq_true hname), hv⟩, fun h => h.2⟩

namespace OneNode

structure Holds (w : OneNode) (t : Table Stored) : Prop where
  fits : w.store.Fits
  keeps : w.store.Keeps w.disk t

def medium (w : OneNode) : Disk × Store := (w.disk, w.store)

/-- Time has passed, and another caller may have come. -/
def Later (w w' : OneNode) : Prop :=
  ∃ now host process, w' = { w with now, host, process }

/-- Nothing has been stored yet, and the ways to the files are not too long. The directory of the
store may be there already, if it is empty. -/
structure IsNew (w : OneNode) : Prop where
  fits : w.store.Fits
  empty : ∃ base, w.store.Vacant base w.disk ∨ w.store.Shows base w.disk fun _ => none

variable {w w' : OneNode} {t t' : Table Stored} {name : String} {m : Stored}

theorem Later.refl (w : OneNode) : w.Later w := ⟨w.now, w.host, w.process, rfl⟩

theorem IsNew.holds (h : w.IsNew) : w.Holds ∅ := by
  obtain ⟨base, hv | hs⟩ := h.empty
  · exact ⟨h.fits, .vacant hv⟩
  · have hloads : Loads w.now (fun _ => none) (.initial w.now) := .initial rfl rfl
    exact ⟨h.fits, .shown hs rfl hloads⟩

def blank : OneNode where
  disk := {}
  store := ⟨⟨[], []⟩⟩
  now := ⟨2024, 1, 1, 0, 0, 0, 0, by decide⟩
  host := "localhost"
  process := 1
  fresh n := s!"uid-{n}"

theorem isNew_blank : blank.IsNew where
  fits := by
    rw [Fits]
    decide
  empty := ⟨[], .inl ⟨rfl, rfl, fun _ => rfl⟩⟩

theorem update_of_store {α : Type} {f : State → Except Problem (α × State)} {r : Except Problem α}
    {d : Disk} (h : w.store.update w.holder f w.disk = (r, d)) :
    update f w = (r.mapError Problem.fault, { w with disk := d }) := by
  rw [update]
  rw [h]

namespace Holds

theorem load (h : w.Holds t) :
    ∃ st, w.load = .ok st ∧ st.version ≤ currentVersion ∧ st.machines = t :=
  h.keeps.load h.fits w.now

theorem of_medium (h : w.Holds t) (hm : w'.medium = w.medium) : w'.Holds t := by
  obtain ⟨hd, hs⟩ := Prod.mk.inj hm
  refine ⟨hs ▸ h.fits, ?_⟩
  rw [hd, hs]
  exact h.keeps

theorem later (h : w.Holds t) (hl : w.Later w') : w'.Holds t := by
  obtain ⟨now, host, process, rfl⟩ := hl
  exact h.of_medium rfl

theorem find_of_none (h : w.Holds t) (hm : t.get? name = none) :
    w.find name = .error (.unknownMachine name) := by
  obtain ⟨st, hst, -, rfl⟩ := h.load
  rw [find]
  rw [hst, Except.ok_bind, hm]
  rfl

theorem find_of_some (h : w.Holds t) (hm : t.get? name = some m) : w.find name = .ok m := by
  obtain ⟨st, hst, -, rfl⟩ := h.load
  rw [find]
  refine Except.bind_eq_ok_iff.2 ⟨st, hst, ?_⟩
  rw [hm]
  rfl

variable {α : Type} {f : State → Except Problem (α × State)}

theorem update_of_error (h : w.Holds t) {p : Problem}
    (hp : ∀ st, st.machines = t → f st = .error p) :
    ∃ d, update f w = (.error p.fault, { w with disk := d }) ∧ Holds { w with disk := d } t := by
  obtain ⟨st, hst, -, ht⟩ := h.load
  obtain ⟨d, hd, hk⟩ := h.keeps.update_of_error h.fits w.holder hst (hp st ht)
  exact ⟨d, update_of_store hd, h.fits, hk⟩

theorem update_of_ok (h : w.Holds t) {a : α}
    (ha : ∀ st, st.machines = t →
      ∃ st', f st = .ok (a, st') ∧ st'.machines = t' ∧ st'.version = st.version) :
    ∃ d, update f w = (.ok a, { w with disk := d }) ∧ Holds { w with disk := d } t' := by
  obtain ⟨st, hst, hv, ht⟩ := h.load
  obtain ⟨st', hst', rfl, hv'⟩ := ha st ht
  obtain ⟨d, hd, hk⟩ := h.keeps.update_of_ok h.fits w.holder hst hst' (hv' ▸ hv)
  exact ⟨d, update_of_store hd, h.fits, hk⟩

end Holds

@[simp] theorem uid_applyRunStrategy (now : Timestamp) (r : RunStrategy) (m : Stored) :
    (applyRunStrategy now r m).machine.uid = m.machine.uid := by
  rw [applyRunStrategy]
  split <;> rfl

@[simp] theorem spec_applyRunStrategy (now : Timestamp) (r : RunStrategy) (m : Stored) :
    (applyRunStrategy now r m).machine.spec = { m.machine.spec with runStrategy := r } := by
  rw [applyRunStrategy]
  split <;> rfl

@[simp] theorem uid_stored (now : Timestamp) (uid : String) (spec : Machine.Spec) :
    (stored now uid spec).machine.uid = uid :=
  uid_applyRunStrategy _ _ _

@[simp] theorem spec_stored (now : Timestamp) (uid : String) (spec : Machine.Spec) :
    (stored now uid spec).machine.spec = spec :=
  spec_applyRunStrategy _ _ _

def specs (t : Table Stored) : List (String × Machine.Spec) :=
  t.entries.map fun (name, m) => (name, m.machine.spec)

def kept (st : State) : List (String × Machine.Spec) := specs st.machines

/-- A node and any other platform refuse the same machines, and for the same cause. -/
theorem clashIn?_eq_clash? (spec : Machine.Spec) (st : State) :
    clashIn? spec st = clash? (OneNode.kept st) spec := by
  have hname : st.machines.contains spec.name = (OneNode.kept st).any (·.1 = spec.name) := by
    rw [Bool.eq_iff_iff, Table.contains_iff, List.any_eq_true]
    simp only [OneNode.kept, specs, List.mem_map, Table.get?_eq_some_iff_mem, decide_eq_true_eq]
    constructor
    · rintro ⟨m, hm⟩
      exact ⟨_, ⟨_, hm, rfl⟩, rfl⟩
    · rintro ⟨_, ⟨⟨name, m⟩, hm, rfl⟩, rfl⟩
      exact ⟨m, hm⟩
  have howner (volume : String) : st.volumeOwner? volume =
      ((OneNode.kept st).find? (·.2.hasVolume volume)).map (·.2.name) := by
    rw [State.volumeOwner?, Table.values, OneNode.kept, specs, List.find?_map, List.find?_map,
      Option.map_map, Option.map_map]
    rfl
  rw [clashIn?, clash?, hname]
  simp only [howner, Option.map_map]
  rfl

theorem clash?_specs_empty (spec : Machine.Spec) : clash? (specs ∅) spec = none :=
  clash?_eq_none_iff.2 ⟨nofun, fun _ _ => nofun⟩

theorem get?_eq_none_of_clash? {spec : Machine.Spec} (h : clash? (specs t) spec = none) :
    t.get? spec.name = none := by
  rw [Option.eq_none_iff_forall_ne_some]
  intro m hm
  exact (clash?_eq_none_iff.1 h).1 _ (List.mem_map_of_mem (Table.get?_eq_some_iff_mem.1 hm)) rfl

section Calls

variable {spec : Machine.Spec} {r : RunStrategy}

/-- Every call that changes the machines is a change of the stored state, and keeps its version. -/
theorem exists_update_of_changes {α : Type} {call : Call α} (c : Catalogue)
    (hc : call.changes = true) (w : OneNode) :
    ∃ (g : State → Except Problem (α × State)) (drawn : Nat),
      platform.answer c call w = ((update g w).1, { (update g w).2 with drawn }) ∧
        ∀ st a st', g st = .ok (a, st') → st'.version = st.version := by
  cases call with
  | create spec =>
      refine ⟨createIn w.now (w.fresh w.drawn) spec, w.drawn + 1, rfl, fun st a st' h => ?_⟩
      rw [createIn] at h
      split at h <;> cases h
      rfl
  | setRunStrategy name r =>
      refine ⟨setRunStrategyIn w.now name r, w.drawn, rfl, fun st a st' h => ?_⟩
      rw [setRunStrategyIn] at h
      split at h <;> cases h
      rfl
  | delete name =>
      refine ⟨deleteIn w.now name, w.drawn, rfl, fun st a st' h => ?_⟩
      rw [deleteIn] at h
      split at h <;> cases h
      rfl
  | flavour | image | network | subnet | machine | running | machines => cases hc

theorem create_of_clash (h : w.Holds t) {cause : Fault.Cause}
    (hc : clash? (specs t) spec = some cause) :
    ∃ d, platform.create spec w = (.error (Fault.Cause.reported .alreadyExists cause.message),
        { w with disk := d, drawn := w.drawn + 1 }) ∧
      Holds { w with disk := d, drawn := w.drawn + 1 } t := by
  have hin : ∀ st : State, st.machines = t →
      createIn w.now (w.fresh w.drawn) spec st = .error (.conflict cause.message) := by
    rintro st rfl
    rw [createIn, clashIn?_eq_clash?]
    rw [show clash? (OneNode.kept st) spec = some cause from hc]
  obtain ⟨d, hd, hk⟩ := h.update_of_error hin
  refine ⟨d, ?_, hk.fits, hk.keeps⟩
  simp only [platform, hd]
  rfl

theorem create_of_free (h : w.Holds t) (hc : clash? (specs t) spec = none) :
    ∃ d, platform.create spec w =
        (.ok { uid := w.fresh w.drawn, name := spec.name, labels := spec.labels },
          { w with disk := d, drawn := w.drawn + 1 }) ∧
      Holds { w with disk := d, drawn := w.drawn + 1 }
        (t.insert spec.name (stored w.now (w.fresh w.drawn) spec)) := by
  have hin : ∀ st : State, st.machines = t → ∃ st',
      createIn w.now (w.fresh w.drawn) spec st =
        .ok ({ uid := w.fresh w.drawn, name := spec.name, labels := spec.labels }, st') ∧
      st'.machines = t.insert spec.name (stored w.now (w.fresh w.drawn) spec) ∧
      st'.version = st.version := by
    rintro st rfl
    rw [createIn, clashIn?_eq_clash?]
    rw [show clash? (OneNode.kept st) spec = none from hc]
    refine ⟨_, rfl, ?_, rfl⟩
    rw [State.insert, spec_stored]
  obtain ⟨d, hd, hk⟩ := h.update_of_ok hin
  refine ⟨d, ?_, hk.fits, hk.keeps⟩
  simp only [platform, hd]

theorem setRunStrategy_of_some (h : w.Holds t) (hm : t.get? name = some m) :
    ∃ d, platform.setRunStrategy name r w = (.ok (), { w with disk := d }) ∧
      Holds { w with disk := d } (t.insert name (applyRunStrategy w.now r m)) := by
  apply h.update_of_ok
  rintro st rfl
  rw [setRunStrategyIn]
  rw [hm]
  exact ⟨_, rfl, rfl, rfl⟩

theorem setRunStrategy_of_none (h : w.Holds t) (hm : t.get? name = none) :
    ∃ d, platform.setRunStrategy name r w =
        (.error (Problem.unknownMachine name).fault, { w with disk := d }) ∧
      Holds { w with disk := d } t := by
  apply h.update_of_error
  rintro st rfl
  rw [setRunStrategyIn]
  rw [hm]

theorem delete_of_some (h : w.Holds t) (hm : t.get? name = some m) :
    ∃ d, platform.delete name w = (.ok (), { w with disk := d }) ∧
      Holds { w with disk := d } (t.erase name) := by
  apply h.update_of_ok
  rintro st rfl
  rw [deleteIn]
  rw [if_pos (Table.contains_iff.2 ⟨m, hm⟩)]
  exact ⟨_, rfl, rfl, rfl⟩

theorem delete_of_none (h : w.Holds t) (hm : t.get? name = none) :
    ∃ d, platform.delete name w =
        (.error (Problem.unknownMachine name).fault, { w with disk := d }) ∧
      Holds { w with disk := d } t := by
  apply h.update_of_error
  rintro st rfl
  rw [deleteIn]
  rw [if_neg]
  rw [Table.contains, hm]
  exact Bool.false_ne_true

theorem machine_of_none (h : w.Holds t) (hm : t.get? name = none) :
    platform.machine name w = (.error (Problem.unknownMachine name).fault, w) := by
  simp only [platform, look, h.find_of_none hm]
  rfl

theorem machine_of_some (h : w.Holds t) (hm : t.get? name = some m) :
    platform.machine name w = (.ok m.machine, w) := by
  simp only [platform, look, h.find_of_some hm]
  rfl

theorem running_of_some (h : w.Holds t) (hm : t.get? name = some m) :
    platform.running name w = (.ok m.running, w) := by
  simp only [platform, look, h.find_of_some hm]
  rfl

theorem machines_of_holds (h : w.Holds t) :
    platform.machines w = (.ok (t.values.map (·.machine)), w) := by
  obtain ⟨st, hst, -, rfl⟩ := h.load
  simp only [platform, look, hst]
  rfl

namespace Holds

theorem of_create (h : w.Holds t) {x : Except Fault Machine.Created}
    (hw : platform.create spec w = (x, w')) :
    clash? (specs t) spec ≠ none ∧ (∃ f, x = .error f ∧ f.kind = .alreadyExists) ∧ w'.Holds t ∨
      clash? (specs t) spec = none ∧ ∃ created : Machine.Created, x = .ok created ∧
        created.name = spec.name ∧ created.labels = spec.labels ∧
        w'.Holds (t.insert spec.name (stored w.now created.uid spec)) := by
  cases hc : clash? (specs t) spec with
  | some cause =>
      obtain ⟨d, hd, h'⟩ := create_of_clash h hc
      rw [hd] at hw
      cases hw
      exact .inl ⟨nofun, ⟨_, rfl, rfl⟩, h'⟩
  | none =>
      obtain ⟨d, hd, h'⟩ := create_of_free h hc
      rw [hd] at hw
      cases hw
      exact .inr ⟨rfl, _, rfl, rfl, rfl, h'⟩

theorem of_create_ok (h : w.Holds t) {created : Machine.Created}
    (hw : platform.create spec w = (.ok created, w')) :
    clash? (specs t) spec = none ∧ created.name = spec.name ∧ created.labels = spec.labels ∧
      w'.Holds (t.insert spec.name (stored w.now created.uid spec)) := by
  rcases h.of_create hw with ⟨-, ⟨f, hf, -⟩, -⟩ | ⟨hc, _, hx, hname, hlabels, h'⟩
  · cases hf
  · cases hx
    exact ⟨hc, hname, hlabels, h'⟩

theorem of_create_error (h : w.Holds t) {f : Fault}
    (hw : platform.create spec w = (.error f, w')) : w'.Holds t := by
  rcases h.of_create hw with ⟨-, -, h'⟩ | ⟨-, _, hx, -⟩
  · exact h'
  · cases hx

theorem of_setRunStrategy (h : w.Holds t) {x : Except Fault Unit}
    (hw : platform.setRunStrategy name r w = (x, w')) :
    t.get? name = none ∧ w'.Holds t ∨
      ∃ m, t.get? name = some m ∧ w'.Holds (t.insert name (applyRunStrategy w.now r m)) := by
  cases hm : t.get? name with
  | none =>
      obtain ⟨d, hd, h'⟩ := setRunStrategy_of_none (r := r) h hm
      rw [hd] at hw
      cases hw
      exact .inl ⟨rfl, h'⟩
  | some m =>
      obtain ⟨d, hd, h'⟩ := setRunStrategy_of_some (r := r) h hm
      rw [hd] at hw
      cases hw
      exact .inr ⟨m, rfl, h'⟩

theorem of_delete (h : w.Holds t) {x : Except Fault Unit}
    (hw : platform.delete name w = (x, w')) :
    t.get? name = none ∧ (∃ f, x = .error f) ∧ w'.Holds t ∨
      ∃ m, t.get? name = some m ∧ x = .ok () ∧ w'.Holds (t.erase name) := by
  cases hm : t.get? name with
  | none =>
      obtain ⟨d, hd, h'⟩ := delete_of_none h hm
      rw [hd] at hw
      cases hw
      exact .inl ⟨rfl, ⟨_, rfl⟩, h'⟩
  | some m =>
      obtain ⟨d, hd, h'⟩ := delete_of_some h hm
      rw [hd] at hw
      cases hw
      exact .inr ⟨m, rfl, rfl, h'⟩

end Holds

end Calls

end OneNode

end VirtualInfra.Platform
