import VirtualInfra.Platform.Memory
import VirtualInfra.Proofs.Platform.Exclusion

namespace VirtualInfra

variable {α : Type}

def Call.isAboutMachines : Call α → Bool
  | .create _ | .machine _ | .machines | .setRunStrategy .. | .delete _ => true
  | _ => false

/-- What two answers to a call have in common if the machines have the same specs. -/
def Call.Matches : {α : Type} → Call α → α → α → Prop
  | _, .create _, c, c' => c.name = c'.name ∧ c.labels = c'.labels
  | _, .machine _, m, m' => m.spec = m'.spec
  | _, .machines, ms, ms' => ms.map (·.spec) = ms'.map (·.spec)
  | _, _, a, a' => a = a'

inductive Fault.Alike (R : α → α → Prop) : Except Fault α → Except Fault α → Prop
  | ok {a b : α} (h : R a b) : Alike R (.ok a) (.ok b)
  | error {f g : Fault} (kind : f.kind = g.kind) (text : f.text = g.text) :
      Alike R (.error f) (.error g)

namespace Platform

open Store OneNode

variable {kept : List (String × Machine.Spec)} {spec : Machine.Spec} {cause : Fault.Cause}
  {v : Memory} {w w' : OneNode} {t : Table Stored} {c : Catalogue}

theorem clash?_eq_some (h : clash? kept spec = some cause) :
    cause = .nameTaken spec.name ∨ ∃ volume owner, cause = .volumeTaken volume owner := by
  rw [clash?] at h
  split at h
  · cases h
    exact .inl rfl
  · obtain ⟨volume, -, h⟩ := List.exists_of_findSome?_eq_some h
    obtain ⟨owner, -, rfl⟩ := Option.map_eq_some_iff.1 h
    exact .inr ⟨_, _, rfl⟩

theorem alike_of_clash {R : α → α → Prop} (h : clash? kept spec = some cause) :
    Fault.Alike R (.error cause)
      (.error (Fault.Cause.reported .alreadyExists cause.message : Fault)) := by
  rcases clash?_eq_some h with rfl | ⟨volume, owner, rfl⟩
  · exact .error rfl rfl
  · exact .error rfl rfl

def SameSpec (_ : String) (m : Machine) (s : Stored) : Prop := m.spec = s.machine.spec

/-- The node holds machines of the same specs as the memory, which plays no tricks. -/
structure Mimics (v : Memory) (w : OneNode) (t : Table Stored) : Prop where
  labels : v.dropsLabels = false
  deletes : v.refusesDeletes = false
  holds : w.Holds t
  same : Table.Rel SameSpec v.machines t

namespace Mimics

theorem kept_eq (h : Mimics v w t) : v.kept = specs t := by
  rw [Memory.kept, specs, ← List.forall₂_eq_eq_eq, List.forall₂_map_left_iff,
    List.forall₂_map_right_iff]
  exact h.same.entries.imp fun _ _ he => Prod.ext he.1 he.2

theorem specs_eq (h : Mimics v w t) :
    v.machines.values.map (·.spec) = (t.values.map (·.machine)).map (·.spec) := by
  have hspecs := congrArg (List.map Prod.snd) h.kept_eq
  rw [Memory.kept, specs, List.map_map, List.map_map] at hspecs
  rw [Table.values, Table.values, List.map_map, List.map_map, List.map_map]
  exact hspecs

theorem of_same (h : Mimics v w t) {v' : Memory} {t' : Table Stored}
    (hlabels : v'.dropsLabels = v.dropsLabels) (hdeletes : v'.refusesDeletes = v.refusesDeletes)
    (hw : w'.Holds t') (hsame : Table.Rel SameSpec v'.machines t') : Mimics v' w' t' :=
  ⟨hlabels.trans h.labels, hdeletes.trans h.deletes, hw, hsame⟩

end Mimics

structure Agrees (call : Call α) (x : Except Fault α × Memory) (y : Except Fault α × OneNode) :
    Prop where
  mimics : ∃ t, Mimics x.2 y.2 t
  alike : Fault.Alike call.Matches x.1 y.1

section Memory

theorem Memory.create_of_clash (hc : clash? v.kept spec = some cause) :
    Memory.platform.create spec v = (.error cause, { v with asked := v.asked ++ [spec] }) := by
  have hkept : clash? (Memory.kept { v with asked := v.asked ++ [spec] }) spec = some cause := hc
  change Memory.create spec v = _
  rw [Memory.create, hkept]

theorem Memory.create_of_free (hc : clash? v.kept spec = none) (hl : v.dropsLabels = false) :
    ∃ created v', Memory.platform.create spec v = (.ok created, v') ∧
      created.name = spec.name ∧ created.labels = spec.labels ∧
      v'.machines = v.machines.insert spec.name { uid := created.uid, spec } ∧
      v'.dropsLabels = v.dropsLabels ∧ v'.refusesDeletes = v.refusesDeletes := by
  have hkept : clash? (Memory.kept { v with asked := v.asked ++ [spec] }) spec = none := hc
  change ∃ created v', Memory.create spec v = _ ∧ _
  rw [Memory.create, hkept]
  refine ⟨_, _, rfl, rfl, if_neg ?_, rfl, rfl, rfl⟩
  rw [hl]
  exact Bool.false_ne_true

end Memory

section Calls

variable (h : Mimics v w t) (name : String) (r : RunStrategy)

include h

theorem agrees_create (spec : Machine.Spec) :
    Agrees (.create spec) (Memory.platform.create spec v) (OneNode.platform.create spec w) := by
  cases hc : clash? v.kept spec with
  | some cause =>
      obtain ⟨d, hcreate, h'⟩ := create_of_clash h.holds (h.kept_eq ▸ hc)
      rw [hcreate, Memory.create_of_clash hc]
      exact ⟨⟨t, h.of_same rfl rfl h' h.same⟩, alike_of_clash hc⟩
  | none =>
      obtain ⟨d, hcreate, h'⟩ := create_of_free h.holds (h.kept_eq ▸ hc)
      obtain ⟨created, v', hcopy, hname, hlabels, hmachines, hflags⟩ :=
        Memory.create_of_free hc h.labels
      rw [hcreate, hcopy]
      refine ⟨⟨_, h.of_same hflags.1 hflags.2 h' ?_⟩, .ok ⟨hname, hlabels⟩⟩
      rw [hmachines]
      exact h.same.insert (spec_stored w.now (w.fresh w.drawn) spec).symm

theorem agrees_setRunStrategy :
    Agrees (.setRunStrategy name r) (Memory.platform.setRunStrategy name r v)
      (OneNode.platform.setRunStrategy name r w) := by
  change Agrees _ (Memory.setRunStrategy name r v) _
  rw [Memory.setRunStrategy, Memory.find]
  cases hm : v.machines.get? name with
  | none =>
      have hs := (h.same.get?_eq_none_iff name).1 hm
      obtain ⟨d, hset, h'⟩ := setRunStrategy_of_none (r := r) h.holds hs
      rw [hset]
      exact ⟨⟨t, h.of_same rfl rfl h' h.same⟩, .error rfl rfl⟩
  | some m =>
      obtain ⟨s, hs, hspec⟩ := h.same.exists_right hm
      obtain ⟨d, hset, h'⟩ := setRunStrategy_of_some (r := r) h.holds hs
      rw [hset]
      have hspec' : { m.spec with runStrategy := r } =
          (applyRunStrategy w.now r s).machine.spec := by
        rw [spec_applyRunStrategy, hspec]
      exact ⟨⟨_, h.of_same rfl rfl h' (h.same.insert hspec')⟩, .ok rfl⟩

theorem agrees_delete :
    Agrees (.delete name) (Memory.platform.delete name v) (OneNode.platform.delete name w) := by
  change Agrees _ (Memory.delete name v) _
  rw [Memory.delete, if_neg (h.deletes ▸ Bool.false_ne_true), Memory.find]
  cases hm : v.machines.get? name with
  | none =>
      have hs := (h.same.get?_eq_none_iff name).1 hm
      obtain ⟨d, hdelete, h'⟩ := delete_of_none h.holds hs
      -- the memory erases what is not there as well
      have hsame := h.same.erase name
      rw [Table.erase_of_none hs] at hsame
      rw [hdelete]
      exact ⟨⟨t, h.of_same rfl rfl h' hsame⟩, .error rfl rfl⟩
  | some m =>
      obtain ⟨s, hs, -⟩ := h.same.exists_right hm
      obtain ⟨d, hdelete, h'⟩ := delete_of_some h.holds hs
      rw [hdelete]
      exact ⟨⟨_, h.of_same rfl rfl h' (h.same.erase name)⟩, .ok rfl⟩

theorem agrees_machine :
    Agrees (.machine name) (Memory.platform.machine name v) (OneNode.platform.machine name w) := by
  change Agrees _ (v.find name, v) _
  rw [Memory.find]
  cases hm : v.machines.get? name with
  | none =>
      rw [machine_of_none h.holds ((h.same.get?_eq_none_iff name).1 hm)]
      exact ⟨⟨t, h⟩, .error rfl rfl⟩
  | some m =>
      obtain ⟨s, hs, hspec⟩ := h.same.exists_right hm
      rw [machine_of_some h.holds hs]
      exact ⟨⟨t, h⟩, .ok hspec⟩

theorem agrees_machines :
    Agrees .machines (Memory.platform.machines v) (OneNode.platform.machines w) := by
  rw [machines_of_holds h.holds]
  exact ⟨⟨t, h⟩, .ok h.specs_eq⟩

theorem agrees_answer (c : Catalogue) (call : Call α) (hc : call.isAboutMachines = true) :
    Agrees call (Memory.platform.answer c call v) (OneNode.platform.answer c call w) := by
  cases call with
  | create spec => exact agrees_create h spec
  | machine name => exact agrees_machine h name
  | machines => exact agrees_machines h
  | setRunStrategy name r => exact agrees_setRunStrategy h name r
  | delete name => exact agrees_delete h name
  | flavour | image | network | subnet | running => cases hc

end Calls

/-- What a new memory and an empty node come to when the same calls are made on both, one after the
other. -/
inductive Together (c : Catalogue) : Memory → OneNode → Prop
  | start {w : OneNode} (h : w.IsNew) : Together c {} w
  | later {v : Memory} {w w' : OneNode} (h : Together c v w) (hl : w.Later w') : Together c v w'
  | call {α : Type} {v : Memory} {w : OneNode} (h : Together c v w) (call : Call α)
      (hc : call.isAboutMachines = true) :
      Together c (Memory.platform.answer c call v).2 (OneNode.platform.answer c call w).2

theorem Together.of_create {x : Except Fault Machine.Created} (h : Together c v w)
    (hw : OneNode.platform.create spec w = (x, w')) :
    Together c (Memory.create spec v).2 w' := by
  have hcreate := h.call (.create spec) rfl
  rw [Platform.answer, Platform.answer, hw] at hcreate
  exact hcreate

theorem mimics_of_together (h : Together c v w) : ∃ t, Mimics v w t := by
  induction h with
  | start h => exact ⟨∅, rfl, rfl, h.holds, .empty⟩
  | later _ hl ih =>
      obtain ⟨t, h⟩ := ih
      exact ⟨t, h.of_same rfl rfl (h.holds.later hl) h.same⟩
  | call _ call hc ih =>
      obtain ⟨t, h⟩ := ih
      exact (agrees_answer h c call hc).mimics

/-- The two hold machines of the same names and specs in the same order, and whatever is called next
is answered alike. -/
structure Indistinct (c : Catalogue) (v : Memory) (w : OneNode) : Prop where
  kept : ∃ st, w.load = .ok st ∧ OneNode.kept st = v.kept
  answers : ∀ {α : Type} (call : Call α), call.isAboutMachines = true →
    Fault.Alike call.Matches (Memory.platform.answer c call v).1 (OneNode.platform.answer c call w).1

theorem indistinct_of_together (h : Together c v w) : Indistinct c v w := by
  obtain ⟨t, h⟩ := mimics_of_together h
  constructor
  · obtain ⟨st, hst, -, rfl⟩ := h.holds.load
    exact ⟨st, hst, h.kept_eq.symm⟩
  · exact fun call hc => (agrees_answer h c call hc).alike

def paired : Memory := (Memory.create neighbour (Memory.create single {}).2).2

/-- After two creations, both refuse a third for the boot volume of the first machine. -/
theorem indistinct_of_refused : ∃ w w', Together {} paired w ∧
    (Memory.create squatter paired).1 = .error (Fault.Cause.volumeTaken "vm-disk" "vm") ∧
    OneNode.platform.create squatter w = (.error (Fault.Cause.reported .alreadyExists
      (Fault.Cause.volumeTaken "vm-disk" "vm").message), w') ∧
    (Memory.create squatter paired).2.kept = [("vm", single), ("web", neighbour)] ∧
    Together {} (Memory.create squatter paired).2 w' ∧
    Indistinct {} (Memory.create squatter paired).2 w' := by
  obtain ⟨made, made', w₁, w₂, w₃, t, h₁, h₂, h₃, -⟩ := exists_refused
  have hone : Together {} (Memory.create single {}).2 w₁ := (Together.start isNew_blank).of_create h₁
  have hboth : Together {} paired w₂ := hone.of_create h₂
  have hrefused := hboth.of_create h₃
  exact ⟨w₂, w₃, hboth, by decide, h₃, by decide, hrefused, indistinct_of_together hrefused⟩

end Platform

end VirtualInfra
