import Mathlib.Control.Monad.Basic
import VirtualInfra.Proofs.Rollback

namespace VirtualInfra

open Platform OneNode Store Request Tenancy

inductive Deed where
  | made (created : Machine.Created)
  | removed (name : String)

namespace Deed

def afterCreate (ds : List Deed) : Except Fault Machine.Created → List Deed
  | .ok created => ds ++ [.made created]
  | .error _ => ds

def afterDelete (name : String) (ds : List Deed) : Except Fault Unit → List Deed
  | .ok () => ds ++ [.removed name]
  | .error _ => ds

end Deed

/-- What a node comes to while others call it, and what they have done by then. -/
inductive Meanwhile (w₀ : OneNode) : OneNode → List Deed → Prop
  | refl : Meanwhile w₀ w₀ []
  | later {w w' : OneNode} {ds : List Deed} (h : Meanwhile w₀ w ds) (hl : w.Later w') :
      Meanwhile w₀ w' ds
  | create {w : OneNode} {ds : List Deed} (h : Meanwhile w₀ w ds) (spec : Machine.Spec) :
      Meanwhile w₀ (platform.create spec w).2 (Deed.afterCreate ds (platform.create spec w).1)
  | setRunStrategy {w : OneNode} {ds : List Deed} (h : Meanwhile w₀ w ds) (name : String)
      (r : RunStrategy) : Meanwhile w₀ (platform.setRunStrategy name r w).2 ds
  | delete {w : OneNode} {ds : List Deed} (h : Meanwhile w₀ w ds) (name : String) :
      Meanwhile w₀ (platform.delete name w).2 (Deed.afterDelete name ds (platform.delete name w).1)

/-- What is kept under the name of a machine that was created: that machine, one that somebody made
after somebody had removed it, or nothing after it was removed. -/
inductive Fate (created : Machine.Created) (ds : List Deed) : Option Stored → Prop
  | kept {m : Stored} (spared : .removed created.name ∉ ds) (uid : m.machine.uid = created.uid) :
      Fate created ds (some m)
  | replaced {m : Stored} {other : Machine.Created} (removed : .removed created.name ∈ ds)
      (made : .made other ∈ ds) (name : other.name = created.name)
      (uid : m.machine.uid = other.uid) : Fate created ds (some m)
  | gone (removed : .removed created.name ∈ ds) : Fate created ds none

variable {created : Machine.Created} {ds ds' : List Deed} {w w' w₀ : OneNode} {t : Table Stored}

namespace Fate

variable {m m' : Stored} {o : Option Stored}

theorem mono (h : Fate created ds o) (hds : ∀ deed ∈ ds, deed ∈ ds')
    (hremoved : .removed created.name ∈ ds' → .removed created.name ∈ ds) : Fate created ds' o := by
  cases h with
  | kept spared uid => exact .kept (fun hr => spared (hremoved hr)) uid
  | replaced removed made name uid => exact .replaced (hds _ removed) (hds _ made) name uid
  | gone removed => exact .gone (hds _ removed)

theorem of_uid_eq (h : Fate created ds (some m)) (hm : m'.machine.uid = m.machine.uid) :
    Fate created ds (some m') := by
  cases h with
  | kept spared uid => exact .kept spared (hm.trans uid)
  | replaced removed made name uid => exact .replaced removed made name (hm.trans uid)

theorem removed_of_none (h : Fate created ds none) : .removed created.name ∈ ds := by
  cases h with
  | gone removed => exact removed

end Fate

/-- A step of the others: the node still holds a table, in which the fate of each machine is what the
deeds say. -/
def Traces (w : OneNode) (t : Table Stored) (ds ds' : List Deed) : Prop :=
  ∃ t', w.Holds t' ∧ ∀ created, Fate created ds (t.get? created.name) →
    Fate created ds' (t'.get? created.name)

theorem Traces.trans {ds₀ : List Deed} (h : Traces w t ds₀ ds)
    (hstep : ∀ t', w.Holds t' → Traces w' t' ds ds') : Traces w' t ds₀ ds' := by
  obtain ⟨t', h', hfate⟩ := h
  obtain ⟨t'', h'', hfate'⟩ := hstep t' h'
  exact ⟨t'', h'', fun created hf => hfate' created (hfate created hf)⟩

section Steps

variable (h : w.Holds t) (ds)

include h

theorem traces_create (spec : Machine.Spec) :
    Traces (platform.create spec w).2 t ds (Deed.afterCreate ds (platform.create spec w).1) := by
  rcases hrun : platform.create spec w with ⟨x, w'⟩
  rcases h.of_create hrun with ⟨-, ⟨f, rfl, -⟩, h'⟩ | ⟨hfree, made, rfl, hname, -, h'⟩
  · exact ⟨t, h', fun _ hf => hf⟩
  · refine ⟨_, h', fun created hf => ?_⟩
    change Fate created (ds ++ [.made made]) _
    rw [Table.get?_insert]
    by_cases he : created.name = spec.name
    · -- the name can only be free because the machine was removed before
      rw [he, get?_eq_none_of_clash? hfree] at hf
      rw [if_pos he]
      exact .replaced (List.mem_append_left _ hf.removed_of_none)
        (List.mem_append_right _ List.mem_cons_self) (hname.trans he.symm) (uid_stored _ _ _)
    · rw [if_neg he]
      exact hf.mono (fun _ hd => List.mem_append_left _ hd) fun hr => by simpa using hr

theorem traces_setRunStrategy (name : String) (r : RunStrategy) :
    Traces (platform.setRunStrategy name r w).2 t ds ds := by
  rcases hrun : platform.setRunStrategy name r w with ⟨x, w'⟩
  rcases h.of_setRunStrategy hrun with ⟨-, h'⟩ | ⟨m, hm, h'⟩
  · exact ⟨t, h', fun _ hf => hf⟩
  · refine ⟨_, h', fun created hf => ?_⟩
    rw [Table.get?_insert]
    by_cases he : created.name = name
    · rw [he, hm] at hf
      rw [if_pos he]
      exact hf.of_uid_eq (uid_applyRunStrategy _ _ _)
    · rwa [if_neg he]

theorem traces_delete (name : String) :
    Traces (platform.delete name w).2 t ds
      (Deed.afterDelete name ds (platform.delete name w).1) := by
  rcases hrun : platform.delete name w with ⟨x, w'⟩
  rcases h.of_delete hrun with ⟨-, ⟨f, rfl⟩, h'⟩ | ⟨m, -, rfl, h'⟩
  · exact ⟨t, h', fun _ hf => hf⟩
  · refine ⟨_, h', fun created hf => ?_⟩
    change Fate created (ds ++ [.removed name]) _
    rw [Table.get?_erase]
    by_cases he : created.name = name
    · subst he
      rw [if_pos rfl]
      exact .gone (List.mem_append_right _ List.mem_cons_self)
    · rw [if_neg he]
      exact hf.mono (fun _ hd => List.mem_append_left _ hd) fun hr => by simpa [he] using hr

end Steps

theorem traces_of_meanwhile (h : w₀.Holds t) (hm : Meanwhile w₀ w ds) : Traces w t [] ds := by
  induction hm with
  | refl => exact ⟨t, h, fun _ hf => hf⟩
  | later _ hl ih =>
      obtain ⟨t', h', hfate⟩ := ih
      exact ⟨t', h'.later hl, hfate⟩
  | @create w ds _ spec ih => exact ih.trans fun _ h' => traces_create ds h' spec
  | @setRunStrategy w ds _ name r ih =>
      exact ih.trans fun _ h' => traces_setRunStrategy ds h' name r
  | @delete w ds _ name ih => exact ih.trans fun _ h' => traces_delete ds h' name

/-- Calls go to a node that others call as well. They come in whenever a call is issued, before it is
answered. -/
structure Host.Shares {World : Type} (host : Host World) (node : World → OneNode)
    (c : Catalogue) : Prop where
  issue {α : Type} (call : Call α) (v : World) :
    ∃ ds, Meanwhile (node v) (node (host.issue call v)) ds
  answer {α : Type} (call : Call α) (v : World) :
    platform.answer c call (node v) = ((host.answer call v).1, node (host.answer call v).2)

theorem Host.Shares.run_call {World α : Type} {host : Host World} {node : World → OneNode}
    {c : Catalogue} (h : host.Shares node c) {call : Call α} {v v' : World} {x : Except Fault α}
    (hx : (host.call call).run v = (x, v')) :
    platform.answer c call (node (host.issue call v)) = (x, node v') := by
  rw [h.answer]
  rw [Host.run_call] at hx
  rw [hx]

namespace Service

variable {World : Type} {host : Host World} {node : World → OneNode} {c : Catalogue}
  {d : Defaults} {r : Request} {spec : Machine.Spec} {v v₀ v₁ : World}

/-- An allocation that has to undo the machine it created: the caller cancelled by the time it was
there, or no answer can be derived. -/
structure Withdraws (host : Host World) (d : Defaults) (r : Request) (v : World)
    (spec : Machine.Spec) (created : Machine.Created) (v₀ v₁ : World) : Prop where
  compiled : (r.compile host d).run v = (.ok spec, v₀)
  seen : host.cancelled v₀ = false
  made : (host.call (.create spec)).run v₀ = (.ok created, v₁)
  ended : host.cancelled v₁ = true ∨ ∃ f, created.project spec = .error f

theorem run_allocate_of_withdraws (h : Withdraws host d r v spec created v₀ v₁)
    {x : Except Fault Unit} {v₂ : World}
    (deleted : (host.call (.delete created.name)).run v₁ = (x, v₂)) :
    ∃ f, (allocate host d r).run v = (.error f, v₂) ∧
      ∃ front : String, f.cause.message = s!"{front}; {cleanup created.name x}" := by
  have hstage : ((host.call (.create spec)).within s!"create VM {spec.name}").run v₀ =
      (.ok created, v₁) := by
    rw [Act.run_within, h.made]
    rfl
  rw [allocate, Act.run_bind_of_ok h.compiled, Act.run_bind_of_ok (Host.run_isCancelled v₀), h.seen]
  simp only [Bool.false_eq_true, if_false]
  rw [Act.run_bind_of_ok hstage, Act.run_bind_of_ok (Host.run_isCancelled v₁)]
  cases late : host.cancelled v₁ with
  | true =>
      obtain ⟨front, hm⟩ := Undo.Report.exists_message_cancelled
        (.single s!"create VM {created.name}" x) s!"create VM {created.name}"
      simp only [if_true]
      rw [run_abort, deleted]
      exact ⟨_, rfl, front, by rw [hm, text_cleanup]⟩
  | false =>
      obtain ⟨f, hf⟩ := h.ended.resolve_left (by rw [late]; exact Bool.false_ne_true)
      simp only [Bool.false_eq_true, if_false, hf]
      rw [run_abort, deleted]
      exact ⟨_, rfl, _, by rw [Undo.Report.message_fault, text_cleanup]⟩

def Tells (created : Machine.Created) (t : Table Stored) (result : Except Fault Resource) : Prop :=
  ∃ f x, ∃ front : String, result = .error f ∧
    f.cause.message = s!"{front}; {cleanup created.name x}" ∧
    (x = .ok () ↔ t.contains created.name = true)

theorem holds_of_withdraws (hs : host.Shares node c)
    (hw : Withdraws host d r v spec created v₀ v₁)
    (h : (node (host.issue (.delete created.name) v₁)).Holds t) :
    (node ((allocate host d r).run v).2).Holds (t.erase created.name) ∧
      Tells created t ((allocate host d r).run v).1 := by
  rcases hdelete : (host.call (.delete created.name)).run v₁ with ⟨x, v₂⟩
  obtain ⟨f, hrun, front, hf⟩ := run_allocate_of_withdraws hw hdelete
  rw [hrun]
  rcases h.of_delete (hs.run_call hdelete) with ⟨hnone, ⟨g, rfl⟩, h'⟩ | ⟨m, hsome, rfl, h'⟩
  · -- nothing is there to delete, so the table stays and the cleanup is told as incomplete
    have habsent : ¬ t.contains created.name = true := by
      rw [Table.contains, hnone]
      exact Bool.false_ne_true
    have hfailed : (.error g : Except Fault Unit) ≠ .ok () := by
      intro he
      cases he
    rw [Table.erase_of_none hnone]
    exact ⟨h', f, _, front, rfl, hf, fun he => absurd he hfailed, fun hc => absurd hc habsent⟩
  · exact ⟨h', f, _, front, rfl, hf, fun _ => Table.contains_iff.2 ⟨m, hsome⟩, fun _ => rfl⟩

structure Undoes (created : Machine.Created) (ds : List Deed) (t t' : Table Stored)
    (result : Except Fault Resource) : Prop where
  removes : t'.get? created.name = none
  spares : ∀ name, name ≠ created.name → t'.get? name = t.get? name
  fate : Fate created ds (t.get? created.name)
  tells : Tells created t result

theorem undoes_of_erase {result : Except Fault Resource}
    (hfate : Fate created ds (t.get? created.name)) (htells : Tells created t result) :
    Undoes created ds t (t.erase created.name) result where
  removes := by rw [Table.get?_erase, if_pos rfl]
  spares name hname := by rw [Table.get?_erase, if_neg hname]
  fate := hfate
  tells := htells

/-- When an allocation is undone while others call the node, what is kept under the name of its
machine is deleted and nothing else. That is the machine it created unless somebody else removed it
meanwhile. -/
theorem undoes_of_withdraws (hs : host.Shares node c)
    (hw : Withdraws host d r v spec created v₀ v₁) (h : (node v₀).Holds t)
    (hm : Meanwhile (node v₁) (node (host.issue (.delete created.name) v₁)) ds) :
    ∃ st st', (node (host.issue (.delete created.name) v₁)).load = .ok st ∧
      (node ((allocate host d r).run v).2).load = .ok st' ∧
      Undoes created ds st.machines st'.machines ((allocate host d r).run v).1 := by
  obtain ⟨_, hissue⟩ := hs.issue (.create spec) v₀
  obtain ⟨t₀, h₀, -⟩ := traces_of_meanwhile h hissue
  obtain ⟨-, hname, -, h₁⟩ := h₀.of_create_ok (hs.run_call hw.made)
  obtain ⟨t₁, h₂, hfate⟩ := traces_of_meanwhile h₁ hm
  have hthere : Fate created ds (t₁.get? created.name) := by
    apply hfate created
    rw [hname, Table.get?_insert_self]
    exact .kept List.not_mem_nil (uid_stored _ _ _)
  obtain ⟨h₃, htells⟩ := holds_of_withdraws hs hw h₂
  obtain ⟨st, hst, -, rfl⟩ := h₂.load
  obtain ⟨st', hst', -, hmachines⟩ := h₃.load
  refine ⟨st, st', hst, hst', ?_⟩
  rw [hmachines]
  exact undoes_of_erase hthere htells

section Rivalry

/-- The caller cancels as soon as a machine is being created, and whenever one is to be deleted
somebody else does so first and makes a machine of the spec. -/
def rival (spec : Machine.Spec) (c : Catalogue) : Host (OneNode × Bool) where
  cancelled v := v.2
  issue call v :=
    match call with
    | .create _ => (v.1, true)
    | .delete name => ((platform.create spec (platform.delete name v.1).2).2, v.2)
    | _ => v
  answer call v := ((platform.answer c call v.1).1, (platform.answer c call v.1).2, v.2)

theorem shares_rival (spec : Machine.Spec) (c : Catalogue) : (rival spec c).Shares Prod.fst c where
  issue call v := by
    cases call with
    | delete name => exact ⟨_, .create (.delete .refl name) spec⟩
    | create | flavour | image | network | subnet | machine | running | machines | setRunStrategy =>
        exact ⟨[], .refl⟩
  answer _ _ := rfl

theorem run_create_rival (other spec : Machine.Spec) (c : Catalogue) (v : OneNode × Bool) :
    ((rival other c).call (.create spec)).run v =
      ((platform.create spec v.1).1, (platform.create spec v.1).2, true) := by
  rw [Host.run_call]
  rfl

theorem issue_rival (spec : Machine.Spec) (c : Catalogue) (name : String) (v : OneNode × Bool) :
    (rival spec c).issue (.delete name) v =
      ((platform.create spec (platform.delete name v.1).2).2, v.2) := rfl

theorem spares_rival {α : Type} (spec : Machine.Spec) (c : Catalogue) {call : Call α}
    (hc : call.changes = false) : (rival spec c).Spares id call where
  issue v := by
    cases call with
    | create | setRunStrategy | delete => cases hc
    | flavour | image | network | subnet | machine | running | machines => rfl
  answer v := by
    cases call with
    | create | setRunStrategy | delete => cases hc
    | flavour | image | network | subnet | machine | running | machines => rfl

def usurper : Machine.Spec := { single with name := "linux-vm" }

theorem exists_withdraws : ∃ spec created w m,
    Withdraws (rival usurper sample) {} order (blank, false) spec created (blank, false) (w, true) ∧
    created.name = usurper.name ∧ created.uid = "uid-0" ∧ w.fresh w.drawn = "uid-1" ∧
    w.Holds (.insert ∅ created.name m) := by
  have hcompile : ((order.compile (rival usurper sample) {}).run (blank, false)).1.map (·.name) =
      .ok usurper.name := by
    decide +kernel
  obtain ⟨spec, hspec, hname⟩ := Except.map_eq_ok_iff.1 hcompile
  have hkeeps := keeps_compile (fun _ hc => spares_rival usurper sample hc) {} order (blank, false)
  have huid : blank.fresh blank.drawn = "uid-0" := by decide +kernel
  have hnext : blank.fresh (blank.drawn + 1) = "uid-1" := by decide +kernel
  obtain ⟨disk, hmade, h⟩ := create_of_free isNew_blank.holds (clash?_specs_empty spec)
  refine ⟨spec, ⟨blank.fresh blank.drawn, spec.name, spec.labels⟩, _, _,
    ⟨Prod.ext hspec hkeeps, rfl, ?_, .inl rfl⟩, hname, huid, hnext, h⟩
  rw [run_create_rival, hmade]

theorem undoes_rival : ∃ spec created v₁ ds st st',
    Withdraws (rival usurper sample) {} order (blank, false) spec created (blank, false) v₁ ∧
    Meanwhile v₁.1 ((rival usurper sample).issue (.delete created.name) v₁).1 ds ∧
    ((rival usurper sample).issue (.delete created.name) v₁).1.load = .ok st ∧
    ((allocate (rival usurper sample) {} order).run (blank, false)).2.1.load = .ok st' ∧
    Undoes created ds st.machines st'.machines
      ((allocate (rival usurper sample) {} order).run (blank, false)).1 := by
  have hs := shares_rival usurper sample
  obtain ⟨spec, created, w, m, hw, -⟩ := exists_withdraws
  obtain ⟨ds, hm⟩ := hs.issue (.delete created.name) (w, true)
  obtain ⟨st, st', hst, hst', h⟩ := undoes_of_withdraws hs hw isNew_blank.holds hm
  exact ⟨spec, created, _, ds, st, st', hw, hm, hst, hst', h⟩

def SparesOthers (created : Machine.Created) (t t' : Table Stored) : Prop :=
  ∀ name m, t.get? name = some m → m.machine.uid ≠ created.uid → t'.get? name = some m

/-- The machine that somebody else made under the name is deleted. -/
theorem not_sparesOthers_of_withdraws : ¬ ∀ (World : Type) (host : Host World)
    (node : World → OneNode) c d r v spec created v₀ v₁ t ds st st', host.Shares node c →
    Withdraws host d r v spec created v₀ v₁ → (node v₀).Holds t →
    Meanwhile (node v₁) (node (host.issue (.delete created.name) v₁)) ds →
    (node (host.issue (.delete created.name) v₁)).load = .ok st →
    (node ((allocate host d r).run v).2).load = .ok st' →
    SparesOthers created st.machines st'.machines := by
  intro hall
  have hs := shares_rival usurper sample
  obtain ⟨spec, created, w, m, hw, hname, huid, hnext, h⟩ := exists_withdraws
  obtain ⟨ds, hm⟩ := hs.issue (.delete created.name) (w, true)
  obtain ⟨disk₁, hdeleted, h₁⟩ := delete_of_some h (Table.get?_insert_self _ _ _)
  rw [Table.erase_insert rfl] at h₁
  obtain ⟨disk₂, hmade, h₂⟩ := create_of_free h₁ (clash?_specs_empty usurper)
  have hbefore : ((rival usurper sample).issue (.delete created.name) (w, true)).1.Holds
      (.insert ∅ usurper.name (stored w.now (w.fresh w.drawn) usurper)) := by
    rw [issue_rival, hdeleted, hmade]
    exact h₂
  -- the name is all that undoing goes by, so it removes the second machine
  obtain ⟨hafter, -⟩ := holds_of_withdraws hs hw hbefore
  obtain ⟨st, hst, -, hmachines⟩ := hbefore.load
  obtain ⟨st', hst', -, hmachines'⟩ := hafter.load
  have hspares := hall _ _ _ _ _ _ _ _ _ _ _ _ _ st st' hs hw isNew_blank.holds hm hst hst'
  rw [hmachines, hmachines'] at hspares
  have hother : (stored w.now (w.fresh w.drawn) usurper).machine.uid ≠ created.uid := by
    rw [uid_stored, hnext, huid]
    decide
  have hkept := hspares usurper.name _ (Table.get?_insert_self _ _ _) hother
  rw [Table.get?_erase, if_pos hname.symm] at hkept
  cases hkept

end Rivalry

end Service

end VirtualInfra
