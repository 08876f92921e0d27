import VirtualInfra.Proofs.Platform.Exclusion
import VirtualInfra.Proofs.Tenancy

namespace VirtualInfra.Service

open Platform OneNode Store Request Tenancy

variable {World : Type} {host : Host World} {node : World → OneNode} {c : Catalogue} {d : Defaults}
  {r : Request} {v v' : World} {w₀ : OneNode} {t : Table Stored} {resource : Resource}
  {spec : Machine.Spec}

/-- What an allocation makes of the table: one more machine when it succeeds, whose spec is the one
that is rendered for the request, and nothing when it fails. -/
structure Transacts (c : Catalogue) (d : Defaults) (r : Request) (t : Table Stored)
    (result : Except Fault Resource) (w : OneNode) : Prop where
  made : ∀ resource, result = .ok resource → ∃ spec m st, w.load = .ok st ∧
    st.machines = t.insert spec.name m ∧ t.get? spec.name = none ∧ m.machine.spec = spec ∧
    (∀ u, (render (platform.host c) d r).run u = (.ok spec, u)) ∧
    resource.name = spec.name ∧ resource.id = m.machine.uid
  failed : ∀ f, result = .error f → ∃ st, w.load = .ok st ∧ st.machines = t

namespace Transacts

theorem of_error {f : Fault} {w : OneNode} (h : w.Holds t) : Transacts c d r t (.error f) w where
  made _ hr := by cases hr
  failed _ _ := by
    obtain ⟨st, hst, -, ht⟩ := h.load
    exact ⟨st, hst, ht⟩

theorem of_ok {w : OneNode} {now : Timestamp}
    (h : w.Holds (t.insert spec.name (stored now resource.id spec)))
    (hfree : t.get? spec.name = none) (hname : resource.name = spec.name)
    (hrender : ∀ u, (render (platform.host c) d r).run u = (.ok spec, u)) :
    Transacts c d r t (.ok resource) w where
  made _ hr := by
    cases hr
    obtain ⟨st, hst, -, ht⟩ := h.load
    exact ⟨spec, _, st, hst, ht, hfree, spec_stored _ _ _, hrender, hname, (uid_stored _ _ _).symm⟩
  failed _ hr := by cases hr

end Transacts

theorem run_render_of_compiled (hd : host.Drives node c)
    (compiled : (r.compile host d).run v = (.ok spec, v')) (u : OneNode) :
    (render (platform.host c) d r).run u = (.ok spec, u) :=
  follows_compile hd.findsIn platform d r v u spec (by rw [compiled])

theorem transacts_of_ends (hd : host.Drives node c) (h : (node v).Holds t)
    {result : Except Fault Resource} (he : Ends host d r v result v') :
    Transacts c d r t result (node v') := by
  cases he with
  | uncompiled compiled => exact .of_error (holds_of_compiled hd h compiled)
  | cancelled compiled => exact .of_error (holds_of_compiled hd h compiled)
  | refused compiled seen created =>
      obtain ⟨w, hl, hw⟩ := hd.run_call created
      have hv := (holds_of_compiled hd h compiled).later hl
      exact .of_error (hv.of_create_error hw)
  | made compiled seen created late derived =>
      obtain ⟨hfree, hname, -, now, h'⟩ :=
        holds_of_created hd (holds_of_compiled hd h compiled) created
      obtain ⟨hid, hnamed⟩ := Machine.Created.of_project_eq_ok derived
      rw [← hid] at h'
      exact .of_ok h' hfree (hnamed.trans hname) (run_render_of_compiled hd compiled)
  | withdrawn compiled seen created late deleted
  | underivable compiled seen created late derived deleted =>
      obtain ⟨hfree, hname, -, now, h'⟩ :=
        holds_of_created hd (holds_of_compiled hd h compiled) created
      exact .of_error (holds_of_deleted hd h' hfree hname deleted)

/-- Whatever was called before and whenever the caller cancels, an allocation adds one machine to
those of the node or leaves them as they are. -/
theorem allocate_adds_one_or_none (h₀ : w₀.IsNew) (h : Reaches w₀ (node v))
    (hd : host.Drives node c) (d : Defaults) (r : Request) :
    ∃ st, (node v).load = .ok st ∧ Transacts c d r st.machines ((allocate host d r).run v).1
      (node ((allocate host d r).run v).2) := by
  obtain ⟨t, ht, -⟩ := exclusive_of_reaches h₀ h
  obtain ⟨st, hst, -, rfl⟩ := ht.load
  exact ⟨st, hst, transacts_of_ends hd ht (ends_allocate host d r v)⟩

/-- Once a spec is there that clashes with nothing, the machine is made. It is handed over, or taken
away again if the caller has cancelled meanwhile. -/
theorem run_allocate_of_free {v₀ : World} (hd : host.Drives node c) (h : (node v₀).Holds t)
    (compiled : (r.compile host d).run v = (.ok spec, v₀)) (seen : host.cancelled v₀ = false)
    (hfree : clash? (specs t) spec = none) :
    ∃ created v₁, (host.call (.create spec)).run v₀ = (.ok created, v₁) ∧
      created.name = spec.name ∧
      if host.cancelled v₁ then
        ∃ v₂, (host.call (.delete created.name)).run v₁ = (.ok (), v₂) ∧
          (allocate host d r).run v =
            (.error ((Undo.Report.single s!"create VM {created.name}" (.ok ())).cancelled
              s!"create VM {created.name}"), v₂)
      else ∃ resource, (allocate host d r).run v = (.ok resource, v₁) ∧
        resource.name = spec.name := by
  have hends := ends_allocate host d r v
  rcases hrun : (allocate host d r).run v with ⟨result, v'⟩
  rw [hrun] at hends
  cases hends with
  | uncompiled compiled' =>
      rw [compiled] at compiled'
      cases compiled'
  | cancelled compiled' seen' =>
      rw [compiled] at compiled'
      cases compiled'
      rw [seen] at seen'
      cases seen'
  | refused compiled' _ created =>
      rw [compiled] at compiled'
      cases compiled'
      obtain ⟨w, hl, hw⟩ := hd.run_call created
      rcases (h.later hl).of_create hw with ⟨hclash, -⟩ | ⟨-, _, hx, -⟩
      · exact absurd hfree hclash
      · cases hx
  | made compiled' _ created late derived =>
      rw [compiled] at compiled'
      cases compiled'
      obtain ⟨-, hname, -⟩ := holds_of_created hd h created
      refine ⟨_, _, created, hname, ?_⟩
      rw [late, if_neg Bool.false_ne_true]
      exact ⟨_, rfl, (Machine.Created.of_project_eq_ok derived).2.trans hname⟩
  | withdrawn compiled' _ created late deleted =>
      rw [compiled] at compiled'
      cases compiled'
      obtain ⟨-, hname, -, now, h'⟩ := holds_of_created hd h created
      refine ⟨_, _, created, hname, ?_⟩
      rw [late, if_pos rfl]
      obtain ⟨w, hl, hw⟩ := hd.run_call deleted
      rw [hname] at hw
      rcases (h'.later hl).of_delete hw with ⟨hnone, -⟩ | ⟨_, -, rfl, -⟩
      · rw [Table.get?_insert_self] at hnone
        cases hnone
      · exact ⟨_, deleted, rfl⟩
  | underivable compiled' _ created _ derived _ =>
      rw [compiled] at compiled'
      cases compiled'
      obtain ⟨resolved, attachments, hspec⟩ := compiles_of_drives hd compiled
      obtain ⟨-, -, hlabels, -⟩ := holds_of_created hd h created
      obtain ⟨resource, hr⟩ := Machine.Created.exists_project_eq_ok hspec hlabels
      rw [hr] at derived
      cases derived

section Impatience

/-- The caller cancels as soon as a machine is being created. -/
def impatient (c : Catalogue) : Host (OneNode × Bool) where
  cancelled v := v.2
  issue call v := (v.1, v.2 || match call with | .create _ => true | _ => false)
  answer call v := ((platform.answer c call v.1).1, (platform.answer c call v.1).2, v.2)

theorem drives_impatient (c : Catalogue) : (impatient c).Drives Prod.fst c where
  issue _ v := .refl v.1
  answer _ _ := rfl

def inhabited : OneNode := (platform.create single blank).2

theorem holds_inhabited : ∃ t, inhabited.Holds t ∧ specs t = [("vm", single)] := by
  obtain ⟨made, w, t, hmade, h, hspecs⟩ :=
    exists_created isNew_blank.holds (clash?_specs_empty single)
  refine ⟨t, ?_, hspecs⟩
  rw [inhabited, hmade]
  exact h

theorem drives_watched (hd : host.Drives node c) :
    host.watched.Drives (fun w => node w.world) c where
  issue call w := hd.issue call w.world
  answer call w := hd.answer call w.world

def delivered : Except Fault Resource × OneNode :=
  (allocate (platform.host sample) {} order).run inhabited

def withdrawn : Except Fault Resource × Watched (OneNode × Bool) :=
  (allocate (impatient sample).watched {} order).run { world := (inhabited, false) }

theorem exists_free {v₀ : World} (hd : host.Drives node sample) (hv : node v = inhabited)
    (compiled : (order.compile host {}).run v = (.ok spec, v₀))
    (hfree : clash? [("vm", single)] spec = none) :
    ∃ t, (node v₀).Holds t ∧ clash? (specs t) spec = none := by
  obtain ⟨t, h, hspecs⟩ := holds_inhabited
  rw [← hv] at h
  rw [← hspecs] at hfree
  exact ⟨t, holds_of_compiled hd h compiled, hfree⟩

theorem delivered_eq_ok : ∃ resource, delivered.1 = .ok resource ∧ resource.name = "linux-vm" := by
  have hcompile : ((order.compile (platform.host sample) {}).run inhabited).1.map
      (fun s => (s.name, clash? [("vm", single)] s)) = .ok ("linux-vm", none) := by
    decide +kernel
  rcases compiled : (order.compile (platform.host sample) {}).run inhabited with ⟨x, v⟩
  rw [compiled] at hcompile
  obtain ⟨spec, rfl, hspec⟩ := Except.map_eq_ok_iff.1 hcompile
  obtain ⟨t, h, hfree⟩ :=
    exists_free (drives_host sample) rfl compiled (congrArg Prod.snd hspec)
  obtain ⟨_, _, _, _, resource, hrun, hname⟩ :=
    run_allocate_of_free (drives_host sample) h compiled rfl hfree
  exact ⟨resource, congrArg Prod.fst hrun, hname.trans (congrArg Prod.fst hspec)⟩

/-- Everything that was asked of the node is the creation of one machine and its deletion. -/
theorem withdrawn_eq_error : ∃ spec created,
    withdrawn.1 = .error ((Undo.Report.single "create VM linux-vm" (.ok ())).cancelled
      "create VM linux-vm") ∧
    withdrawn.2.journal = {
      creations := [spec], created := [(.ok created, true)]
      deletions := ["linux-vm"], deleted := [.ok ()] } := by
  have hcompile : ((order.compile (impatient sample).watched {}).run
      { world := (inhabited, false) }).1.map (fun s => (s.name, clash? [("vm", single)] s)) =
        .ok ("linux-vm", none) := by
    decide +kernel
  have seen : ((order.compile (impatient sample).watched {}).run
      { world := (inhabited, false) }).2.world.2 = false := by
    decide +kernel
  rcases compiled : (order.compile (impatient sample).watched {}).run
    { world := (inhabited, false) } with ⟨x, v⟩
  rw [compiled] at hcompile seen
  obtain ⟨spec, rfl, hspec⟩ := Except.map_eq_ok_iff.1 hcompile
  have hd := drives_watched (drives_impatient sample)
  obtain ⟨t, h, hfree⟩ := exists_free hd rfl compiled (congrArg Prod.snd hspec)
  obtain ⟨created, v₁, hcreated, hname, hends⟩ := run_allocate_of_free hd h compiled seen hfree
  have late : (impatient sample).cancelled v₁.world = true := by
    have hv₁ : _ = v₁ := congrArg Prod.snd hcreated
    rw [← hv₁]
    exact Bool.or_true _
  change if (impatient sample).cancelled v₁.world = true then _ else _ at hends
  rw [late, if_pos rfl] at hends
  obtain ⟨v₂, hdeleted, hrun⟩ := hends
  rw [hname.trans (congrArg Prod.fst hspec)] at hdeleted hrun
  refine ⟨spec, created, congrArg Prod.fst hrun, ?_⟩
  rw [withdrawn, hrun]
  rw [journal_of_run_delete hdeleted, journal_of_run_create hcreated,
    (journal_of_run_compile compiled).2, late]
  rfl

/-- One machine is created and stays, and one is created and taken away again. -/
theorem adds_delivered_and_none_withdrawn :
    blank.IsNew ∧ Reaches blank inhabited ∧
      ((platform.host sample).Drives id sample ∧
        (∃ resource, delivered.1 = .ok resource ∧ resource.name = "linux-vm") ∧
        ∃ st, inhabited.load = .ok st ∧
          Transacts sample {} order st.machines delivered.1 delivered.2) ∧
      (impatient sample).watched.Drives (fun w => w.world.1) sample ∧
        (∃ spec created,
          withdrawn.1 = .error ((Undo.Report.single "create VM linux-vm" (.ok ())).cancelled
            "create VM linux-vm") ∧
          withdrawn.2.journal = {
            creations := [spec], created := [(.ok created, true)]
            deletions := ["linux-vm"], deleted := [.ok ()] }) ∧
        ∃ st, inhabited.load = .ok st ∧
          Transacts sample {} order st.machines withdrawn.1 withdrawn.2.world.1 := by
  have hreaches : Reaches blank inhabited := .create .refl single
  have hd := drives_watched (drives_impatient sample)
  refine ⟨isNew_blank, hreaches, ⟨drives_host sample, delivered_eq_ok, ?_⟩, hd,
    withdrawn_eq_error, ?_⟩
  · unfold delivered
    exact @allocate_adds_one_or_none OneNode _ (fun w => w) sample inhabited blank isNew_blank
      hreaches (drives_host sample) {} order
  · unfold withdrawn
    exact @allocate_adds_one_or_none (Watched (OneNode × Bool)) _ (fun w => w.world.1) sample
      { world := (inhabited, false) } blank isNew_blank hreaches hd {} order

end Impatience

end VirtualInfra.Service
